import Purra.AgentTree.Replay

/-!
# The context checkpoints of an Agent

`complete_run` numbers the checkpoints of an Agent by the Agent's own context version.

* `WholeChains` — the checkpoints of every Agent are numbered from one on, each names the one before,
  and the Agent names the last.
* `SpawnsFresh` — a spawn gives no child the id of an Agent that has a checkpoint; the code does
  not look.
* `wholeChains_exec` — **along every run whose spawns are fresh, every Agent's chain is whole**.
-/

namespace Purra

open Purra.Action RunTree

/-! ## Chains -/

/-- Each checkpoint names the one before it, the first one `previous`. -/
def LinkedFrom : Option RequiredText → List ContextCheckpoint → Prop
  | _, [] => True
  | previous, checkpoint :: later =>
    checkpoint.previousCheckpointId = previous ∧ LinkedFrom (some checkpoint.checkpointId) later

/-- The id of the last checkpoint of a chain that began behind `previous`. -/
def lastId (previous : Option RequiredText) (chain : List ContextCheckpoint) :
    Option RequiredText :=
  (chain.getLast?.map (·.checkpointId)).or previous

theorem linkedFrom_append_singleton {previous : Option RequiredText} {chain : List ContextCheckpoint}
    {checkpoint : ContextCheckpoint} (h : LinkedFrom previous chain)
    (hnext : checkpoint.previousCheckpointId = lastId previous chain) :
    LinkedFrom previous (chain ++ [checkpoint]) := by
  induction chain generalizing previous with
  | nil => exact ⟨hnext, trivial⟩
  | cons first chain ih =>
    refine ⟨h.1, ih h.2 ?_⟩
    rw [hnext]
    cases chain with
    | nil => rfl
    | cons second chain => simp [lastId, List.getLast?_eq_some_getLast]

namespace AgentTreeState

/-- The checkpoints of an Agent, in the order they were stored. -/
def checkpointsOf (s : AgentTreeState) (agentId : RequiredText) : List ContextCheckpoint :=
  s.checkpoints.values.filter (·.agentId = agentId)

end AgentTreeState

/-- The checkpoints of an Agent are numbered from one up to its context version, each names the one
before, and the Agent names the last. -/
structure ChainOf (s : AgentTreeState) (agent : AgentNode) : Prop where
  versions : (s.checkpointsOf agent.agentId).map (·.version) = List.range' 1 agent.contextVersion
  linked : LinkedFrom none (s.checkpointsOf agent.agentId)
  last : agent.contextCheckpointId = lastId none (s.checkpointsOf agent.agentId)

/-- Every Agent's chain is whole, and every checkpoint is in one. -/
structure WholeChains (s : AgentTreeState) : Prop where
  chain : ∀ k agent, s.agents.get? k = some agent → ChainOf s agent
  owned : ∀ k checkpoint, s.checkpoints.get? k = some checkpoint →
    k = checkpoint.checkpointId.text ∧ ∃ agent, s.agents.get? checkpoint.agentId.text = some agent

/-- No checkpoint is stored under a number still to be given out. -/
def CheckpointsFree (s : AgentTreeState) : Prop :=
  ∀ n, s.checkpointSequence < n → s.checkpoints.get? (generatedCheckpointId n).text = none

/-- A spawn that goes through gives no child the id of an Agent that has a checkpoint. -/
def SpawnsFresh (digest : Json → String) (s : AgentTreeState) (event : (Nat → Nat) × TreeOp) :
    Prop :=
  ∀ command s', event.2 = .spawnAgents command → Change digest event.1 s event.2 s' →
    ∀ index < command.children.length, ∀ agent,
      s.agents.get? (generatedAgentId (s.agentSequence + index + 1)).text = some agent →
        agent.contextVersion = 0

section

variable {digest : Json → String} {clock : Nat → Nat} {s s' : AgentTreeState}

/-! ## What keeps the chains -/

/-- An Agent with the context of one that was there, or one without checkpoints. -/
def SameContext (s : AgentTreeState) (agent : AgentNode) : Prop :=
  (∃ k old, s.agents.get? k = some old ∧ old.agentId = agent.agentId ∧
    agent.contextVersion = old.contextVersion ∧
      agent.contextCheckpointId = old.contextCheckpointId) ∨
    (agent.contextVersion = 0 ∧ agent.contextCheckpointId = none ∧
      s.checkpointsOf agent.agentId = [])

/-- Steps that write no checkpoint keep the chains when they keep the context of the Agents. -/
theorem WholeChains.of_context (h : WholeChains s) (hcheckpoints : s'.checkpoints = s.checkpoints)
    (hkeys : ∀ k ∈ s.agents.keys, k ∈ s'.agents.keys)
    (hagents : ∀ k agent, s'.agents.get? k = some agent → SameContext s agent) : WholeChains s' where
  chain k agent hget := by
    have hsame : ∀ id, s'.checkpointsOf id = s.checkpointsOf id := by
      intro id
      rw [AgentTreeState.checkpointsOf, hcheckpoints]
      rfl
    rcases hagents k agent hget with ⟨l, old, hold, hid, hversion, hlast⟩ | ⟨hversion, hlast, hnone⟩
    · have hchain := h.chain l old hold
      refine ⟨?_, ?_, ?_⟩
      · rw [hsame, hversion, ← hchain.versions, hid]
      · rw [hsame, ← hid]
        exact hchain.linked
      · rw [hsame, hlast, ← hid]
        exact hchain.last
    · refine ⟨?_, ?_, ?_⟩
      · rw [hsame, hnone, hversion]
        rfl
      · rw [hsame, hnone]
        trivial
      · rw [hsame, hnone, hlast]
        rfl
  owned k checkpoint hget := by
    obtain ⟨hkey, agent, hagent⟩ := h.owned k checkpoint (hcheckpoints ▸ hget)
    exact ⟨hkey, Dict.mem_keys_iff.1 (hkeys _ (Dict.mem_keys_iff.2 ⟨agent, hagent⟩))⟩

theorem WholeChains.of_eq (h : WholeChains s) (hcheckpoints : s'.checkpoints = s.checkpoints)
    (hagents : s'.agents = s.agents) : WholeChains s' :=
  h.of_context hcheckpoints (fun _ hk => hagents ▸ hk) fun k agent hget =>
    Or.inl ⟨k, agent, hagents ▸ hget, rfl, rfl, rfl⟩

variable {agent : AgentNode}

/-- One Agent is stored, with the context it has. -/
theorem WholeChains.putAgent (h : WholeChains s) {key : String}
    (hcheckpoints : s'.checkpoints = s.checkpoints) (hagents : s'.agents = s.agents.set key agent)
    (hcontext : SameContext s agent) : WholeChains s' := by
  refine h.of_context hcheckpoints (fun k hk => ?_) fun k other hget => ?_
  · rw [hagents, Dict.mem_keys_iff, Dict.get?_set]
    split
    · exact ⟨agent, rfl⟩
    · exact Dict.mem_keys_iff.1 hk
  · rw [hagents, Dict.get?_set] at hget
    split at hget
    · cases hget
      exact hcontext
    · exact Or.inl ⟨k, other, hget, rfl, rfl, rfl⟩

/-- An id that no Agent has is in no checkpoint. -/
theorem WholeChains.checkpointsOf_new (h : WholeChains s) {id : RequiredText}
    (hnew : s.agents.get? id.text = none) : s.checkpointsOf id = [] := by
  rw [AgentTreeState.checkpointsOf, List.filter_eq_nil_iff]
  intro checkpoint hmem hid
  obtain ⟨k, hget⟩ := Dict.mem_values_iff.1 hmem
  obtain ⟨-, agent, hagent⟩ := h.owned k checkpoint hget
  rw [of_decide_eq_true hid, hnew] at hagent
  cases hagent

/-- An Agent without a version has no checkpoint. -/
theorem ChainOf.checkpointsOf_eq_nil (h : ChainOf s agent)
    (hversion : agent.contextVersion = 0) : s.checkpointsOf agent.agentId = [] := by
  have := h.versions
  rw [hversion] at this
  exact List.map_eq_nil_iff.1 this

/-- A checkpoint that continues the chain of its Agent. -/
theorem WholeChains.complete (hs : Wired s) (h : WholeChains s) (hfree : CheckpointsFree s)
    {checkpoint : ContextCheckpoint} {completed : AgentTreeRun}
    (hagent : s.agents.get? agent.agentId.text = some agent)
    (hid : checkpoint.checkpointId = generatedCheckpointId (s.checkpointSequence + 1))
    (howner : checkpoint.agentId = agent.agentId)
    (hversion : checkpoint.version = agent.contextVersion + 1)
    (hprevious : checkpoint.previousCheckpointId = agent.contextCheckpointId) :
    WholeChains (putCompleted { s with checkpointSequence := s.checkpointSequence + 1 } agent checkpoint
      completed) := by
  have hnew : checkpoint.checkpointId.text ∉ s.checkpoints.keys := by
    rw [← Dict.get?_eq_none_iff, hid]
    exact hfree _ (Nat.lt_succ_self _)
  have hvalues : (s.checkpoints.set checkpoint.checkpointId.text checkpoint).values =
      s.checkpoints.values ++ [checkpoint] := by
    rw [Dict.values, Dict.entries_set_of_not_mem hnew, List.map_append]
    rfl
  have hof : ∀ id, (putCompleted { s with checkpointSequence := s.checkpointSequence + 1 } agent
      checkpoint completed).checkpointsOf id =
        if agent.agentId = id then s.checkpointsOf id ++ [checkpoint] else s.checkpointsOf id := by
    intro id
    show (s.checkpoints.set checkpoint.checkpointId.text checkpoint).values.filter _ = _
    rw [hvalues, List.filter_append]
    by_cases hsame : agent.agentId = id
    · rw [if_pos hsame]
      simp [howner, hsame, AgentTreeState.checkpointsOf]
    · rw [if_neg hsame]
      simp [howner, hsame, AgentTreeState.checkpointsOf]
  have hchain := h.chain _ agent hagent
  refine ⟨fun k other hget => ?_, fun k other hget => ?_⟩
  · have hother := hget
    simp only [putCompleted, Dict.get?_set] at hget
    split at hget
    · cases hget
      refine ⟨?_, ?_, ?_⟩
      · rw [hof, if_pos rfl, List.map_append, hchain.versions]
        show _ ++ [checkpoint.version] = List.range' 1 checkpoint.version
        rw [hversion, List.range'_1_concat, Nat.add_comm]
      · rw [hof, if_pos rfl]
        exact linkedFrom_append_singleton hchain.linked (hprevious.trans hchain.last)
      · rw [hof, if_pos rfl]
        simp [lastId]
    · rename_i hk
      have hne : agent.agentId ≠ other.agentId := by
        intro heq
        rw [hs.agent_key hget, heq] at hk
        exact hk rfl
      have hkept := h.chain k other hget
      refine ⟨?_, ?_, ?_⟩
      · rw [hof, if_neg hne]
        exact hkept.versions
      · rw [hof, if_neg hne]
        exact hkept.linked
      · rw [hof, if_neg hne]
        exact hkept.last
  · have hstay : ∀ id, (∃ a, s.agents.get? id = some a) → ∃ a,
        (putCompleted { s with checkpointSequence := s.checkpointSequence + 1 } agent checkpoint
          completed).agents.get? id = some a := by
      rintro id ⟨a, ha⟩
      simp only [putCompleted, Dict.get?_set]
      split
      · exact ⟨_, rfl⟩
      · exact ⟨a, ha⟩
    simp only [putCompleted, Dict.get?_set] at hget
    split at hget
    · rename_i hk
      cases hget
      exact ⟨hk, hstay _ ⟨agent, howner ▸ hagent⟩⟩
    · obtain ⟨hkey, howned⟩ := h.owned k other hget
      exact ⟨hkey, hstay _ howned⟩

/-! ## Every step -/

theorem requireActiveAgent_stored (hs : Wired s) {id : String}
    (h : s.requireActiveAgent id = .ok agent) : s.agents.get? agent.agentId.text = some agent :=
  (hs.requireActiveAgent_eq_ok h).1

theorem wholeChains_change (hs : Wired s) (h : WholeChains s) (hfree : CheckpointsFree s) {op : TreeOp}
    (hfresh : SpawnsFresh digest s (clock, op)) (hchange : Change digest clock s op s') :
    WholeChains s' := by
  have hall := hchange
  cases hchange with
  | root _ agent _ hagent =>
    refine h.putAgent rfl rfl ?_
    rcases rootAgent_eq_ok hagent with ⟨hnone, rfl⟩ | ⟨hget, -⟩
    · exact Or.inr ⟨rfl, rfl, h.checkpointsOf_new hnone⟩
    · exact Or.inl ⟨_, agent, hget, rfl, rfl, rfl⟩
  | @spawn command parentRun parent grants mark hrun _ hparent hdepth _ hgrants =>
    have hadmission := admission_spawn hs hrun hparent hdepth hgrants
      (command.parentRunId, command.idempotencyKey) mark
      { batchId := generatedBatchId (s.batchSequence + 1),
        items := spawnedItems s command parent parentRun grants }
    refine h.of_context rfl (fun k hk => hadmission.agent_keys_subset hk) fun k agent hget => ?_
    rcases hadmission.get?_agent_cases hget with ⟨item, hitem, -, rfl⟩ | ⟨-, hold⟩
    · obtain ⟨index, spec, hspec, grant, hindex, -, rfl⟩ := mem_spawnedItems hitem
      refine Or.inr ⟨rfl, rfl, ?_⟩
      cases hold : s.agents.get? (generatedAgentId (s.agentSequence + index + 1)).text with
      | none => exact h.checkpointsOf_new hold
      | some old =>
        have hlt := (List.getElem?_eq_some_iff.1 hindex).1
        have hid : old.agentId = generatedAgentId (s.agentSequence + index + 1) :=
          RequiredText.ext (hs.agent_key hold).symm
        have hnil := (h.chain _ old hold).checkpointsOf_eq_nil
          (hfresh command _ rfl hall index hlt old hold)
        rw [hid] at hnil
        exact hnil
    · exact Or.inl ⟨k, agent, hold, rfl, rfl, rfl⟩
  | @«continue» _ _ target _ _ _ _ _ htarget =>
    exact h.putAgent rfl rfl
      (Or.inl ⟨_, target, requireActiveAgent_stored hs htarget, rfl, rfl, rfl⟩)
  | complete _ _ _ _ _ _ _ _ hagent _ hid howner hversion hprevious =>
    exact h.complete hs hfree (requireActiveAgent_stored hs hagent) hid howner hversion hprevious
  | fail =>
    exact foldl_cancelDescendant _ (fun _ _ _ h _ _ => WholeChains.of_eq h rfl rfl) _
      (h.of_eq rfl rfl)
  | cancel =>
    exact foldl_cancelOrdered (fun _ _ _ h _ _ => WholeChains.of_eq h rfl rfl) _ h
  | close agent hagent =>
    exact h.putAgent rfl rfl
      (Or.inl ⟨_, agent, requireActiveAgent_stored hs hagent, rfl, rfl, rfl⟩)
  | _ => exact h.of_eq rfl rfl

theorem CheckpointsFree.of_eq (h : CheckpointsFree s) (hcheckpoints : s'.checkpoints = s.checkpoints)
    (hsequence : s.checkpointSequence ≤ s'.checkpointSequence) : CheckpointsFree s' := by
  intro n hn
  rw [hcheckpoints]
  exact h n (lt_of_le_of_lt hsequence hn)

theorem checkpointsFree_change (h : CheckpointsFree s) {op : TreeOp}
    (hchange : Change digest clock s op s') : CheckpointsFree s' := by
  cases hchange with
  | number => exact h.of_eq rfl (Nat.le_succ _)
  | complete _ _ _ checkpoint _ _ _ _ _ _ hid =>
    intro n hn
    have hlt : s.checkpointSequence + 1 < n := hn
    show (s.checkpoints.set checkpoint.checkpointId.text checkpoint).get? _ = none
    rw [Dict.get?_set_of_ne]
    · exact h n (by omega)
    · intro heq
      rw [hid] at heq
      have := RequiredText.numbered_inj.1 (RequiredText.ext heq)
      omega
  | fail =>
    exact foldl_cancelDescendant _ (fun _ _ _ h _ _ => CheckpointsFree.of_eq h rfl le_rfl) _
      (h.of_eq rfl le_rfl)
  | cancel =>
    exact foldl_cancelOrdered (fun _ _ _ h _ _ => CheckpointsFree.of_eq h rfl le_rfl) _ h
  | _ => exact h.of_eq rfl le_rfl

/-- What a run with fresh spawns keeps. -/
structure ChainState (s : AgentTreeState) : Prop where
  wired : Wired s
  chained : WholeChains s
  free : CheckpointsFree s

theorem wholeChains_step {event : (Nat → Nat) × TreeOp} (hs : ChainState s)
    (hfresh : SpawnsFresh digest s event) : ChainState (s.step digest event) := by
  refine ⟨wired_step event hs.wired, ?_, ?_⟩
  · rcases change_of_step digest s event with h | h
    · rw [h]
      exact hs.chained
    · exact wholeChains_change hs.wired hs.chained hs.free hfresh h
  · rcases change_of_step digest s event with h | h
    · rw [h]
      exact hs.free
    · exact checkpointsFree_change hs.free h

theorem wholeChains_initial (n : Nat) : ChainState (AgentTreeState.initial n) where
  wired := wired_initial n
  chained := by
    refine ⟨fun k agent h => ?_, fun k checkpoint h => ?_⟩
    · have hnone : (AgentTreeState.initial n).agents.get? k = none := rfl
      rw [hnone] at h
      cases h
    · have hnone : (AgentTreeState.initial n).checkpoints.get? k = none := rfl
      rw [hnone] at h
      cases h
  free := fun _ _ => rfl

/-- **Every Agent's chain is whole** after every run whose spawns are fresh. -/
theorem wholeChains_exec (n : Nat) {run : List ((Nat → Nat) × TreeOp)}
    (hrun : Along (AgentTreeState.step digest) (SpawnsFresh digest) (AgentTreeState.initial n) run) :
    WholeChains (exec (AgentTreeState.step digest) (AgentTreeState.initial n) run) :=
  (exec_induction (I := ChainState) (fun _ _ hfresh hs => wholeChains_step hs hfresh) hrun
    (wholeChains_initial n)).chained

end

/-- **Repetitions and chains.**  After a spawn or a continuation that returned, and whatever is
done next, its repetition with the same input returns its receipt, marked, and one with another
input under its key is refused, and neither writes anything.  And along every run whose spawns are
fresh every Agent's chain of checkpoints is whole. -/
theorem replays_and_chains (sha256 : String → String) (py : Builtins) (hpy : FloatRepr py)
    (initialRunSequence : Nat) :
    (∀ (before later : List ((Nat → Nat) × TreeOp)) (clock clock' : Nat → Nat)
      (command again : SpawnAgentsCommand) (receipt : SpawnAgentsReceipt),
      (spawnAgents (digestOf sha256 py) clock command (exec
        (AgentTreeState.step (digestOf sha256 py)) (.initial initialRunSequence) before)).1 =
          .ok receipt →
      again.parentRunId = command.parentRunId → again.idempotencyKey = command.idempotencyKey →
        SpawnReplays sha256 py (exec (AgentTreeState.step (digestOf sha256 py))
          (.initial initialRunSequence) (before ++ (clock, .spawnAgents command) :: later))
            command receipt again clock') ∧
    (∀ (before later : List ((Nat → Nat) × TreeOp)) (clock clock' : Nat → Nat)
      (command again : ContinueAgentCommand) (receipt : ContinueAgentReceipt),
      (continueAgent (digestOf sha256 py) clock command (exec
        (AgentTreeState.step (digestOf sha256 py)) (.initial initialRunSequence) before)).1 =
          .ok receipt →
      again.requesterRunId = command.requesterRunId →
      again.idempotencyKey = command.idempotencyKey →
        ContinueReplays sha256 py (exec (AgentTreeState.step (digestOf sha256 py))
          (.initial initialRunSequence) (before ++ (clock, .continueAgent command) :: later))
            command receipt again clock') ∧
    ∀ run : List ((Nat → Nat) × TreeOp),
      Along (AgentTreeState.step (digestOf sha256 py)) (SpawnsFresh (digestOf sha256 py))
        (.initial initialRunSequence) run →
          WholeChains (exec (AgentTreeState.step (digestOf sha256 py)) (.initial initialRunSequence)
            run) := by
  refine ⟨?_, ?_, fun run hrun => wholeChains_exec initialRunSequence hrun⟩
  · intro before later clock clock' command again receipt h hrun hkey
    rw [exec_append]
    exact spawnReplays_of_ok hpy h hrun hkey later
  · intro before later clock clock' command again receipt h hrun hkey
    rw [exec_append]
    exact continueReplays_of_ok hpy h hrun hkey later

/-! ### An Agent that is overwritten -/

namespace Sample

/-- Begin a root Run for a given Agent. -/
def beginAs (runId agentId : RequiredText) : TreeOp :=
  .beginRoot {
    runId
    agentId
    name := word
    title := word
    instruction := word
    objective := word
    capabilityGrant := grant 3 three_slots
    idempotencyKey := word }

/-- The root Agent is called like the repository's first child.  It completes a Run, and its next
Run spawns that child. -/
def overwritten : List ((Nat → Nat) × TreeOp) :=
  [at_ 0 (beginAs rootId (generatedAgentId 1)), at_ 0 (complete "root" none none),
    at_ 0 (beginAs word (generatedAgentId 1)), at_ 0 (spawn word)]

/-- One child under the root Run, asked for by a worker or by none. -/
def spawnCommand (owner : Option RequiredText) (epoch : Option Nat)
    (hlease : owner = none ↔ epoch = none) : SpawnAgentsCommand where
  parentRunId := rootId
  idempotencyKey := word
  children := workers
  leaseOwnerId := owner
  leaseEpoch := epoch
  children_ne_nil := workers_ne_nil
  names_nodup := workers_nodup
  dependencies_known := workers_known
  dependencies_acyclic := workers_acyclic
  lease_paired := hlease

/-- The next Run of the first child. -/
def continueCommand (message : RequiredText) : ContinueAgentCommand where
  requesterRunId := rootId
  idempotencyKey := word
  agentId := generatedAgentId 1
  expectedContextVersion := 1
  message := message
  lease_paired := unleased

/-- Calls of a repository without a hash in front of its digests. -/
def afterExact (run : List ((Nat → Nat) × TreeOp)) : AgentTreeState :=
  exec (AgentTreeState.step (digestOf id exactRepr)) (.initial 0) run

/-- The root Run has begun. -/
def begun : List ((Nat → Nat) × TreeOp) := [at_ 0 (beginAs rootId word)]

/-- Its child has completed a Run. -/
def childDone : List ((Nat → Nat) × TreeOp) :=
  begun ++ at_ 0 (.spawnAgents (spawnCommand none none unleased)) ::
    [at_ 0 (.claimRun "agent-run-1" "worker" 30000),
      at_ 0 (complete "agent-run-1" (some "worker") (some 1))]

end Sample

open Sample in
theorem overwritten_states :
    ((afterExact overwritten).agents.get? "agent-1").map (·.contextVersion) = some 0 ∧
      ((afterExact overwritten).checkpointsOf (generatedAgentId 1)).map (·.version) = [1] := by
  decide +kernel

open Sample in
/-- A spawn gives its child the id of an Agent that has a checkpoint: the Agent that is stored then
has context version zero, and the checkpoint is there still. -/
theorem chain_lost : ¬ ∀ run : List ((Nat → Nat) × TreeOp),
    WholeChains (exec (AgentTreeState.step (digestOf id exactRepr)) (.initial 0) run) := by
  intro h
  obtain ⟨hagent, hversions⟩ := overwritten_states
  obtain ⟨agent, hget, hversion⟩ := Option.map_eq_some_iff.1 hagent
  have hchain := (h overwritten).chain "agent-1" agent hget
  have hid : agent.agentId = generatedAgentId 1 :=
    RequiredText.ext ((wired_exec 0 overwritten).agent_key hget).symm
  have hwrong := hchain.versions
  rw [hid, hversion] at hwrong
  exact absurd (hversions.symm.trans hwrong) (by decide)

open Sample in
/-- The first spawn and the continuation of its child, repeated by a worker after the root Run was
canceled; the child's chain holds one checkpoint. -/
theorem replays_and_chains_sample :
    (∃ receipt, SpawnReplays id exactRepr
      (afterExact (childDone ++ [at_ 9 (.cancelSubtree "root")]))
      (spawnCommand none none (Iff.intro (fun _ => rfl) fun _ => rfl)) receipt
      (spawnCommand (some worker) (some 7) ⟨nofun, nofun⟩) fun _ => 9) ∧
    (∃ receipt, ContinueReplays id exactRepr
      (afterExact (childDone ++ at_ 3 (.continueAgent (continueCommand word)) ::
        [at_ 9 (.cancelSubtree "root")]))
      (continueCommand word) receipt (continueCommand worker) fun _ => 9) ∧
    WholeChains (afterExact childDone) := by
  obtain ⟨hspawn, hcontinue, hchain⟩ := replays_and_chains id exactRepr floatRepr_exactRepr 0
  refine ⟨?_, ?_, ?_⟩
  · have hok : (spawnAgents (digestOf id exactRepr) (fun _ => 0)
        (spawnCommand none none (Iff.intro (fun _ => rfl) fun _ => rfl))
        (afterExact begun)).1.toBool = true := by
      decide +kernel
    cases hreceipt : (spawnAgents (digestOf id exactRepr) (fun _ => 0)
        (spawnCommand none none (Iff.intro (fun _ => rfl) fun _ => rfl)) (afterExact begun)).1 with
    | error e =>
      rw [hreceipt] at hok
      cases hok
    | ok receipt =>
      exact ⟨receipt, hspawn begun _ _ _ _ _ _ hreceipt rfl rfl⟩
  · have hok : (continueAgent (digestOf id exactRepr) (fun _ => 3) (continueCommand word)
        (afterExact childDone)).1.toBool = true := by
      decide +kernel
    cases hreceipt : (continueAgent (digestOf id exactRepr) (fun _ => 3) (continueCommand word)
        (afterExact childDone)).1 with
    | error e =>
      rw [hreceipt] at hok
      cases hok
    | ok receipt =>
      exact ⟨receipt, hcontinue childDone _ _ _ _ _ _ hreceipt rfl rfl⟩
  · refine hchain childDone ⟨?_, ?_, ?_, ?_, trivial⟩
    · intro command s' h
      cases h
    · intro command s' h _ index hindex agent hget
      cases h
      have hzero : index = 0 := Nat.lt_one_iff.1 hindex
      subst hzero
      have hnone : (afterExact begun).agents.get? (generatedAgentId 1).text = none := by
        decide +kernel
      exact absurd (hnone.symm.trans hget) nofun
    · intro command s' h
      cases h
    · intro command s' h
      cases h

end Purra
