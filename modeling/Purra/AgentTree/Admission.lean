import Purra.AgentTree.Changes

/-!
# How the tree grows

A Run keeps what it was created with: its Agent, its place in the tree, its predecessor and its
dependencies.  Calls change statuses and leases only, and the tree grows in one way: some Agents
get a next Run each.

* `RunIdentity`, `AgentIdentity` — the fields that are fixed at creation.
* `Wired` — every id a record holds is the key of a record.  It holds in every state the
  repository reaches, whatever the host calls its Runs (`wired_exec`).
* `Admission` — what a root Run, a spawn and a continuation have in common; `admission_cases`
  finds it in each of the three.
-/

namespace Purra

open Purra.Action RunTree

/-! ## What is fixed at creation -/

/-- The fields of a Run that no call changes. -/
structure RunIdentity where
  runId : RequiredText
  agentId : RequiredText
  rootRunId : RequiredText
  parentRunId : Option RequiredText
  previousRunId : Option RequiredText
  spawnBatchId : Option RequiredText
  objective : RequiredText
  createdSequence : Nat
  dependencyRunIds : List RequiredText
  deriving DecidableEq

/-- The fields of an Agent that no call changes. -/
structure AgentIdentity where
  agentId : RequiredText
  rootAgentId : RequiredText
  parentAgentId : Option RequiredText
  depth : Nat
  createdByRunId : RequiredText
  createdByCallId : RequiredText
  capabilityGrant : AgentCapabilityGrant
  deriving DecidableEq

namespace AgentTreeRun

/-- The fixed fields of a Run. -/
def identity (run : AgentTreeRun) : RunIdentity where
  runId := run.runId
  agentId := run.agentId
  rootRunId := run.rootRunId
  parentRunId := run.parentRunId
  previousRunId := run.previousRunId
  spawnBatchId := run.spawnBatchId
  objective := run.objective
  createdSequence := run.createdSequence
  dependencyRunIds := run.dependencyRunIds

variable {u v : AgentTreeRun}

theorem runId_of_identity (h : v.identity = u.identity) : v.runId = u.runId :=
  congrArg RunIdentity.runId h

theorem agentId_of_identity (h : v.identity = u.identity) : v.agentId = u.agentId :=
  congrArg RunIdentity.agentId h

theorem rootRunId_of_identity (h : v.identity = u.identity) : v.rootRunId = u.rootRunId :=
  congrArg RunIdentity.rootRunId h

theorem parentRunId_of_identity (h : v.identity = u.identity) : v.parentRunId = u.parentRunId :=
  congrArg RunIdentity.parentRunId h

theorem dependencyRunIds_of_identity (h : v.identity = u.identity) :
    v.dependencyRunIds = u.dependencyRunIds :=
  congrArg RunIdentity.dependencyRunIds h

/-- A renewal moves the expiry and nothing else. -/
theorem renewed_eq_ok {expiry : Nat} (h : u.renewed expiry = .ok v) :
    v.identity = u.identity ∧ v.status = u.status ∧ v.leaseOwnerId = u.leaseOwnerId ∧
      v.leaseEpoch = u.leaseEpoch ∧ v.leaseExpiresAtMs = some expiry := by
  unfold renewed at h
  split at h
  · cases h
  · cases h
    exact ⟨rfl, rfl, rfl, rfl, rfl⟩

/-- A completion ends the Run and gives its lease back. -/
theorem completed_eq_ok {result : Json} (h : u.completed result = .ok v) :
    v.identity = u.identity ∧ v.status = .done ∧ v.leaseOwnerId = none ∧
      v.leaseEpoch = u.leaseEpoch := by
  unfold completed at h
  split at h
  · cases h
    exact ⟨rfl, rfl, rfl, rfl⟩
  · cases h

end AgentTreeRun

/-- The fixed fields of an Agent. -/
def AgentNode.identity (agent : AgentNode) : AgentIdentity where
  agentId := agent.agentId
  rootAgentId := agent.rootAgentId
  parentAgentId := agent.parentAgentId
  depth := agent.depth
  createdByRunId := agent.createdByRunId
  createdByCallId := agent.createdByCallId
  capabilityGrant := agent.capabilityGrant

/-! ## Every id names a record -/

/-- Runs are stored under their id, up to whitespace around the key; Agents under theirs.  Every id
a record holds is the key of a record. -/
structure Wired (s : AgentTreeState) : Prop where
  run_key : ∀ {k r}, s.runs.get? k = some r → strip k = r.runId.text
  agent_key : ∀ {k a}, s.agents.get? k = some a → k = a.agentId.text
  run : ∀ {k r}, s.runs.get? k = some r → r.runId.text ∈ s.runs.keys
  agent : ∀ {k r}, s.runs.get? k = some r → r.agentId.text ∈ s.agents.keys
  root : ∀ {k r}, s.runs.get? k = some r → r.rootRunId.text ∈ s.runs.keys
  parent : ∀ {k r p}, s.runs.get? k = some r → r.parentRunId = some p → p.text ∈ s.runs.keys
  dependency : ∀ {k r d}, s.runs.get? k = some r → d ∈ r.dependencyRunIds →
    d.text ∈ s.runs.keys
  rootAgent : ∀ {k a}, s.agents.get? k = some a → a.rootAgentId.text ∈ s.agents.keys
  parentAgent : ∀ {k a p}, s.agents.get? k = some a → a.parentAgentId = some p →
    p.text ∈ s.agents.keys

namespace Wired

variable {s s' : AgentTreeState} (h : Wired s)
include h

/-- What `_require_run` returns is stored under its own id. -/
theorem requireRun_eq_ok {id : String} {r : AgentTreeRun} (hr : s.requireRun id = .ok r) :
    s.runs.get? r.runId.text = some r ∧ strip id = r.runId.text := by
  have hget := AgentTreeState.requireRun_eq_ok hr
  have hkey : strip id = r.runId.text := by
    rw [← strip_strip]
    exact h.run_key hget
  exact ⟨hkey ▸ hget, hkey⟩

theorem requireActiveAgent_eq_ok {id : String} {a : AgentNode}
    (ha : s.requireActiveAgent id = .ok a) :
    s.agents.get? a.agentId.text = some a ∧ strip id = a.agentId.text ∧ a.state = .active := by
  obtain ⟨hagent, hstate⟩ := AgentTreeState.requireActiveAgent_eq_ok ha
  have hget := AgentTreeState.requireAgent_eq_ok hagent
  have hkey := h.agent_key hget
  exact ⟨hkey ▸ hget, hkey, hstate⟩

/-- Storing a record with the fixed fields of one that is there keeps every id in place. -/
theorem putRun {k key : String} {u v : AgentTreeRun} (hu : s.runs.get? k = some u)
    (hid : v.identity = u.identity) (hkey : strip key = u.runId.text) :
    Wired (s.putRun key v) := by
  have hkeys : ∀ x ∈ s.runs.keys, x ∈ (s.putRun key v).runs.keys := by
    intro x hx
    obtain ⟨w, hw⟩ := Dict.mem_keys_iff.1 hx
    rw [Dict.mem_keys_iff]
    simp only [AgentTreeState.putRun, Dict.get?_set]
    split
    · exact ⟨v, rfl⟩
    · exact ⟨w, hw⟩
  have hrec : ∀ {x r}, (s.putRun key v).runs.get? x = some r →
      strip x = r.runId.text ∧ ∃ k₀ r₀, s.runs.get? k₀ = some r₀ ∧ r.identity = r₀.identity := by
    intro x r hr
    simp only [AgentTreeState.putRun, Dict.get?_set] at hr
    split at hr
    · rename_i hx
      cases hr
      rw [hx, hkey, AgentTreeRun.runId_of_identity hid]
      exact ⟨rfl, k, u, hu, hid⟩
    · exact ⟨h.run_key hr, x, r, hr, rfl⟩
  refine {
    run_key := fun hr => (hrec hr).1
    agent_key := h.agent_key
    rootAgent := h.rootAgent
    parentAgent := h.parentAgent
    run := fun hr => ?_
    agent := fun hr => ?_
    root := fun hr => ?_
    parent := fun hr hp => ?_
    dependency := fun hr hd => ?_ }
  all_goals obtain ⟨-, k₀, r₀, hr₀, hid₀⟩ := hrec hr
  · rw [AgentTreeRun.runId_of_identity hid₀]
    exact hkeys _ (h.run hr₀)
  · rw [AgentTreeRun.agentId_of_identity hid₀]
    exact h.agent hr₀
  · rw [AgentTreeRun.rootRunId_of_identity hid₀]
    exact hkeys _ (h.root hr₀)
  · rw [AgentTreeRun.parentRunId_of_identity hid₀] at hp
    exact hkeys _ (h.parent hr₀ hp)
  · rw [AgentTreeRun.dependencyRunIds_of_identity hid₀] at hd
    exact hkeys _ (h.dependency hr₀ hd)

/-- Storing an Agent with the fixed fields of the one that is there keeps every id in place. -/
theorem putAgent {a b : AgentNode} {s' : AgentTreeState} (ha : s.agents.get? a.agentId.text = some a)
    (hid : b.identity = a.identity) (hruns : s'.runs = s.runs)
    (hagents : s'.agents = s.agents.set b.agentId.text b) : Wired s' := by
  have hba : b.agentId = a.agentId := congrArg AgentIdentity.agentId hid
  have hkeys : s'.agents.keys = s.agents.keys := by
    rw [hagents, hba]
    exact Dict.keys_set_of_mem (Dict.mem_keys_iff.2 ⟨a, ha⟩)
  have hrec : ∀ {x c}, s'.agents.get? x = some c → ∃ c₀, s.agents.get? x = some c₀ ∧
      c.identity = c₀.identity := by
    intro x c hc
    rw [hagents, Dict.get?_set, hba] at hc
    split at hc
    · rename_i hx
      cases hc
      exact ⟨a, hx ▸ ha, hid⟩
    · exact ⟨c, hc, rfl⟩
  refine {
    run_key := by rw [hruns]; exact h.run_key
    run := by rw [hruns]; exact h.run
    agent := by rw [hruns, hkeys]; exact h.agent
    root := by rw [hruns]; exact h.root
    parent := by rw [hruns]; exact h.parent
    dependency := by rw [hruns]; exact h.dependency
    agent_key := fun hc => ?_
    rootAgent := fun hc => ?_
    parentAgent := fun hc hp => ?_ }
  all_goals obtain ⟨c₀, hc₀, hidc⟩ := hrec hc
  · exact (h.agent_key hc₀).trans (congrArg (·.agentId.text) hidc).symm
  · have hroot := congrArg AgentIdentity.rootAgentId hidc
    rw [hkeys]
    exact (congrArg RequiredText.text hroot) ▸ h.rootAgent hc₀
  · have hparent := congrArg AgentIdentity.parentAgentId hidc
    rw [hkeys]
    exact h.parentAgent hc₀ (hparent.symm.trans hp)

end Wired

/-! ## Cancellations -/

namespace RunTree

theorem cancelDescendant_cases (parent : RequiredText) (s : AgentTreeState) (key : String) :
    cancelDescendant parent s key = s ∨ ∃ item, s.runs.get? key = some item ∧
      item.status.active = true ∧ s.isCausalDescendant parent item.runId = .ok true ∧
        cancelDescendant parent s key =
          s.putRun item.runId.text (item.canceledWith ancestorRunFailed) := by
  unfold cancelDescendant
  cases hitem : s.runs.get? key with
  | none => exact Or.inl rfl
  | some item =>
    simp only
    split
    · rename_i hcancel
      exact Or.inr ⟨item, rfl, hcancel.1, hcancel.2, rfl⟩
    · exact Or.inl rfl

theorem cancelOrdered_cases (s : AgentTreeState) (current : RequiredText) :
    cancelOrdered s current = s ∨ ∃ run, s.runs.get? current.text = some run ∧
      run.status.active = true ∧
        cancelOrdered s current = s.putRun current.text (run.canceledWith agentRunCanceled) := by
  unfold cancelOrdered
  cases hrun : s.runs.get? current.text with
  | none => exact Or.inl rfl
  | some run =>
    simp only
    split
    · rename_i hactive
      exact Or.inr ⟨run, rfl, hactive, rfl⟩
    · exact Or.inl rfl

/-- What storing a canceled copy of a Run under the Run's id keeps, the loop of `fail_run`
keeps. -/
theorem foldl_cancelDescendant {P : AgentTreeState → Prop} (parent : RequiredText)
    (hput : ∀ s k item, P s → s.runs.get? k = some item → item.status.active = true →
      P (s.putRun item.runId.text (item.canceledWith ancestorRunFailed)))
    {s : AgentTreeState} (keys : List String) (hs : P s) :
    P (keys.foldl (cancelDescendant parent) s) := by
  refine List.foldlRecOn keys _ hs fun s hs key _ => ?_
  rcases cancelDescendant_cases parent s key with heq | ⟨item, hitem, hactive, -, heq⟩
  · rw [heq]
    exact hs
  · rw [heq]
    exact hput s key item hs hitem hactive

/-- What storing a canceled copy of a Run in its place keeps, the loop of `cancel_subtree`
keeps. -/
theorem foldl_cancelOrdered {P : AgentTreeState → Prop}
    (hput : ∀ s (current : RequiredText) run, P s → s.runs.get? current.text = some run →
      run.status.active = true → P (s.putRun current.text (run.canceledWith agentRunCanceled)))
    {s : AgentTreeState} (ordered : List RequiredText) (hs : P s) :
    P (ordered.foldl cancelOrdered s) := by
  refine List.foldlRecOn ordered _ hs fun s hs current _ => ?_
  rcases cancelOrdered_cases s current with heq | ⟨run, hrun, hactive, heq⟩
  · rw [heq]
    exact hs
  · rw [heq]
    exact hput s current run hs hrun hactive

end RunTree

/-! ## Admission -/

/-- The Agent of an admitted item: one that was there and idle, a new root, or a new child of
`parent`. -/
inductive AgentOrigin (s s' : AgentTreeState) (item : SpawnedAgent) : Prop
  | known (agent : AgentNode) (hget : s.agents.get? agent.agentId.text = some agent)
      (hnext : item.agent = { agent with latestRunId := some item.run.runId })
      (hprevious : item.run.previousRunId = agent.latestRunId)
      (hidle : s.hasActiveRun agent.agentId = false)
  | root (hget : s.agents.get? item.agent.agentId.text = none)
      (hparent : item.agent.parentAgentId = none)
      (hroot : item.agent.rootAgentId = item.agent.agentId)
      (hdepth : item.agent.depth = 0) (hprevious : item.run.previousRunId = none)
  | child (parent : AgentNode) (n : Nat) (hn : s.agentSequence < n) (hle : n ≤ s'.agentSequence)
      (hid : item.agent.agentId = generatedAgentId n)
      (hget : s.agents.get? parent.agentId.text = some parent)
      (hparent : item.agent.parentAgentId = some parent.agentId)
      (hroot : item.agent.rootAgentId = parent.rootAgentId)
      (hdepth : item.agent.depth = parent.depth + 1)
      (hroom : parent.depth < parent.capabilityGrant.maxDepth)
      (hgrant : item.agent.capabilityGrant.Narrows parent.capabilityGrant)
      (hprevious : item.run.previousRunId = none)

/-- The place of an admitted Run: a new root that runs, or a queued Run under a live one of the
same root. -/
inductive RunPlace (s s' : AgentTreeState) (run : AgentTreeRun) : Prop
  | root (hnew : s.runs.get? run.runId.text = none) (hparent : run.parentRunId = none)
      (hroot : run.rootRunId = run.runId) (hstatus : run.status = .running)
  | child (parent : AgentTreeRun) (n : Nat) (hn : s.runSequence < n) (hle : n ≤ s'.runSequence)
      (hid : run.runId = generatedRunId n) (hget : s.runs.get? parent.runId.text = some parent)
      (hlive : parent.status.live = true) (hparent : run.parentRunId = some parent.runId)
      (hroot : run.rootRunId = parent.rootRunId) (hstatus : run.status = .queued)

/-- One Agent gets its next Run. -/
structure Admitted (s s' : AgentTreeState) (items : List SpawnedAgent) (item : SpawnedAgent) :
    Prop where
  agentId : item.run.agentId = item.agent.agentId
  latest : item.agent.latestRunId = some item.run.runId
  state : item.agent.state = .active
  created : s.sequence < item.run.createdSequence
  counted : item.run.createdSequence ≤ s'.sequence
  unleased : item.run.leaseOwnerId = none
  epoch : item.run.leaseEpoch = 0
  origin : AgentOrigin s s' item
  place : RunPlace s s' item.run
  crown : item.run.parentRunId = none → item.agent.parentAgentId = none
  scope : ∀ p, item.run.parentRunId = some p → ∃ parent agent, s.runs.get? p.text = some parent ∧
    s.agents.get? parent.agentId.text = some agent ∧ item.agent.rootAgentId = agent.rootAgentId
  dependency : ∀ d ∈ item.run.dependencyRunIds, ∃ sibling ∈ items, sibling.run.runId = d ∧
    item.run.parentRunId.isSome = true ∧ sibling.run.parentRunId = item.run.parentRunId ∧
      item.run.spawnBatchId.isSome = true ∧ sibling.run.spawnBatchId = item.run.spawnBatchId

/-- Some Agents get their next Run. -/
structure Admission (s s' : AgentTreeState) (items : List SpawnedAgent) : Prop where
  runs : s'.runs = s.runs.extend (items.map fun item => (item.run.runId.text, item.run))
  agents : s'.agents = s.agents.extend (items.map fun item => (item.agent.agentId.text, item.agent))
  run_le : s.runSequence ≤ s'.runSequence
  agent_le : s.agentSequence ≤ s'.agentSequence
  sequence_le : s.sequence ≤ s'.sequence
  runs_nodup : (items.map (·.run.runId)).Nodup
  agents_nodup : (items.map (·.agent.agentId)).Nodup
  admitted : ∀ item ∈ items, Admitted s s' items item
  acyclic : Topology.Acyclic (items.map fun item => (item.run.runId, item.run.dependencyRunIds))

section

variable {digest : Json → String} {clock : Nat → Nat} {s s' : AgentTreeState}

theorem rootAgent_eq_ok {command : BeginRootAgentCommand} {agent : AgentNode}
    (h : rootAgent s command = .ok agent) :
    (s.agents.get? command.agentId.text = none ∧ agent = newRootAgent command) ∨
      (s.agents.get? command.agentId.text = some agent ∧ agent.parentAgentId = none ∧
        agent.state = .active ∧ s.hasActiveRun agent.agentId = false) := by
  unfold rootAgent at h
  cases hget : s.agents.get? command.agentId.text with
  | none =>
    simp only [hget] at h
    cases h
    exact Or.inl ⟨rfl, rfl⟩
  | some found =>
    simp only [hget, requireRebindable] at h
    split at h
    · cases h
    rename_i hscope
    split at h
    · cases h
    rename_i hbusy
    cases h
    simp only [ne_eq, not_or, Decidable.not_not] at hscope
    refine Or.inr ⟨rfl, hscope.1, ?_, Bool.eq_false_iff.2 hbusy⟩
    cases hstate : agent.state with
    | active => rfl
    | closed => exact absurd hstate hscope.2.1

/-- `begin_root` gives one Agent a root Run. -/
theorem admission_root (hs : Wired s) {command : BeginRootAgentCommand} {agent : AgentNode}
    (hnew : s.runs.get? command.runId.text = none) (hagent : rootAgent s command = .ok agent)
    (mark : String) :
    Admission s (putRoot s mark agent (rootRun command agent (s.sequence + 1)))
      [⟨{ agent with latestRunId := some command.runId },
        rootRun command agent (s.sequence + 1)⟩] where
  runs := rfl
  agents := rfl
  run_le := le_rfl
  agent_le := le_rfl
  sequence_le := Nat.le_succ _
  runs_nodup := List.nodup_singleton _
  agents_nodup := List.nodup_singleton _
  admitted := by
    intro item hitem
    rw [List.mem_singleton] at hitem
    subst hitem
    refine {
      agentId := rfl
      latest := rfl
      state := ?_
      created := Nat.lt_succ_self _
      counted := le_rfl
      unleased := rfl
      epoch := rfl
      origin := ?_
      place := .root hnew rfl rfl rfl
      crown := fun _ => ?_
      scope := nofun
      dependency := fun d hd => absurd hd List.not_mem_nil }
    · rcases rootAgent_eq_ok hagent with ⟨-, rfl⟩ | ⟨-, -, hopen, -⟩
      · rfl
      · exact hopen
    · rcases rootAgent_eq_ok hagent with ⟨hget, rfl⟩ | ⟨hget, -, -, hidle⟩
      · exact .root hget rfl rfl rfl rfl
      · exact .known agent (hs.agent_key hget ▸ hget) rfl rfl hidle
    · rcases rootAgent_eq_ok hagent with ⟨-, rfl⟩ | ⟨-, hparent, -, -⟩
      · rfl
      · exact hparent
  acyclic := by
    intro a ha
    obtain ⟨b, ⟨row, hrow, -, hb⟩, -⟩ := Relation.TransGen.head'_iff.1 ha
    rw [List.map_singleton, List.mem_singleton] at hrow
    subst hrow
    exact absurd hb List.not_mem_nil

/-- `continue_agent` gives an idle Agent its next Run. -/
theorem admission_continue (hs : Wired s) {command : ContinueAgentCommand}
    {requester : AgentTreeRun} {target requesterAgent : AgentNode}
    (hrun : s.requireActiveRun command.requesterRunId.text = .ok requester)
    (htarget : s.requireActiveAgent command.agentId.text = .ok target)
    (hrequester : s.requireActiveAgent requester.agentId.text = .ok requesterAgent)
    (hscope : requesterAgent.rootAgentId = target.rootAgentId)
    (hidle : s.hasActiveRun target.agentId = false) (key : RequiredText × RequiredText)
    (mark : String) (receipt : ContinueAgentReceipt) :
    Admission s
      (putContinued s key mark { target with latestRunId := some (generatedRunId (s.runSequence + 1)) }
        (continuedRun s command requester target) receipt)
      [⟨{ target with latestRunId := some (generatedRunId (s.runSequence + 1)) },
        continuedRun s command requester target⟩] where
  runs := rfl
  agents := rfl
  run_le := Nat.le_succ _
  agent_le := le_rfl
  sequence_le := Nat.le_succ _
  runs_nodup := List.nodup_singleton _
  agents_nodup := List.nodup_singleton _
  admitted := by
    intro item hitem
    rw [List.mem_singleton] at hitem
    subst hitem
    obtain ⟨hget, -, hopen⟩ := hs.requireActiveAgent_eq_ok htarget
    obtain ⟨hfound, hlive⟩ := AgentTreeState.requireActiveRun_eq_ok hrun
    have hstored := (hs.requireRun_eq_ok hfound).1
    obtain ⟨hagent, hkey, -⟩ := hs.requireActiveAgent_eq_ok hrequester
    rw [← hkey, requester.agentId.stripped] at hagent
    exact {
      agentId := rfl
      latest := rfl
      state := hopen
      created := Nat.lt_succ_self _
      counted := le_rfl
      unleased := rfl
      epoch := rfl
      origin := .known target hget rfl rfl hidle
      place := .child requester _ (Nat.lt_succ_self _) le_rfl rfl hstored hlive rfl rfl rfl
      crown := nofun
      scope := by
        rintro p ⟨⟩
        exact ⟨requester, requesterAgent, hstored, hagent, hscope.symm⟩
      dependency := fun d hd => absurd hd List.not_mem_nil }
  acyclic := by
    intro a ha
    obtain ⟨b, ⟨row, hrow, -, hb⟩, -⟩ := Relation.TransGen.head'_iff.1 ha
    rw [List.map_singleton, List.mem_singleton] at hrow
    subst hrow
    exact absurd hb List.not_mem_nil

/-! ### A spawn -/

section

variable {command : SpawnAgentsCommand} {parent : AgentNode} {parentRun : AgentTreeRun}
  {grants : List AgentCapabilityGrant}

theorem length_spawnedItems (hlen : grants.length = command.children.length) :
    (spawnedItems s command parent parentRun grants).length = command.children.length := by
  simp [spawnedItems, hlen]

/-- Each item of a spawn is made from the child and the grant at its index. -/
theorem mem_spawnedItems {item : SpawnedAgent}
    (h : item ∈ spawnedItems s command parent parentRun grants) :
    ∃ index spec hspec grant, command.children[index]? = some spec ∧
      grants[index]? = some grant ∧
        item = spawnedItem s command parent parentRun spec hspec grant index := by
  obtain ⟨index, hindex, rfl⟩ := List.mem_mapIdx.1 h
  have hlen : index < command.children.length ∧ index < grants.length := by simpa using hindex
  refine ⟨index, command.children[index], List.getElem_mem _, grants[index],
    List.getElem?_eq_getElem _, List.getElem?_eq_getElem _, ?_⟩
  simp [List.getElem_zip, List.getElem_attach]

theorem map_runId_spawnedItems :
    (spawnedItems s command parent parentRun grants).map (·.run.runId) =
      (List.range (spawnedItems s command parent parentRun grants).length).map
        fun i => generatedRunId (s.runSequence + i + 1) := by
  refine List.ext_getElem (by simp) fun i _ _ => ?_
  simp [spawnedItems, spawnedItem]

theorem map_agentId_spawnedItems :
    (spawnedItems s command parent parentRun grants).map (·.agent.agentId) =
      (List.range (spawnedItems s command parent parentRun grants).length).map
        fun i => generatedAgentId (s.agentSequence + i + 1) := by
  refine List.ext_getElem (by simp) fun i _ _ => ?_
  simp [spawnedItems, spawnedItem]

theorem nodup_numbered {word : String} {hword : ∀ c ∈ word.toList.head?, isSpace c = false}
    (start n : Nat) :
    ((List.range n).map fun i => RequiredText.numbered word hword (start + i + 1)).Nodup := by
  refine List.Nodup.map_on (fun x _ y _ heq => ?_) List.nodup_range
  have := RequiredText.numbered_inj.1 heq
  omega

/-- The child at an index is the one its name stands for. -/
theorem dependencyId_name {index : Nat} {spec : ChildAgentSpec}
    (hspec : command.children[index]? = some spec) (runSequence : Nat) :
    dependencyId command runSequence spec.name = generatedRunId (runSequence + index + 1) := by
  obtain ⟨hlt, rfl⟩ := List.getElem?_eq_some_iff.1 hspec
  have hname : index < (command.children.map (·.name)).length := by simpa using hlt
  have hidx := command.names_nodup.idxOf_getElem index hname
  rw [List.getElem_map] at hidx
  rw [dependencyId, hidx]

/-- The name a dependency id stands for. -/
def nameOf (command : SpawnAgentsCommand) (runSequence : Nat) (id : RequiredText) :
    RequiredText :=
  ((command.children.map (·.name)).find? fun name =>
    dependencyId command runSequence name = id).getD id

theorem nameOf_dependencyId {name : RequiredText} (hname : name ∈ command.children.map (·.name))
    (runSequence : Nat) :
    nameOf command runSequence (dependencyId command runSequence name) = name := by
  unfold nameOf
  cases hfind : (command.children.map (·.name)).find? fun x =>
      dependencyId command runSequence x = dependencyId command runSequence name with
  | none =>
    have := List.find?_eq_none.1 hfind name hname
    simp at this
  | some x =>
    have hx := List.find?_some hfind
    exact dependencyId_inj (List.mem_of_find?_eq_some hfind) (by simpa using hx)

/-- The dependencies among the Runs of a spawn are those among the names. -/
theorem spawned_acyclic :
    Topology.Acyclic ((spawnedItems s command parent parentRun grants).map fun item =>
      (item.run.runId, item.run.dependencyRunIds)) := by
  have hnames : Topology.Acyclic (dependencyTable command.children) :=
    Topology.acyclic_iff.1 command.dependencies_acyclic
  intro a ha
  refine hnames _ (Relation.TransGen.lift (nameOf command s.runSequence) ?_ a a ha)
  rintro x y ⟨row, hrow, rfl, hy⟩
  obtain ⟨item, hitem, rfl⟩ := List.mem_map.1 hrow
  obtain ⟨index, spec, hspec, grant, hget, -, rfl⟩ := mem_spawnedItems hitem
  obtain ⟨name, hname, rfl⟩ := List.mem_map.1 hy
  have hself : nameOf command s.runSequence (generatedRunId (s.runSequence + index + 1)) =
      spec.name := by
    rw [← dependencyId_name hget]
    exact nameOf_dependencyId (List.mem_map_of_mem hspec) _
  have hdep : nameOf command s.runSequence (dependencyId command s.runSequence name) = name :=
    nameOf_dependencyId (command.dependencies_known spec hspec hname) _
  exact ⟨(spec.name, spec.dependsOn), List.mem_map.2 ⟨spec, hspec, rfl⟩, hself.symm,
    hdep.symm ▸ hname⟩

/-- `spawn_agents` gives each child of the command a new Agent and its first Run. -/
theorem admission_spawn (hs : Wired s)
    (hrun : s.requireActiveRun command.parentRunId.text = .ok parentRun)
    (hparent : s.requireActiveAgent parentRun.agentId.text = .ok parent)
    (hdepth : parent.depth < parent.capabilityGrant.maxDepth)
    (hgrants : (command.children.mapM fun spec =>
      parent.capabilityGrant.authorizeChild spec.capabilityGrant) = .ok grants)
    (key : RequiredText × RequiredText) (mark : String) (receipt : SpawnAgentsReceipt) :
    Admission s (putSpawned s key mark (spawnedItems s command parent parentRun grants) receipt)
      (spawnedItems s command parent parentRun grants) where
  runs := rfl
  agents := rfl
  run_le := Nat.le_add_right _ _
  agent_le := Nat.le_add_right _ _
  sequence_le := Nat.le_add_right _ _
  runs_nodup := by
    rw [map_runId_spawnedItems]
    exact nodup_numbered _ _
  agents_nodup := by
    rw [map_agentId_spawnedItems]
    exact nodup_numbered _ _
  admitted := by
    intro item hitem
    have hgranted := mapM_eq_ok hgrants
    have hlen : (spawnedItems s command parent parentRun grants).length =
        command.children.length := length_spawnedItems hgranted.length_eq.symm
    obtain ⟨index, spec, hspec, grant, hget, hgrant, rfl⟩ := mem_spawnedItems hitem
    have hindex : index < command.children.length := (List.getElem?_eq_some_iff.1 hget).1
    have hnarrow : grant.Narrows parent.capabilityGrant := by
      obtain ⟨hi, rfl⟩ := List.getElem?_eq_some_iff.1 hget
      obtain ⟨hi', rfl⟩ := List.getElem?_eq_some_iff.1 hgrant
      have := List.forall₂_iff_get.1 hgranted
      exact (AgentCapabilityGrant.authorizeChild_eq_ok (this.2 index hi hi')).2
    obtain ⟨hlive, hstatus⟩ := AgentTreeState.requireActiveRun_eq_ok hrun
    have hstored := (hs.requireRun_eq_ok hlive).1
    obtain ⟨hagent, hkey, -⟩ := hs.requireActiveAgent_eq_ok hparent
    have hnamed := hagent
    rw [← hkey, parentRun.agentId.stripped] at hnamed
    exact {
      agentId := rfl
      latest := rfl
      state := rfl
      created := by
        show s.sequence < s.sequence + index + 1
        omega
      counted := by
        show s.sequence + index + 1 ≤ s.sequence + _
        omega
      unleased := rfl
      epoch := rfl
      origin := .child parent (s.agentSequence + index + 1) (by omega)
        (by
          show s.agentSequence + index + 1 ≤ s.agentSequence + _
          omega)
        rfl hagent rfl rfl rfl hdepth hnarrow rfl
      place := .child parentRun (s.runSequence + index + 1) (by omega)
        (by
          show s.runSequence + index + 1 ≤ s.runSequence + _
          omega)
        rfl hstored hstatus rfl rfl rfl
      crown := nofun
      scope := by
        rintro p ⟨⟩
        exact ⟨parentRun, parent, hstored, hnamed, rfl⟩
      dependency := by
        intro d hd
        obtain ⟨name, hname, rfl⟩ := List.mem_map.1 hd
        have hknown := command.dependencies_known spec hspec hname
        have hlt : (command.children.map (·.name)).idxOf name <
            (spawnedItems s command parent parentRun grants).length := by
          have := List.idxOf_lt_length_iff.2 hknown
          rw [List.length_map] at this
          omega
        refine ⟨(spawnedItems s command parent parentRun grants)[
          (command.children.map (·.name)).idxOf name], List.getElem_mem hlt, ?_⟩
        simp [spawnedItems, spawnedItem, dependencyId] }
  acyclic := spawned_acyclic

end

/-! ## Looking up after an admission -/

namespace Admission

variable {items : List SpawnedAgent} (h : Admission s s' items)
include h

theorem run_keys_nodup :
    ((items.map fun item => (item.run.runId.text, item.run)).map Prod.fst).Nodup := by
  have := h.runs_nodup.map (f := RequiredText.text) fun _ _ => RequiredText.ext
  simpa [List.map_map, Function.comp_def] using this

theorem agent_keys_nodup :
    ((items.map fun item => (item.agent.agentId.text, item.agent)).map Prod.fst).Nodup := by
  have := h.agents_nodup.map (f := RequiredText.text) fun _ _ => RequiredText.ext
  simpa [List.map_map, Function.comp_def] using this

theorem get?_run_cases {k : String} {r : AgentTreeRun} (hr : s'.runs.get? k = some r) :
    (∃ item ∈ items, item.run.runId.text = k ∧ item.run = r) ∨ s.runs.get? k = some r := by
  rw [h.runs, Dict.get?_extend_eq_some h.run_keys_nodup] at hr
  rcases hr with hr | ⟨-, hr⟩
  · obtain ⟨item, hitem, heq⟩ := List.mem_map.1 hr
    cases heq
    exact Or.inl ⟨item, hitem, rfl, rfl⟩
  · exact Or.inr hr

theorem get?_run_item {item : SpawnedAgent} (hitem : item ∈ items) :
    s'.runs.get? item.run.runId.text = some item.run := by
  rw [h.runs]
  exact Dict.get?_extend_of_mem h.run_keys_nodup (List.mem_map.2 ⟨item, hitem, rfl⟩)

theorem get?_agent_cases {k : String} {a : AgentNode} (ha : s'.agents.get? k = some a) :
    (∃ item ∈ items, item.agent.agentId.text = k ∧ item.agent = a) ∨
      ((∀ item ∈ items, item.agent.agentId.text ≠ k) ∧ s.agents.get? k = some a) := by
  rw [h.agents, Dict.get?_extend_eq_some h.agent_keys_nodup] at ha
  rcases ha with ha | ⟨hnot, ha⟩
  · obtain ⟨item, hitem, heq⟩ := List.mem_map.1 ha
    cases heq
    exact Or.inl ⟨item, hitem, rfl, rfl⟩
  · refine Or.inr ⟨fun item hitem he => hnot ?_, ha⟩
    rw [List.map_map]
    exact List.mem_map.2 ⟨item, hitem, he⟩

theorem get?_agent_item {item : SpawnedAgent} (hitem : item ∈ items) :
    s'.agents.get? item.agent.agentId.text = some item.agent := by
  rw [h.agents]
  exact Dict.get?_extend_of_mem h.agent_keys_nodup (List.mem_map.2 ⟨item, hitem, rfl⟩)

theorem run_keys_subset {k : String} (hk : k ∈ s.runs.keys) : k ∈ s'.runs.keys := by
  by_cases hitem : k ∈ (items.map fun item => (item.run.runId.text, item.run)).map Prod.fst
  · rw [List.map_map] at hitem
    obtain ⟨item, hmem, rfl⟩ := List.mem_map.1 hitem
    exact Dict.mem_keys_iff.2 ⟨item.run, h.get?_run_item hmem⟩
  · obtain ⟨r, hr⟩ := Dict.mem_keys_iff.1 hk
    rw [Dict.mem_keys_iff, h.runs, Dict.get?_extend_of_not_mem hitem]
    exact ⟨r, hr⟩

theorem agent_keys_subset {k : String} (hk : k ∈ s.agents.keys) : k ∈ s'.agents.keys := by
  by_cases hitem : k ∈ (items.map fun item => (item.agent.agentId.text, item.agent)).map Prod.fst
  · rw [List.map_map] at hitem
    obtain ⟨item, hmem, rfl⟩ := List.mem_map.1 hitem
    exact Dict.mem_keys_iff.2 ⟨item.agent, h.get?_agent_item hmem⟩
  · obtain ⟨a, ha⟩ := Dict.mem_keys_iff.1 hk
    rw [Dict.mem_keys_iff, h.agents, Dict.get?_extend_of_not_mem hitem]
    exact ⟨a, ha⟩

/-- An admission names only records that are there or that it creates. -/
theorem wired (hs : Wired s) : Wired s' where
  run_key := by
    intro k r hr
    rcases h.get?_run_cases hr with ⟨item, -, rfl, rfl⟩ | hr
    · exact item.run.runId.stripped
    · exact hs.run_key hr
  agent_key := by
    intro k a ha
    rcases h.get?_agent_cases ha with ⟨item, -, rfl, rfl⟩ | ⟨-, ha⟩
    · rfl
    · exact hs.agent_key ha
  run := by
    intro k r hr
    rcases h.get?_run_cases hr with ⟨item, hitem, rfl, rfl⟩ | hr
    · exact Dict.mem_keys_iff.2 ⟨item.run, h.get?_run_item hitem⟩
    · exact h.run_keys_subset (hs.run hr)
  agent := by
    intro k r hr
    rcases h.get?_run_cases hr with ⟨item, hitem, rfl, rfl⟩ | hr
    · rw [(h.admitted item hitem).agentId]
      exact Dict.mem_keys_iff.2 ⟨item.agent, h.get?_agent_item hitem⟩
    · exact h.agent_keys_subset (hs.agent hr)
  root := by
    intro k r hr
    rcases h.get?_run_cases hr with ⟨item, hitem, rfl, rfl⟩ | hr
    · cases (h.admitted item hitem).place with
      | root _ _ hroot =>
        rw [hroot]
        exact Dict.mem_keys_iff.2 ⟨item.run, h.get?_run_item hitem⟩
      | child _ _ _ _ _ hget _ _ hroot =>
        rw [hroot]
        exact h.run_keys_subset (hs.root hget)
    · exact h.run_keys_subset (hs.root hr)
  parent := by
    intro k r p hr hp
    rcases h.get?_run_cases hr with ⟨item, hitem, rfl, rfl⟩ | hr
    · cases (h.admitted item hitem).place with
      | root _ hparent =>
        rw [hparent] at hp
        cases hp
      | child parent _ _ _ _ hget _ hparent =>
        rw [hparent] at hp
        cases hp
        exact h.run_keys_subset (Dict.mem_keys_iff.2 ⟨parent, hget⟩)
    · exact h.run_keys_subset (hs.parent hr hp)
  dependency := by
    intro k r d hr hd
    rcases h.get?_run_cases hr with ⟨item, hitem, rfl, rfl⟩ | hr
    · obtain ⟨sibling, hsibling, rfl, -⟩ := (h.admitted item hitem).dependency d hd
      exact Dict.mem_keys_iff.2 ⟨sibling.run, h.get?_run_item hsibling⟩
    · exact h.run_keys_subset (hs.dependency hr hd)
  rootAgent := by
    intro k a ha
    rcases h.get?_agent_cases ha with ⟨item, hitem, rfl, rfl⟩ | ⟨-, ha⟩
    · cases (h.admitted item hitem).origin with
      | known agent hget hnext =>
        have hroot : item.agent.rootAgentId = agent.rootAgentId := by rw [hnext]
        rw [hroot]
        exact h.agent_keys_subset (hs.rootAgent hget)
      | root _ _ hroot =>
        rw [hroot]
        exact Dict.mem_keys_iff.2 ⟨item.agent, h.get?_agent_item hitem⟩
      | child _ _ _ _ _ hget _ hroot =>
        rw [hroot]
        exact h.agent_keys_subset (hs.rootAgent hget)
    · exact h.agent_keys_subset (hs.rootAgent ha)
  parentAgent := by
    intro k a p ha hp
    rcases h.get?_agent_cases ha with ⟨item, hitem, rfl, rfl⟩ | ⟨-, ha⟩
    · cases (h.admitted item hitem).origin with
      | known agent hget hnext =>
        have hparent : item.agent.parentAgentId = agent.parentAgentId := by rw [hnext]
        exact h.agent_keys_subset (hs.parentAgent hget (hparent.symm.trans hp))
      | root _ hparent =>
        rw [hparent] at hp
        cases hp
      | child parent _ _ _ _ hget hparent =>
        rw [hparent] at hp
        cases hp
        exact h.agent_keys_subset (Dict.mem_keys_iff.2 ⟨parent, hget⟩)
    · exact h.agent_keys_subset (hs.parentAgent ha hp)

end Admission

/-! ## Every reachable state is wired -/

theorem wired_change (hs : Wired s) {op : TreeOp} (h : Change digest clock s op s') : Wired s' := by
  cases h with
  | root _ _ hnew hagent => exact (admission_root hs hnew hagent _).wired hs
  | spawn hrun _ hparent hdepth _ hgrants =>
    exact (admission_spawn hs hrun hparent hdepth hgrants _ _ _).wired hs
  | «continue» hrun _ htarget hrequester hscope _ hidle =>
    exact (admission_continue hs hrun htarget hrequester hscope hidle _ _ _).wired hs
  | @claim _ _ _ _ _ run _ _ _ _ hrun =>
    exact hs.putRun (hs.requireRun_eq_ok hrun).1 rfl run.runId.stripped
  | suspend _ _ hrun =>
    obtain ⟨hget, hkey⟩ := hs.requireRun_eq_ok hrun
    exact hs.putRun hget rfl hkey
  | renew run _ _ _ hrun _ hrenewed =>
    have hrun' := (AgentTreeState.requireActiveRun_eq_ok hrun).1
    exact hs.putRun (hs.requireRun_eq_ok hrun').1 (AgentTreeRun.renewed_eq_ok hrenewed).1
      run.runId.stripped
  | wait run hrun =>
    exact hs.putRun (hs.requireRun_eq_ok hrun).1 rfl run.runId.stripped
  | release run hrun =>
    exact hs.putRun (hs.requireRun_eq_ok hrun).1 rfl run.runId.stripped
  | number => exact { hs with }
  | complete run completed agent checkpoint hrun _ _ _ hagent hcompleted =>
    have hdone := AgentTreeRun.completed_eq_ok hcompleted
    have hid : completed.runId = run.runId := AgentTreeRun.runId_of_identity hdone.1
    have hput : Wired (s.putRun completed.runId.text completed) :=
      hs.putRun (hs.requireRun_eq_ok hrun).1 hdone.1 (hid ▸ completed.runId.stripped)
    refine hput.putAgent (a := agent) (b := { agent with
      contextVersion := checkpoint.version
      contextCheckpointId := some checkpoint.checkpointId }) ?_ rfl rfl rfl
    exact (hs.requireActiveAgent_eq_ok hagent).1
  | fail _ run hrun =>
    refine foldl_cancelDescendant _ (fun s k item hs hitem _ => ?_) _ ?_
    · exact hs.putRun hitem rfl item.runId.stripped
    · exact hs.putRun (hs.requireRun_eq_ok hrun).1 rfl run.runId.stripped
  | cancel =>
    refine foldl_cancelOrdered (fun s current run hs hget _ => ?_) _ hs
    exact hs.putRun hget rfl (hs.run_key hget)
  | close agent hagent =>
    exact hs.putAgent (a := agent) (b := { agent with state := .closed })
      (hs.requireActiveAgent_eq_ok hagent).1 rfl rfl rfl

theorem wired_step (event : (Nat → Nat) × TreeOp) (hs : Wired s) :
    Wired (s.step digest event) := by
  rcases change_of_step digest s event with h | h
  · rw [h]
    exact hs
  · exact wired_change hs h

theorem wired_initial (n : Nat) : Wired (AgentTreeState.initial n) where
  run_key := nofun
  agent_key := nofun
  run := nofun
  agent := nofun
  root := nofun
  parent := nofun
  dependency := nofun
  rootAgent := nofun
  parentAgent := nofun

theorem wired_exec (n : Nat) (run : List ((Nat → Nat) × TreeOp)) :
    Wired (exec (AgentTreeState.step digest) (AgentTreeState.initial n) run) :=
  exec_induction_of_all (fun _ event hs => wired_step event hs) run (wired_initial n)

end

end Purra
