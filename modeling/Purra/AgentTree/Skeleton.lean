import Purra.AgentTree.Identity

/-!
# The skeleton of the tree

What the records are created with makes a skeleton that calls add to and never bend: each id names
one Run, each Agent has the root of its parent, and a grant is handed down at most as it is.  A call
that is no admission adds nothing to it (`Updates`), however it moves statuses and leases and under
whatever key it stores them, so its laws are kept by every call.

* `HasRun`, `HasAgent` — the fixed fields of some record.
* `Skeleton` — the laws; `framed_change` — **every call keeps them** while the host's names stay
  apart from the repository's.
-/

namespace Purra

open Purra.Action RunTree

namespace AgentTreeState

/-- Some record of a Run has these fixed fields. -/
def HasRun (s : AgentTreeState) (i : RunIdentity) : Prop :=
  ∃ k r, s.runs.get? k = some r ∧ r.identity = i

/-- Some record of an Agent has these fixed fields. -/
def HasAgent (s : AgentTreeState) (a : AgentIdentity) : Prop :=
  ∃ k n, s.agents.get? k = some n ∧ n.identity = a

theorem hasRun_of_get? {s : AgentTreeState} {k : String} {r : AgentTreeRun}
    (h : s.runs.get? k = some r) : s.HasRun r.identity := ⟨k, r, h, rfl⟩

theorem hasAgent_of_get? {s : AgentTreeState} {k : String} {n : AgentNode}
    (h : s.agents.get? k = some n) : s.HasAgent n.identity := ⟨k, n, h, rfl⟩

end AgentTreeState

/-! ## Calls that add nothing -/

/-- Every record afterwards has the fixed fields of one before. -/
structure Updates (s s' : AgentTreeState) : Prop where
  run : ∀ {i}, s'.HasRun i → s.HasRun i
  agent : ∀ {a}, s'.HasAgent a → s.HasAgent a
  sequence : s.sequence ≤ s'.sequence

section

variable {digest : Json → String} {clock : Nat → Nat} {s s' : AgentTreeState}

theorem Updates.refl (s : AgentTreeState) : Updates s s := ⟨id, id, le_rfl⟩

theorem Updates.trans {s'' : AgentTreeState} (h : Updates s s') (h' : Updates s' s'') :
    Updates s s'' :=
  ⟨fun hi => h.run (h'.run hi), fun ha => h.agent (h'.agent ha), h.sequence.trans h'.sequence⟩

theorem Updates.putRun {k key : String} {u v : AgentTreeRun} (hu : s.runs.get? k = some u)
    (hid : v.identity = u.identity) : Updates s (s.putRun key v) where
  run := by
    rintro i ⟨x, r, hr, rfl⟩
    simp only [AgentTreeState.putRun, Dict.get?_set] at hr
    split at hr
    · cases hr
      exact ⟨k, u, hu, hid.symm⟩
    · exact ⟨x, r, hr, rfl⟩
  agent := id
  sequence := le_rfl

theorem Updates.putAgent {k key : String} {a b : AgentNode} (ha : s.agents.get? k = some a)
    (hid : b.identity = a.identity) (hruns : s'.runs = s.runs)
    (hagents : s'.agents = s.agents.set key b) (hsequence : s'.sequence = s.sequence) :
    Updates s s' where
  run := by
    rintro i ⟨x, r, hr, rfl⟩
    exact ⟨x, r, hruns ▸ hr, rfl⟩
  agent := by
    rintro c ⟨x, n, hn, rfl⟩
    rw [hagents, Dict.get?_set] at hn
    split at hn
    · cases hn
      exact ⟨k, a, ha, hid.symm⟩
    · exact ⟨x, n, hn, rfl⟩
  sequence := hsequence.ge

/-- The calls that create Runs. -/
def TreeOp.admits : TreeOp → Bool
  | .beginRoot _ | .spawnAgents _ | .continueAgent _ => true
  | .claimRun .. | .suspendRun .. | .renewRunLease .. | .markWaiting .. | .releaseWaiting ..
  | .completeRun .. | .failRun .. | .cancelSubtree _ | .closeAgent _ => false

/-- A call that creates no Run adds nothing. -/
theorem updates_change (hs : Wired s) {op : TreeOp} (hop : op.admits = false)
    (h : Change digest clock s op s') : Updates s s' := by
  cases h with
  | root | spawn | «continue» => cases hop
  | claim _ _ hrun =>
    exact Updates.putRun (hs.requireRun_eq_ok hrun).1 rfl
  | suspend _ _ hrun =>
    exact Updates.putRun (hs.requireRun_eq_ok hrun).1 rfl
  | renew _ _ _ _ hrun _ hrenewed =>
    have hrun := (AgentTreeState.requireActiveRun_eq_ok hrun).1
    exact Updates.putRun (hs.requireRun_eq_ok hrun).1 (AgentTreeRun.renewed_eq_ok hrenewed).1
  | wait _ hrun =>
    exact Updates.putRun (hs.requireRun_eq_ok hrun).1 rfl
  | release _ hrun =>
    exact Updates.putRun (hs.requireRun_eq_ok hrun).1 rfl
  | number => exact ⟨id, id, le_rfl⟩
  | complete _ completed agent checkpoint hrun _ _ _ hagent hcompleted =>
    have hput : Updates s (s.putRun completed.runId.text completed) :=
      Updates.putRun (hs.requireRun_eq_ok hrun).1 (AgentTreeRun.completed_eq_ok hcompleted).1
    refine hput.trans (Updates.putAgent (k := agent.agentId.text) (a := agent) (b := { agent with
      contextVersion := checkpoint.version
      contextCheckpointId := some checkpoint.checkpointId }) ?_ rfl rfl rfl rfl)
    exact (hs.requireActiveAgent_eq_ok hagent).1
  | fail _ _ hrun =>
    refine foldl_cancelDescendant (P := fun s' => Updates s s') _
      (fun s₁ k item hs₁ hitem _ => hs₁.trans (Updates.putRun hitem rfl)) _ ?_
    exact Updates.putRun (hs.requireRun_eq_ok hrun).1 rfl
  | cancel =>
    exact foldl_cancelOrdered (P := fun s' => Updates s s')
      (fun s₁ current run hs₁ hget _ => hs₁.trans (Updates.putRun hget rfl)) _ (Updates.refl s)
  | close agent hagent =>
    exact Updates.putAgent (b := { agent with state := .closed })
      (hs.requireActiveAgent_eq_ok hagent).1 rfl rfl rfl rfl

/-- A call that creates Runs is an admission. -/
theorem admission_change (hs : Wired s) {op : TreeOp} (hop : op.admits = true)
    (h : Change digest clock s op s') : ∃ items, Admission s s' items := by
  cases h with
  | root _ _ hnew hagent => exact ⟨_, admission_root hs hnew hagent _⟩
  | spawn hrun _ hparent hdepth _ hgrants =>
    exact ⟨_, admission_spawn hs hrun hparent hdepth hgrants _ _ _⟩
  | «continue» hrun _ htarget hrequester hscope _ hidle =>
    exact ⟨_, admission_continue hs hrun htarget hrequester hscope hidle _ _ _⟩
  | _ => cases hop

/-! ## What an admission adds -/

variable {items : List SpawnedAgent} {i : RunIdentity}

theorem Admission.hasRun (h : Admission s s' items)
    (hi : s'.HasRun i) : s.HasRun i ∨ ∃ item ∈ items, item.run.identity = i := by
  obtain ⟨k, r, hr, rfl⟩ := hi
  rcases h.get?_run_cases hr with ⟨item, hitem, -, rfl⟩ | hr
  · exact Or.inr ⟨item, hitem, rfl⟩
  · exact Or.inl ⟨k, r, hr, rfl⟩

variable {a : AgentIdentity}

/-- The Agents an admission adds are new. -/
theorem Admission.hasAgent (h : Admission s s' items) (hf : NumbersFree s) (ha : s'.HasAgent a) :
    s.HasAgent a ∨ ∃ item ∈ items, item.agent.identity = a ∧
      s.agents.get? item.agent.agentId.text = none := by
  obtain ⟨k, n, hn, rfl⟩ := ha
  rcases h.get?_agent_cases hn with ⟨item, hitem, -, rfl⟩ | ⟨-, hn⟩
  · cases (h.admitted item hitem).origin with
    | known agent hget hnext => exact Or.inl ⟨_, agent, hget, by rw [hnext]; rfl⟩
    | root hget => exact Or.inr ⟨item, hitem, rfl, hget⟩
    | child _ m hm _ hid =>
      refine Or.inr ⟨item, hitem, rfl, ?_⟩
      rw [hid]
      exact Dict.get?_eq_none_iff.2 (hf.agent m hm)
  · exact Or.inl ⟨k, n, hn, rfl⟩

/-! ## The laws -/

/-- The fixed fields of the records fit together. -/
structure Skeleton (s : AgentTreeState) : Prop where
  /-- An id names one Run. -/
  run : ∀ {i j}, s.HasRun i → s.HasRun j → i.runId = j.runId → i = j
  /-- An id names one Agent. -/
  agent : ∀ {a b}, s.HasAgent a → s.HasAgent b → a.agentId = b.agentId → a = b
  /-- The Agent of a Run belongs to the Agent of the root Run. -/
  scope : ∀ {i root a}, s.HasRun i → s.HasRun root → root.runId = i.rootRunId → s.HasAgent a →
    a.agentId = i.agentId → a.rootAgentId = root.agentId
  /-- An Agent without a parent is its own root. -/
  crown : ∀ {a}, s.HasAgent a → a.parentAgentId = none → a.rootAgentId = a.agentId
  /-- The root of an Agent has no parent, and its grant bounds the Agent's authority and depth. -/
  root : ∀ {a r}, s.HasAgent a → s.HasAgent r → r.agentId = a.rootAgentId →
    r.parentAgentId = none ∧ a.capabilityGrant.Narrows r.capabilityGrant ∧
      a.depth ≤ r.capabilityGrant.maxDepth
  /-- A child is one below its parent, of the same root, and has no more authority. -/
  edge : ∀ {a b}, s.HasAgent a → s.HasAgent b → a.parentAgentId = some b.agentId →
    a.rootAgentId = b.rootAgentId ∧ a.depth = b.depth + 1 ∧
      a.capabilityGrant.Narrows b.capabilityGrant

theorem Updates.skeleton (h : Updates s s') (hs : Skeleton s) : Skeleton s' where
  run hi hj := hs.run (h.run hi) (h.run hj)
  agent ha hb := hs.agent (h.agent ha) (h.agent hb)
  scope hi hr heq ha := hs.scope (h.run hi) (h.run hr) heq (h.agent ha)
  crown ha := hs.crown (h.agent ha)
  root ha hr := hs.root (h.agent ha) (h.agent hr)
  edge ha hb := hs.edge (h.agent ha) (h.agent hb)

/-! ### Under an admission -/

theorem Wired.hasRun_key (hw : Wired s) (hi : s.HasRun i) :
    i.runId.text ∈ s.runs.keys := by
  obtain ⟨k, r, hr, rfl⟩ := hi
  exact hw.run hr

theorem Wired.hasAgent_key (hw : Wired s) (ha : s.HasAgent a) :
    a.agentId.text ∈ s.agents.keys := by
  obtain ⟨k, n, hn, rfl⟩ := ha
  have hkey := hw.agent_key hn
  exact hkey ▸ Dict.mem_keys_iff.2 ⟨n, hn⟩

/-- A Run whose id was taken before is not one of the new ones. -/
theorem Admission.hasRun_of_key (h : Admission s s' items)
    (hf : NumbersFree s) (hi : s'.HasRun i) (hkey : i.runId.text ∈ s.runs.keys) :
    s.HasRun i := by
  rcases h.hasRun hi with hi | ⟨item, hitem, rfl⟩
  · exact hi
  · exact absurd hkey (Dict.get?_eq_none_iff.1 (h.run_new hf hitem))

/-- An Agent whose id was taken before is not one of the new ones. -/
theorem Admission.hasAgent_of_key (h : Admission s s' items)
    (hf : NumbersFree s) (ha : s'.HasAgent a)
    (hkey : a.agentId.text ∈ s.agents.keys) : s.HasAgent a := by
  rcases h.hasAgent hf ha with ha | ⟨item, hitem, rfl, hnone⟩
  · exact ha
  · exact absurd hkey (Dict.get?_eq_none_iff.1 hnone)

theorem Admission.run_unique (h : Admission s s' items) (hw : Wired s)
    (hf : NumbersFree s) (hs : Skeleton s) {j : RunIdentity} (hi : s'.HasRun i)
    (hj : s'.HasRun j) (heq : i.runId = j.runId) : i = j := by
  rcases h.hasRun hi with hold | ⟨item, hitem, rfl⟩
  · have hkey := hw.hasRun_key hold
    rw [heq] at hkey
    exact hs.run hold (h.hasRun_of_key hf hj hkey) heq
  · rcases h.hasRun hj with hold | ⟨item', hitem', rfl⟩
    · have hkey := hw.hasRun_key hold
      rw [← heq] at hkey
      exact hs.run (h.hasRun_of_key hf hi hkey) hold heq
    · rw [List.inj_on_of_nodup_map h.runs_nodup hitem hitem' heq]

theorem Admission.agent_unique (h : Admission s s' items)
    (hw : Wired s) (hf : NumbersFree s) (hs : Skeleton s) {b : AgentIdentity}
    (ha : s'.HasAgent a) (hb : s'.HasAgent b) (heq : a.agentId = b.agentId) : a = b := by
  rcases h.hasAgent hf ha with hold | ⟨item, hitem, rfl, -⟩
  · have hkey := hw.hasAgent_key hold
    rw [heq] at hkey
    exact hs.agent hold (h.hasAgent_of_key hf hb hkey) heq
  · rcases h.hasAgent hf hb with hold | ⟨item', hitem', rfl, -⟩
    · have hkey := hw.hasAgent_key hold
      rw [← heq] at hkey
      exact hs.agent (h.hasAgent_of_key hf ha hkey) hold heq
    · rw [List.inj_on_of_nodup_map h.agents_nodup hitem hitem' heq]

/-- New Agents fit under their parents, and new Runs under theirs. -/
theorem Admission.skeleton (h : Admission s s' items) (hw : Wired s)
    (hf : NumbersFree s) (hs : Skeleton s) : Skeleton s' := by
  have hcrown : ∀ {a}, s'.HasAgent a → a.parentAgentId = none → a.rootAgentId = a.agentId := by
    intro a ha hnone
    rcases h.hasAgent hf ha with ha | ⟨item, hitem, rfl, hnew⟩
    · exact hs.crown ha hnone
    · cases (h.admitted item hitem).origin with
      | known _ hget hnext =>
        rw [hnext, hget] at hnew
        cases hnew
      | root _ _ hroot => exact hroot
      | child _ _ _ _ _ _ hparent => exact absurd (hnone.symm.trans hparent) nofun
  refine {
    run := h.run_unique hw hf hs
    agent := h.agent_unique hw hf hs
    crown := hcrown
    scope := ?_
    root := ?_
    edge := ?_ }
  · intro i root a hi hroot heq ha hagent
    rcases h.hasRun hi with ⟨k, r, hr, rfl⟩ | ⟨item, hitem, rfl⟩
    · refine hs.scope ⟨k, r, hr, rfl⟩ (h.hasRun_of_key hf hroot ?_) heq
        (h.hasAgent_of_key hf ha ?_) hagent
      · rw [heq]
        exact hw.root hr
      · rw [hagent]
        exact hw.agent hr
    · have hnew := h.admitted item hitem
      have hitemAgent : s'.HasAgent item.agent.identity :=
        AgentTreeState.hasAgent_of_get? (h.get?_agent_item hitem)
      have hsame : a = item.agent.identity :=
        h.agent_unique hw hf hs ha hitemAgent (hagent.trans hnew.agentId)
      subst hsame
      cases hnew.place with
      | root _ hparent hself =>
        have hroots : root = item.run.identity := h.run_unique hw hf hs hroot hi (heq.trans hself)
        subst hroots
        exact (hcrown hitemAgent (hnew.crown hparent)).trans hnew.agentId.symm
      | child parent _ _ _ _ hget _ hparent hsame =>
        obtain ⟨found, agent, hfound, hagent', hscope⟩ := hnew.scope _ hparent
        rw [hget] at hfound
        cases hfound
        have hkey : root.runId = parent.identity.rootRunId := heq.trans hsame
        have hold : s.HasRun root := by
          refine h.hasRun_of_key hf hroot ?_
          rw [hkey]
          exact hw.root hget
        have hname : agent.identity.agentId = parent.identity.agentId :=
          (RequiredText.ext (hw.agent_key hagent')).symm
        exact hscope.trans (hs.scope (AgentTreeState.hasRun_of_get? hget) hold hkey
          (AgentTreeState.hasAgent_of_get? hagent') hname)
  · intro a r ha hr heq
    rcases h.hasAgent hf ha with ⟨k, n, hn, rfl⟩ | ⟨item, hitem, rfl, hnew⟩
    · refine hs.root ⟨k, n, hn, rfl⟩ (h.hasAgent_of_key hf hr ?_) heq
      rw [heq]
      exact hw.rootAgent hn
    · cases (h.admitted item hitem).origin with
      | known _ hget hnext =>
        rw [hnext, hget] at hnew
        cases hnew
      | root _ hparent hroot hdepth =>
        have hself : r = item.agent.identity := h.agent_unique hw hf hs hr ha (heq.trans hroot)
        subst hself
        refine ⟨hparent, AgentCapabilityGrant.Narrows.refl _, ?_⟩
        show item.agent.depth ≤ _
        rw [hdepth]
        exact Nat.zero_le _
      | child parent _ _ _ _ hget _ hroot hdepth hroom hgrant =>
        have hkey : r.agentId = parent.identity.rootAgentId := heq.trans hroot
        have hold : s.HasAgent r := by
          refine h.hasAgent_of_key hf hr ?_
          rw [hkey]
          exact hw.rootAgent hget
        obtain ⟨hnone, hnarrow, -⟩ := hs.root (AgentTreeState.hasAgent_of_get? hget) hold hkey
        refine ⟨hnone, hgrant.trans hnarrow, ?_⟩
        show item.agent.depth ≤ _
        rw [hdepth]
        exact le_trans hroom hnarrow.maxDepth
  · intro a b ha hb heq
    rcases h.hasAgent hf ha with ⟨k, n, hn, rfl⟩ | ⟨item, hitem, rfl, hnew⟩
    · exact hs.edge ⟨k, n, hn, rfl⟩ (h.hasAgent_of_key hf hb (hw.parentAgent hn heq)) heq
    · cases (h.admitted item hitem).origin with
      | known _ hget hnext =>
        rw [hnext, hget] at hnew
        cases hnew
      | root _ hparent => exact absurd (hparent.symm.trans heq) nofun
      | child parent _ _ _ _ hget hparent hroot hdepth _ hgrant =>
        have hname : b.agentId = parent.identity.agentId :=
          Option.some.inj (heq.symm.trans hparent)
        have hold : s.HasAgent b := by
          refine h.hasAgent_of_key hf hb ?_
          rw [hname]
          exact Dict.mem_keys_iff.2 ⟨parent, hget⟩
        have hsame : b = parent.identity :=
          hs.agent hold (AgentTreeState.hasAgent_of_get? hget) hname
        subst hsame
        exact ⟨hroot, hdepth, hgrant⟩

/-! ## Every reachable state -/

/-- The states that are reached while the host's names and the repository's stay apart. -/
structure Framed (s : AgentTreeState) : Prop where
  wired : Wired s
  free : NumbersFree s
  skeleton : Skeleton s

theorem framed_change (hs : Framed s) {op : TreeOp} (hhost : HostIds s op)
    (h : Change digest clock s op s') : Framed s' := by
  refine ⟨wired_change hs.wired h, free_change hs.wired hs.free hhost h, ?_⟩
  cases hop : op.admits with
  | true =>
    obtain ⟨items, h⟩ := admission_change hs.wired hop h
    exact h.skeleton hs.wired hs.free hs.skeleton
  | false => exact (updates_change hs.wired hop h).skeleton hs.skeleton

theorem framed_initial (n : Nat) : Framed (AgentTreeState.initial n) := by
  have hrun : ∀ {i}, ¬ (AgentTreeState.initial n).HasRun i := by
    rintro i ⟨k, r, hr, -⟩
    have hnone : (AgentTreeState.initial n).runs.get? k = none := rfl
    exact absurd (hnone.symm.trans hr) nofun
  have hagent : ∀ {a}, ¬ (AgentTreeState.initial n).HasAgent a := by
    rintro a ⟨k, m, hm, -⟩
    have hnone : (AgentTreeState.initial n).agents.get? k = none := rfl
    exact absurd (hnone.symm.trans hm) nofun
  exact {
    wired := wired_initial n
    free := free_initial n
    skeleton := {
      run := fun hi => absurd hi hrun
      agent := fun ha => absurd ha hagent
      scope := fun hi => absurd hi hrun
      crown := fun ha => absurd ha hagent
      root := fun ha => absurd ha hagent
      edge := fun ha => absurd ha hagent } }

end

end Purra
