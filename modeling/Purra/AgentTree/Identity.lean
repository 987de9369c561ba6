import Purra.AgentTree.Admission

/-!
# Ids are never reused

The host names its root Runs and root Agents; the repository numbers the rest, without looking
whether a number is taken.  A Run keeps its record for good as long as no number is, and a
suspension takes a Run that has not ended, under the id it is stored by.

* `HostIds` — a root command does not use a number the repository has still to give out;
  `NumbersFree` is the invariant it keeps.
* `KeepsIds` — no spawn and no continuation stores under an id that is taken.
* `Exact` — every Run is stored under its own id, without whitespace around it.
* `TreeKept` — **what no step takes away**: the fixed fields of every record, and every field of a
  Run that has ended.
* `identity_kept` — along every run whose steps are `KeepsIds`, each step keeps all of it.
-/

namespace Purra

open Purra.Action RunTree

/-! ## Names the repository has still to give out -/

/-- No record is stored under a number still to be given out. -/
structure NumbersFree (s : AgentTreeState) : Prop where
  run : ∀ n, s.runSequence < n → (generatedRunId n).text ∉ s.runs.keys
  agent : ∀ n, s.agentSequence < n → (generatedAgentId n).text ∉ s.agents.keys

/-- A root command uses no number the repository has still to give out. -/
def HostIds (s : AgentTreeState) : TreeOp → Prop
  | .beginRoot command =>
    (∀ n, s.runSequence < n → command.runId ≠ generatedRunId n) ∧
      ∀ n, s.agentSequence < n → command.agentId ≠ generatedAgentId n
  | _ => True

section

variable {digest : Json → String} {clock : Nat → Nat} {s s' : AgentTreeState}

/-- Storing a Run under an id that is there, or that differs from one by whitespace, takes no
number. -/
theorem NumbersFree.putRun (h : NumbersFree s) {key : String} {v : AgentTreeRun}
    (hkey : strip key ∈ s.runs.keys) : NumbersFree (s.putRun key v) where
  run n hn hmem := by
    have hold := h.run n hn
    obtain ⟨r, hr⟩ := Dict.mem_keys_iff.1 hmem
    simp only [AgentTreeState.putRun, Dict.get?_set] at hr
    split at hr
    · rename_i heq
      rw [← heq, (generatedRunId n).stripped] at hkey
      exact hold hkey
    · exact hold (Dict.mem_keys_iff.2 ⟨r, hr⟩)
  agent := h.agent

theorem NumbersFree.of_keys (h : NumbersFree s) (hruns : s'.runs.keys = s.runs.keys)
    (hagents : s'.agents.keys = s.agents.keys) (hrun : s'.runSequence = s.runSequence)
    (hagent : s'.agentSequence = s.agentSequence) : NumbersFree s' where
  run n hn := by
    rw [hruns]
    exact h.run n (hrun ▸ hn)
  agent n hn := by
    rw [hagents]
    exact h.agent n (hagent ▸ hn)

variable {items : List SpawnedAgent}

/-- An admission takes the numbers it gives out, and a root command none. -/
theorem Admission.free (h : Admission s s' items) (hs : NumbersFree s)
    (hhost : ∀ item ∈ items, item.run.parentRunId = none →
      ∀ n, s.runSequence < n → item.run.runId ≠ generatedRunId n)
    (hagent : ∀ item ∈ items, item.agent.parentAgentId = none →
      s.agents.get? item.agent.agentId.text = none →
        ∀ n, s.agentSequence < n → item.agent.agentId ≠ generatedAgentId n) : NumbersFree s' where
  run n hn hmem := by
    obtain ⟨r, hr⟩ := Dict.mem_keys_iff.1 hmem
    have hlt : s.runSequence < n := lt_of_le_of_lt h.run_le hn
    rcases h.get?_run_cases hr with ⟨item, hitem, heq, -⟩ | hr
    · have hid := RequiredText.ext heq
      cases (h.admitted item hitem).place with
      | root _ hparent => exact hhost item hitem hparent n hlt hid
      | child _ _ _ _ hm =>
        have := generatedRunId_inj.1 (hm.symm.trans hid)
        omega
    · exact hs.run n hlt (Dict.mem_keys_iff.2 ⟨r, hr⟩)
  agent n hn hmem := by
    obtain ⟨a, ha⟩ := Dict.mem_keys_iff.1 hmem
    have hlt : s.agentSequence < n := lt_of_le_of_lt h.agent_le hn
    rcases h.get?_agent_cases ha with ⟨item, hitem, heq, -⟩ | ⟨-, ha⟩
    · have hid := RequiredText.ext heq
      cases (h.admitted item hitem).origin with
      | known agent hget hnext =>
        have hkey : agent.agentId = generatedAgentId n := by
          rw [← hid, hnext]
        exact hs.agent n hlt (hkey ▸ Dict.mem_keys_iff.2 ⟨agent, hget⟩)
      | root hget hparent =>
        exact hagent item hitem hparent hget n hlt hid
      | child _ _ _ _ hm =>
        have := generatedAgentId_inj.1 (hm.symm.trans hid)
        omega
    · exact hs.agent n hlt (Dict.mem_keys_iff.2 ⟨a, ha⟩)

theorem free_change (hs : Wired s) (hf : NumbersFree s) {op : TreeOp} (hhost : HostIds s op)
    (h : Change digest clock s op s') : NumbersFree s' := by
  have hrun : ∀ {r : AgentTreeRun}, s.runs.get? r.runId.text = some r →
      strip r.runId.text ∈ s.runs.keys := by
    intro r hr
    rw [r.runId.stripped]
    exact Dict.mem_keys_iff.2 ⟨r, hr⟩
  cases h with
  | root _ _ hnew hagent =>
    refine (admission_root hs hnew hagent _).free hf ?_ ?_
    · intro item hitem _
      rw [List.mem_singleton] at hitem
      subst hitem
      exact hhost.1
    · intro item hitem _ hget
      rw [List.mem_singleton] at hitem
      subst hitem
      rcases rootAgent_eq_ok hagent with ⟨-, rfl⟩ | ⟨hfound, -, -, -⟩
      · exact hhost.2
      · have hkey := hs.agent_key hfound
        rw [hkey] at hfound
        exact absurd (hget.symm.trans hfound) nofun
  | spawn hrun' _ hparent hdepth _ hgrants =>
    refine (admission_spawn hs hrun' hparent hdepth hgrants _ _ _).free hf ?_ ?_
    · intro item hitem hnone
      obtain ⟨index, spec, hspec, grant, -, -, rfl⟩ := mem_spawnedItems hitem
      cases hnone
    · intro item hitem hnone
      obtain ⟨index, spec, hspec, grant, -, -, rfl⟩ := mem_spawnedItems hitem
      cases hnone
  | «continue» hrun' _ htarget hrequester hscope _ hidle =>
    refine (admission_continue hs hrun' htarget hrequester hscope hidle _ _ _).free hf ?_ ?_
    · intro item hitem hnone
      rw [List.mem_singleton] at hitem
      subst hitem
      cases hnone
    · intro item hitem _ hget
      rw [List.mem_singleton] at hitem
      subst hitem
      exact absurd (hget.symm.trans (hs.requireActiveAgent_eq_ok htarget).1) nofun
  | claim _ _ hget =>
    exact hf.putRun (hrun (hs.requireRun_eq_ok hget).1)
  | suspend _ run hget =>
    obtain ⟨hstored, hkey⟩ := hs.requireRun_eq_ok hget
    exact hf.putRun (hkey ▸ Dict.mem_keys_iff.2 ⟨run, hstored⟩)
  | renew _ _ _ _ hget =>
    have hstored := (hs.requireRun_eq_ok (AgentTreeState.requireActiveRun_eq_ok hget).1).1
    exact hf.putRun (hrun hstored)
  | wait _ hget => exact hf.putRun (hrun (hs.requireRun_eq_ok hget).1)
  | release _ hget =>
    exact hf.putRun (hrun (hs.requireRun_eq_ok hget).1)
  | number => exact { hf with }
  | complete run completed agent _ hget _ _ _ hagent hcompleted =>
    have hid : completed.runId = run.runId :=
      AgentTreeRun.runId_of_identity (AgentTreeRun.completed_eq_ok hcompleted).1
    refine hf.of_keys ?_ ?_ rfl rfl
    · exact Dict.keys_set_of_mem (hid ▸ Dict.mem_keys_iff.2 ⟨run, (hs.requireRun_eq_ok hget).1⟩)
    · exact Dict.keys_set_of_mem
        (Dict.mem_keys_iff.2 ⟨agent, (hs.requireActiveAgent_eq_ok hagent).1⟩)
  | fail _ run hget =>
    have hstored := (hs.requireRun_eq_ok hget).1
    refine (foldl_cancelDescendant (P := fun s => Wired s ∧ NumbersFree s) _
      (fun s k item hs hitem _ => ?_) _ ?_).2
    · refine ⟨hs.1.putRun hitem rfl item.runId.stripped, hs.2.putRun ?_⟩
      rw [item.runId.stripped]
      exact hs.1.run hitem
    · exact ⟨hs.putRun hstored rfl run.runId.stripped, hf.putRun (hrun hstored)⟩
  | cancel =>
    refine foldl_cancelOrdered (fun s current run hf hstored _ => ?_) _ hf
    refine hf.putRun ?_
    rw [current.stripped]
    exact Dict.mem_keys_iff.2 ⟨run, hstored⟩
  | close agent hagent =>
    refine hf.of_keys rfl ?_ rfl rfl
    exact Dict.keys_set_of_mem
      (Dict.mem_keys_iff.2 ⟨agent, (hs.requireActiveAgent_eq_ok hagent).1⟩)

theorem free_initial (n : Nat) : NumbersFree (AgentTreeState.initial n) where
  run := fun _ _ => List.not_mem_nil
  agent := fun _ _ => List.not_mem_nil

/-! ## Runs under their own id -/

/-- Every Run is stored under its own id. -/
def Exact (s : AgentTreeState) : Prop := ∀ k r, s.runs.get? k = some r → k = r.runId.text

/-- A suspension that goes through is asked for a Run by the id it is stored under. -/
def Stripped (s : AgentTreeState) (clock : Nat → Nat) : TreeOp → Prop
  | .suspendRun runId owner epoch =>
    ∀ run, s.requireRun runId = .ok run → run.Claims (clock 0) owner epoch → strip runId = runId
  | _ => True

theorem Exact.putRun (h : Exact s) {key : String} (v : AgentTreeRun) (hkey : key = v.runId.text) :
    Exact (s.putRun key v) := by
  intro k r hr
  simp only [AgentTreeState.putRun, Dict.get?_set] at hr
  split at hr
  · cases hr
    rename_i hk
    exact hk.trans hkey
  · exact h k r hr

theorem Admission.exact (h : Admission s s' items) (hs : Exact s) :
    Exact s' := by
  intro k r hr
  rcases h.get?_run_cases hr with ⟨item, -, rfl, rfl⟩ | hr
  · rfl
  · exact hs k r hr

theorem exact_change (hs : Wired s) (he : Exact s) {op : TreeOp} (hstripped : Stripped s clock op)
    (h : Change digest clock s op s') : Exact s' := by
  cases h with
  | root _ _ hnew hagent => exact (admission_root hs hnew hagent _).exact he
  | spawn hrun _ hparent hdepth _ hgrants =>
    exact (admission_spawn hs hrun hparent hdepth hgrants _ _ _).exact he
  | «continue» hrun _ htarget hrequester hscope _ hidle =>
    exact (admission_continue hs hrun htarget hrequester hscope hidle _ _ _).exact he
  | claim => exact he.putRun (AgentTreeRun.claimedBy _ _ _) rfl
  | suspend _ run hrun hclaim =>
    have hkey := (hs.requireRun_eq_ok hrun).2
    rw [hstripped run hrun hclaim] at hkey
    exact he.putRun run.suspended hkey
  | renew _ renewed _ _ _ _ hrenewed =>
    have hid := AgentTreeRun.runId_of_identity (AgentTreeRun.renewed_eq_ok hrenewed).1
    exact he.putRun renewed (congrArg RequiredText.text hid).symm
  | wait => exact he.putRun (AgentTreeRun.waiting _) rfl
  | release => exact he.putRun (AgentTreeRun.resumed _) rfl
  | number => exact he
  | complete _ completed =>
    exact he.putRun completed rfl
  | fail =>
    refine foldl_cancelDescendant _ (fun s k item he _ _ => ?_) _
      (he.putRun (AgentTreeRun.failedWith _ _) rfl)
    exact Exact.putRun he (item.canceledWith ancestorRunFailed) rfl
  | cancel =>
    refine foldl_cancelOrdered (fun s current run he hstored _ => ?_) _ he
    exact Exact.putRun he (run.canceledWith agentRunCanceled)
      (show current.text = run.runId.text from he _ run hstored)
  | close => exact he

theorem exact_initial (n : Nat) : Exact (AgentTreeState.initial n) := by
  intro k r hr
  have hnone : (AgentTreeState.initial n).runs.get? k = none := rfl
  rw [hnone] at hr
  cases hr

/-! ## What no step takes away -/

/-- Every Run and every Agent is still there with what it was created with, and a Run that has
ended is as it was. -/
structure TreeKept (s s' : AgentTreeState) : Prop where
  run : ∀ k u, s.runs.get? k = some u →
    ∃ v, s'.runs.get? k = some v ∧ v.identity = u.identity ∧ (u.terminal = true → v = u)
  agent : ∀ k a, s.agents.get? k = some a → ∃ b, s'.agents.get? k = some b ∧ b.identity = a.identity

theorem TreeKept.refl (s : AgentTreeState) : TreeKept s s :=
  ⟨fun _ u hu => ⟨u, hu, rfl, fun _ => rfl⟩, fun _ a ha => ⟨a, ha, rfl⟩⟩

theorem TreeKept.trans {s'' : AgentTreeState} (h : TreeKept s s') (h' : TreeKept s' s'') :
    TreeKept s s'' where
  run k u hu := by
    obtain ⟨v, hv, hid, hended⟩ := h.run k u hu
    obtain ⟨w, hw, hid', hended'⟩ := h'.run k v hv
    refine ⟨w, hw, hid'.trans hid, fun hterminal => ?_⟩
    have hvu := hended hterminal
    exact (hended' (hvu ▸ hterminal)).trans hvu
  agent k a ha := by
    obtain ⟨b, hb, hid⟩ := h.agent k a ha
    obtain ⟨c, hc, hid'⟩ := h'.agent k b hb
    exact ⟨c, hc, hid'.trans hid⟩

/-- A Run that has not ended may be replaced by one with its fixed fields. -/
theorem TreeKept.putRun {key : String} {u v : AgentTreeRun} (hu : s.runs.get? key = some u)
    (hid : v.identity = u.identity) (hactive : u.status.active = true) :
    TreeKept s (s.putRun key v) where
  run k w hw := by
    simp only [AgentTreeState.putRun, Dict.get?_set]
    split
    · rename_i hk
      rw [hk, hu] at hw
      cases hw
      refine ⟨v, rfl, hid, fun hended => ?_⟩
      rw [AgentTreeRun.terminal, AgentTreeRunStatus.terminal_eq, hactive] at hended
      cases hended
    · exact ⟨w, hw, rfl, fun _ => rfl⟩
  agent k a ha := ⟨a, ha, rfl⟩

/-- What can be read off the fixed fields of a Run reads the same afterwards. -/
theorem TreeKept.map_identity {β : Type} (h : TreeKept s s') (f : RunIdentity → β) {k : String} {b : β}
    (hb : (s.runs.get? k).map (fun r => f r.identity) = some b) :
    (s'.runs.get? k).map (fun r => f r.identity) = some b := by
  obtain ⟨u, hu, rfl⟩ := Option.map_eq_some_iff.1 hb
  obtain ⟨v, hv, hid, -⟩ := h.run k u hu
  rw [hv, Option.map_some, hid]

theorem TreeKept.map_status (h : TreeKept s s') {k : String} {status : AgentTreeRunStatus}
    (hi : (s.runs.get? k).map (·.status) = some status) (hended : status.terminal = true) :
    (s'.runs.get? k).map (·.status) = some status := by
  obtain ⟨u, hu, rfl⟩ := Option.map_eq_some_iff.1 hi
  obtain ⟨v, hv, -, hkept⟩ := h.run k u hu
  rw [hv, hkept hended, Option.map_some]

/-- An Agent may be replaced by one with its fixed fields. -/
theorem TreeKept.putAgent {a b : AgentNode} (ha : s.agents.get? a.agentId.text = some a)
    (hid : b.identity = a.identity) (hruns : s'.runs = s.runs)
    (hagents : s'.agents = s.agents.set a.agentId.text b) : TreeKept s s' where
  run k u hu := ⟨u, hruns ▸ hu, rfl, fun _ => rfl⟩
  agent k c hc := by
    rw [hagents, Dict.get?_set]
    split
    · rename_i hk
      rw [hk, ha] at hc
      cases hc
      exact ⟨b, rfl, hid⟩
    · exact ⟨c, hc, rfl⟩

/-- The Runs of an admission are new. -/
theorem Admission.run_new (h : Admission s s' items) (hf : NumbersFree s)
    {item : SpawnedAgent} (hitem : item ∈ items) : s.runs.get? item.run.runId.text = none := by
  cases (h.admitted item hitem).place with
  | root hnew => exact hnew
  | child _ n hn _ hid =>
    rw [hid]
    exact Dict.get?_eq_none_iff.2 (hf.run n hn)

/-- An admission of Runs that are new keeps every record when its Agents are new, or are those
that were there, on their next Run. -/
theorem Admission.kept (h : Admission s s' items)
    (hruns : ∀ item ∈ items, s.runs.get? item.run.runId.text = none)
    (hagents : ∀ item ∈ items, ∀ a, s.agents.get? item.agent.agentId.text = some a →
      item.agent.identity = a.identity) : TreeKept s s' where
  run k u hu := by
    refine ⟨u, ?_, rfl, fun _ => rfl⟩
    rw [h.runs, Dict.get?_extend_of_not_mem, hu]
    rw [List.map_map]
    intro hmem
    obtain ⟨item, hitem, rfl⟩ := List.mem_map.1 hmem
    exact absurd ((hruns item hitem).symm.trans hu) nofun
  agent k a ha := by
    obtain ⟨b, hb⟩ := Dict.mem_keys_iff.1 (h.agent_keys_subset (Dict.mem_keys_iff.2 ⟨a, ha⟩))
    refine ⟨b, hb, ?_⟩
    rcases h.get?_agent_cases hb with ⟨item, hitem, rfl, rfl⟩ | ⟨-, hb⟩
    · exact hagents item hitem a ha
    · rw [hb] at ha
      cases ha
      rfl

/-- A suspension that goes through takes a Run that has not ended, by the id it is stored under. -/
structure SuspendsLive (s : AgentTreeState) (event : (Nat → Nat) × TreeOp) : Prop where
  stripped : Stripped s event.1 event.2
  suspends : ∀ runId owner epoch, event.2 = .suspendRun runId owner epoch →
    ∀ run, s.requireRun runId = .ok run → run.Claims (event.1 0) owner epoch →
      run.terminal = false

/-- A step that keeps the names apart: a root command uses no number still to be given out, and a
suspension takes a Run that has not ended, by its own id. -/
structure Orderly (s : AgentTreeState) (event : (Nat → Nat) × TreeOp) : Prop
    extends SuspendsLive s event where
  host : HostIds s event.2

/-- A spawn or a continuation that goes through stores nothing under an id that is taken. -/
structure StoresNew (digest : Json → String) (s : AgentTreeState) (event : (Nat → Nat) × TreeOp) :
    Prop where
  spawn : ∀ command s', event.2 = .spawnAgents command → Change digest event.1 s event.2 s' →
    ∀ index < command.children.length,
      s.runs.get? (generatedRunId (s.runSequence + index + 1)).text = none ∧
        s.agents.get? (generatedAgentId (s.agentSequence + index + 1)).text = none
  «continue» : ∀ command s', event.2 = .continueAgent command →
    Change digest event.1 s event.2 s' →
      s.runs.get? (generatedRunId (s.runSequence + 1)).text = none

/-- A step that stores nothing under an id that is taken, and suspends no Run that has ended. -/
structure KeepsIds (digest : Json → String) (s : AgentTreeState) (event : (Nat → Nat) × TreeOp) :
    Prop extends SuspendsLive s event where
  stores : StoresNew digest s event

theorem kept_change (hs : Wired s) (he : Exact s) {op : TreeOp}
    (hkeeps : KeepsIds digest s (clock, op)) (h : Change digest clock s op s') : TreeKept s s' := by
  have hchange := h
  cases h with
  | root _ _ hnew hagent =>
    refine (admission_root hs hnew hagent _).kept ?_ ?_
    · intro item hitem
      cases List.mem_singleton.1 hitem
      exact hnew
    · intro item hitem a ha
      cases List.mem_singleton.1 hitem
      rcases rootAgent_eq_ok hagent with ⟨hnone, rfl⟩ | ⟨hget, -⟩
      · exact absurd (hnone.symm.trans ha) nofun
      · have hkey := hs.agent_key hget
        rw [hkey] at hget
        cases hget.symm.trans ha
        rfl
  | @spawn command parentRun parent grants _ hrun _ hparent hdepth _ hgrants =>
    have hnew : ∀ item ∈ spawnedItems s command parent parentRun grants,
        s.runs.get? item.run.runId.text = none ∧ s.agents.get? item.agent.agentId.text = none := by
      intro item hitem
      obtain ⟨index, spec, hspec, grant, hindex, -, rfl⟩ := mem_spawnedItems hitem
      exact hkeeps.stores.spawn command _ rfl hchange index (List.getElem?_eq_some_iff.1 hindex).1
    refine (admission_spawn hs hrun hparent hdepth hgrants _ _ _).kept
      (fun item hitem => (hnew item hitem).1) fun item hitem a ha => ?_
    exact absurd ((hnew item hitem).2.symm.trans ha) nofun
  | @«continue» command _ _ _ _ _ hrun _ htarget hrequester hscope _ hidle =>
    refine (admission_continue hs hrun htarget hrequester hscope hidle _ _ _).kept ?_ ?_
    · intro item hitem
      cases List.mem_singleton.1 hitem
      exact hkeeps.stores.continue command _ rfl hchange
    · intro item hitem a ha
      cases List.mem_singleton.1 hitem
      cases (hs.requireActiveAgent_eq_ok htarget).1.symm.trans ha
      rfl
  | claim _ _ hrun hstatus =>
    refine TreeKept.putRun (hs.requireRun_eq_ok hrun).1 rfl ?_
    rcases hstatus with hstatus | hstatus
    · rw [hstatus]
      rfl
    · exact AgentTreeRun.active_of_reclaimable hstatus
  | @suspend runId owner epoch run hrun hclaim =>
    obtain ⟨hget, hkey⟩ := hs.requireRun_eq_ok hrun
    have hstored : runId = run.runId.text := (hkeeps.stripped run hrun hclaim).symm.trans hkey
    have hended := hkeeps.suspends runId owner epoch rfl run hrun hclaim
    refine TreeKept.putRun (u := run) (hstored ▸ hget) rfl ?_
    simpa [AgentTreeRun.terminal] using hended
  | renew _ _ _ _ hrun _ hrenewed =>
    obtain ⟨hrun, hlive⟩ := AgentTreeState.requireActiveRun_eq_ok hrun
    exact TreeKept.putRun (hs.requireRun_eq_ok hrun).1 (AgentTreeRun.renewed_eq_ok hrenewed).1
      (AgentTreeRunStatus.active_of_live hlive)
  | wait _ hrun hstatus =>
    refine TreeKept.putRun (hs.requireRun_eq_ok hrun).1 rfl ?_
    rw [hstatus]
    rfl
  | release _ hrun hstatus =>
    refine TreeKept.putRun (hs.requireRun_eq_ok hrun).1 rfl ?_
    rw [hstatus]
    rfl
  | number => exact ⟨(TreeKept.refl s).run, (TreeKept.refl s).agent⟩
  | complete _ completed agent checkpoint hrun hstatus _ _ hagent hcompleted =>
    have hid := (AgentTreeRun.completed_eq_ok hcompleted).1
    have hkey := congrArg RequiredText.text (AgentTreeRun.runId_of_identity hid)
    have hget := (hs.requireRun_eq_ok hrun).1
    have hput : TreeKept s (s.putRun completed.runId.text completed) := by
      refine TreeKept.putRun (hkey ▸ hget) hid ?_
      rw [hstatus]
      rfl
    refine hput.trans (TreeKept.putAgent (a := agent) (b := { agent with
      contextVersion := checkpoint.version
      contextCheckpointId := some checkpoint.checkpointId }) ?_ rfl rfl rfl)
    exact (hs.requireActiveAgent_eq_ok hagent).1
  | fail error run hrun hactive =>
    have hget := (hs.requireRun_eq_ok hrun).1
    refine (foldl_cancelDescendant (P := fun s' => Exact s' ∧ TreeKept s s') _
      (fun s₁ k item hs₁ hitem hactive => ?_) _ ?_).2
    · have hk := hs₁.1 k item hitem
      exact ⟨hs₁.1.putRun (item.canceledWith ancestorRunFailed) rfl,
        hs₁.2.trans (TreeKept.putRun (u := item) (hk ▸ hitem) rfl hactive)⟩
    · exact ⟨he.putRun (run.failedWith error) rfl, TreeKept.putRun hget rfl hactive⟩
  | cancel =>
    refine foldl_cancelOrdered (P := fun s' => TreeKept s s')
      (fun s₁ current run hs₁ hget hactive => ?_) _ (TreeKept.refl s)
    exact hs₁.trans (TreeKept.putRun hget rfl hactive)
  | close agent hagent =>
    exact TreeKept.putAgent (a := agent) (b := { agent with state := .closed })
      (hs.requireActiveAgent_eq_ok hagent).1 rfl rfl rfl

/-- The states such steps reach. -/
structure Orderable (s : AgentTreeState) : Prop where
  wired : Wired s
  stored : Exact s

theorem orderable_exec {n : Nat} {run : List ((Nat → Nat) × TreeOp)}
    (hrun : Along (AgentTreeState.step digest) (KeepsIds digest) (AgentTreeState.initial n) run) :
    Orderable (exec (AgentTreeState.step digest) (AgentTreeState.initial n) run) := by
  refine exec_induction (fun s event hkeeps hs => ?_) hrun ⟨wired_initial n, exact_initial n⟩
  refine ⟨wired_step event hs.wired, ?_⟩
  rcases change_of_step digest s event with h | h
  · rw [h]
    exact hs.stored
  · exact exact_change hs.wired hs.stored hkeeps.stripped h

theorem kept_step {event : (Nat → Nat) × TreeOp} (hs : Orderable s)
    (hkeeps : KeepsIds digest s event) : TreeKept s (s.step digest event) := by
  rcases change_of_step digest s event with h | h
  · rw [h]
    exact TreeKept.refl s
  · exact kept_change hs.wired hs.stored hkeeps h

end

/-- **Nothing in the tree is overwritten.**  Along every run whose steps store nothing under an id
that is taken, and suspend no Run that has ended, each step keeps the fixed fields of every Run and
every Agent, and keeps the Runs that have ended as they are. -/
theorem identity_kept (digest : Json → String) (initialRunSequence : Nat)
    (run : List ((Nat → Nat) × TreeOp)) (event : (Nat → Nat) × TreeOp)
    (hrun : Along (AgentTreeState.step digest) (KeepsIds digest)
      (AgentTreeState.initial initialRunSequence) (run ++ [event])) :
    TreeKept (exec (AgentTreeState.step digest) (AgentTreeState.initial initialRunSequence) run)
      ((exec (AgentTreeState.step digest) (AgentTreeState.initial initialRunSequence) run).step
        digest event) := by
  obtain ⟨hrun, hevent, -⟩ := along_append.1 hrun
  exact kept_step (orderable_exec hrun) hevent

/-! ### Three ways to lose a Run -/

namespace Sample

/-- A checked literal. -/
def text (value : String) (hstripped : strip value = value) (hnonblank : value ≠ "") :
    RequiredText := ⟨value, hstripped, hnonblank⟩

/-- The id of the sample root Run. -/
def rootId : RequiredText := text "root" (by decide) (by decide)

/-- A word for the texts no step looks at. -/
def word : RequiredText := text "word" (by decide) (by decide)

/-- The name of the sample child. -/
def worker : RequiredText := text "worker" (by decide) (by decide)

theorem three_slots : 0 < 3 := by decide

/-- A grant to create children, one Run at a time when `slots` is one. -/
def grant (slots : Nat) (hslots : 0 < slots) : AgentCapabilityGrant where
  canSpawnAgents := true
  maxDepth := 3
  maxChildrenPerCall := 3
  maxAgentsPerRoot := 16
  maxParallelRuns := slots
  allowedTools := []
  allowedModels := []
  maxDepth_pos := three_slots
  maxChildrenPerCall_pos := three_slots
  maxAgentsPerRoot_pos := by decide
  maxParallelRuns_pos := hslots

/-- Begin a root Run for an Agent called like it. -/
def begin (runId : RequiredText) (slots : Nat) (hslots : 0 < slots) : TreeOp :=
  .beginRoot {
    runId
    agentId := word
    name := word
    title := word
    instruction := word
    objective := word
    capabilityGrant := grant slots hslots
    idempotencyKey := word }

/-- The sample child, alone. -/
def workers : List ChildAgentSpec :=
  [{ name := worker, title := word, instruction := word, objective := word }]

theorem workers_ne_nil : workers ≠ [] := by decide

theorem workers_nodup : (workers.map (·.name)).Nodup := by decide

theorem workers_known : ∀ item ∈ workers, item.dependsOn ⊆ workers.map (·.name) := by decide

theorem workers_acyclic : Topology.acyclic (dependencyTable workers) = true := by decide

/-- One child under a Run that has no lease. -/
def spawn (parentRunId : RequiredText) : TreeOp :=
  .spawnAgents {
    parentRunId
    idempotencyKey := word
    children := workers
    children_ne_nil := workers_ne_nil
    names_nodup := workers_nodup
    dependencies_known := workers_known
    dependencies_acyclic := workers_acyclic
    lease_paired := unleased }

/-- A call while the clock stands still. -/
def at_ (time : Nat) (op : TreeOp) : (Nat → Nat) × TreeOp := (fun _ => time, op)

/-- The state after some calls, in a repository whose digests are all one. -/
def after (run : List ((Nat → Nat) × TreeOp)) : AgentTreeState :=
  exec (AgentTreeState.step fun _ => "") (AgentTreeState.initial 0) run

/-- Complete a Run that has no lease. -/
def complete (runId : String) (owner : Option String) (epoch : Option Int) : TreeOp :=
  .completeRun runId 0 .null "ref" "print" owner epoch

/-- The root Run is called like the repository's first child. -/
def clash : List ((Nat → Nat) × TreeOp) := [at_ 0 (begin (generatedRunId 1) 3 three_slots)]

/-- The root Run is complete. -/
def finished : List ((Nat → Nat) × TreeOp) :=
  [at_ 0 (begin rootId 3 three_slots), at_ 0 (complete "root" none none)]

/-- A child is suspended under its id with a blank in front, then completed. -/
def doubled : List ((Nat → Nat) × TreeOp) :=
  [at_ 0 (begin rootId 3 three_slots), at_ 0 (spawn rootId),
    at_ 0 (.claimRun "agent-run-1" "worker" 30000),
    at_ 0 (.suspendRun " agent-run-1" (some "worker") (some 1)),
    at_ 0 (complete "agent-run-1" (some "worker") (some 1))]

end Sample

open Sample in
theorem sample_states :
    ((after clash).runs.get? "agent-run-1").map (·.identity.parentRunId) = some none ∧
    (((after clash).step (fun _ => "") (at_ 0 (spawn (generatedRunId 1)))).runs.get?
      "agent-run-1").map (·.identity.parentRunId) ≠ some none ∧
    ((after finished).runs.get? "root").map (·.status) = some .done ∧
    (((after finished).step (fun _ => "") (at_ 0 (.suspendRun "root" none none))).runs.get?
      "root").map (·.status) ≠ some .done ∧
    ((after doubled).runs.get? "agent-run-1").map (·.status) = some .done ∧
    (((after doubled).step (fun _ => "") (at_ 0 (.failRun "root" "stopped" none none))).runs.get?
      "agent-run-1").map (·.status) ≠ some .done := by
  decide +kernel

open Sample in
/-- A spawn overwrites a root Run that is called like the repository's next child; a suspension
without a claim brings back a Run that is done; and a Run suspended under an id with a blank in
front is there twice, so that cancelling the copy overwrites the Run that is done. -/
theorem identity_lost :
    ¬ TreeKept (after clash) ((after clash).step (fun _ => "") (at_ 0 (spawn (generatedRunId 1)))) ∧
    ¬ TreeKept (after finished)
      ((after finished).step (fun _ => "") (at_ 0 (.suspendRun "root" none none))) ∧
    ¬ TreeKept (after doubled)
      ((after doubled).step (fun _ => "") (at_ 0 (.failRun "root" "stopped" none none))) := by
  obtain ⟨hroot, hchild, hdone, hwaiting, hended, hcanceled⟩ := sample_states
  refine ⟨fun h => hchild ?_, fun h => hwaiting ?_, fun h => hcanceled ?_⟩
  · exact h.map_identity RunIdentity.parentRunId hroot
  · exact h.map_status hdone rfl
  · exact h.map_status hended rfl

open Sample in
theorem rootId_ne_generated (n : Nat) : rootId ≠ generatedRunId n := by
  intro h
  have hhead := congrArg (fun t => t.text.toList.head?) h
  simp [rootId, text, generatedRunId, RequiredText.numbered, String.toList_append] at hhead

open Sample in
theorem word_ne_generated (n : Nat) : word ≠ generatedAgentId n := by
  intro h
  have hhead := congrArg (fun t => t.text.toList.head?) h
  simp [word, text, generatedAgentId, RequiredText.numbered, String.toList_append] at hhead

open Sample in
theorem ids_free_after_begin :
    ((after [at_ 0 (begin rootId 3 three_slots)]).runs.get? (generatedRunId 1).text).isNone = true ∧
    ((after [at_ 0 (begin rootId 3 three_slots)]).agents.get?
      (generatedAgentId 1).text).isNone = true := by
  decide +kernel

open Sample in
/-- The root Run and its first child, created in order, keep each other. -/
theorem identity_kept_spawn :
    TreeKept (after [at_ 0 (begin rootId 3 three_slots)])
      ((after [at_ 0 (begin rootId 3 three_slots)]).step (fun _ => "") (at_ 0 (spawn rootId))) := by
  refine identity_kept (fun _ => "") 0 [at_ 0 (begin rootId 3 three_slots)] (at_ 0 (spawn rootId))
    ⟨⟨⟨trivial, nofun⟩, ⟨fun _ _ h => (nomatch h), fun _ _ h => (nomatch h)⟩⟩,
      ⟨⟨trivial, nofun⟩, ⟨?_, fun _ _ h => (nomatch h)⟩⟩, trivial⟩
  intro command s' hop _ index hindex
  cases hop
  have hzero : index = 0 := Nat.lt_one_iff.1 hindex
  subst hzero
  exact ⟨Option.isNone_iff_eq_none.1 ids_free_after_begin.1,
    Option.isNone_iff_eq_none.1 ids_free_after_begin.2⟩

end Purra
