import Purra.AgentTree.Fencing
import Purra.AgentTree.Skeleton

/-!
# The limits of a root

A root Agent's grant bounds its whole tree: how many Runs are RUNNING at a time, how many Agents take
part and how deep they are.  A spawn is checked against the grant of the parent, a continuation
against the root's, a claim and a resumed Run against the Runs that count at that moment; leases run
out on their own.

* `running` — the Runs of a root that are RUNNING under a lease in time, or under none.
* `Parallel`, `Peopled` — the two counts, as invariants; `parallel_change` and `peopled_change`
  are their step lemmas.  A count of RUNNING Runs only falls while time passes.
* `limits_kept` — **the four limits hold at every point of every run** whose clock does not go back
  and in which the host's names stay apart from the repository's.
-/

namespace Purra

open Purra.Action RunTree

/-- The Runs of `root` that take up a slot at a time. -/
def AgentTreeState.running (s : AgentTreeState) (root : RequiredText) (now : Nat) : Nat :=
  s.runs.values.countP (·.occupies root now)

section

variable {digest : Json → String} {clock : Nat → Nat} {s s' : AgentTreeState} {now now' : Nat}

/-! ## Counting the Runs of a root -/

namespace AgentTreeRun

variable {u v : AgentTreeRun} {root : RequiredText}

theorem occupies_iff : u.occupies root now = true ↔
    u.rootRunId = root ∧ u.status = .running ∧ u.leaseExpired now = false := by
  simp [occupies, and_assoc]

theorem occupies_anti (hle : now ≤ now') (h : u.occupies root now' = true) :
    u.occupies root now = true := by
  rw [occupies_iff] at h ⊢
  refine ⟨h.1, h.2.1, Bool.eq_false_iff.2 fun hout => ?_⟩
  exact Bool.eq_false_iff.1 h.2.2 (leaseExpired_mono hle hout)

theorem not_occupies (h : u.status ≠ .running) : u.occupies root now = false := by
  simp [occupies, h]

end AgentTreeRun

variable {root : RequiredText}

theorem running_anti (hle : now ≤ now') :
    s.running root now' ≤ s.running root now :=
  List.countP_mono_left fun _ _ h => AgentTreeRun.occupies_anti hle h

/-- Storing a Run that is not RUNNING takes up no slot. -/
theorem running_putRun_le {key : String} {v : AgentTreeRun}
    (hv : v.status ≠ .running) : (s.putRun key v).running root now ≤ s.running root now := by
  have h := Dict.countP_set_le (d := s.runs) (k := key) (v := v) (·.occupies root now)
  rw [AgentTreeRun.not_occupies hv] at h
  exact h

/-- Storing a Run takes up one slot at most, of its own root. -/
theorem running_putRun_succ {key : String} {v : AgentTreeRun} :
    (s.putRun key v).running root now ≤
      s.running root now + (if v.rootRunId = root then 1 else 0) := by
  have h := Dict.countP_set_le (d := s.runs) (k := key) (v := v) (·.occupies root now)
  refine h.trans (Nat.add_le_add_left ?_ _)
  by_cases hroot : v.rootRunId = root
  · rw [if_pos hroot]
    split <;> omega
  · rw [if_neg hroot, if_neg]
    intro hocc
    exact hroot (AgentTreeRun.occupies_iff.1 hocc).1

/-- The count of `release_waiting` is no less than the one at any later time. -/
theorem running_le_occupied (hclock : ∀ k, clock k ≤ now) :
    s.running root now ≤ occupied clock s root := by
  have hfst : s.runs.values = s.runs.values.zipIdx.map Prod.fst :=
    (List.zipIdx_map_fst 0 s.runs.values).symm
  unfold AgentTreeState.running occupied
  conv_lhs => rw [hfst]
  rw [List.countP_map]
  exact List.countP_mono_left fun item _ h => AgentTreeRun.occupies_anti (hclock (item.2 + 1)) h

/-- At no time from `now` on are there more RUNNING Runs of a root than its Agent's grant allows. -/
def Parallel (s : AgentTreeState) (now : Nat) : Prop :=
  ∀ i a, s.HasRun i → s.HasAgent a → a.agentId = i.agentId → ∀ t, now ≤ t →
    s.running i.runId t ≤ a.capabilityGrant.maxParallelRuns

theorem Parallel.later (h : Parallel s now) (hle : now ≤ now') : Parallel s now' :=
  fun i a hi ha hname t ht => h i a hi ha hname t (hle.trans ht)

/-- A call that adds nothing and raises no count keeps the limit. -/
theorem Parallel.of_updates (h : Parallel s now) (hup : Updates s s')
    (hcount : ∀ root t, now' ≤ t → s'.running root t ≤ s.running root now) : Parallel s' now' :=
  fun i a hi ha hname t ht =>
    (hcount i.runId t ht).trans (h i a (hup.run hi) (hup.agent ha) hname now le_rfl)

/-- A Run whose root is not there yet takes up none of its slots. -/
theorem Wired.running_eq_zero (hw : Wired s)
    (hnew : root.text ∉ s.runs.keys) (t : Nat) : s.running root t = 0 := by
  refine List.countP_eq_zero.2 fun r hr hocc => hnew ?_
  obtain ⟨k, hget⟩ := Dict.mem_values_iff.1 hr
  rw [← (AgentTreeRun.occupies_iff.1 hocc).1]
  exact hw.root hget

/-- Of the Runs an admission creates only a root Run is RUNNING, and it is alone under its id. -/
theorem Admission.parallel {items : List SpawnedAgent} (h : Admission s s' items) (hw : Framed s)
    (hp : Parallel s now) : Parallel s' now := by
  intro i a hi ha hname t ht
  have hnew : ∀ p ∈ items.map fun item => (item.run.runId.text, item.run), p.1 ∉ s.runs.keys := by
    intro p hp
    obtain ⟨item, hitem, rfl⟩ := List.mem_map.1 hp
    exact Dict.get?_eq_none_iff.1 (h.run_new hw.free hitem)
  have hcount : s'.running i.runId t =
      s.running i.runId t + (items.map (·.run)).countP (·.occupies i.runId t) := by
    rw [AgentTreeState.running, h.runs, Dict.countP_extend _ h.run_keys_nodup hnew, List.map_map]
    rfl
  -- a new Run in a slot of `i` is `i` itself
  have hself : ∀ item ∈ items, item.run.occupies i.runId t = true → item.run.runId = i.runId := by
    intro item hitem hocc
    obtain ⟨hroot, hrunning, -⟩ := AgentTreeRun.occupies_iff.1 hocc
    cases (h.admitted item hitem).place with
    | root _ _ hself => exact hself.symm.trans hroot
    | child _ _ _ _ _ _ _ _ _ hstatus => exact absurd (hstatus.symm.trans hrunning) nofun
  by_cases hkey : i.runId.text ∈ s.runs.keys
  · have hnone : (items.map (·.run)).countP (·.occupies i.runId t) = 0 := by
      refine List.countP_eq_zero.2 fun r hr hocc => ?_
      obtain ⟨item, hitem, rfl⟩ := List.mem_map.1 hr
      have hid := hself item hitem hocc
      exact Dict.get?_eq_none_iff.1 (h.run_new hw.free hitem) (hid ▸ hkey)
    have hold := h.hasRun_of_key hw.free hi hkey
    have hagent : s.HasAgent a := by
      refine h.hasAgent_of_key hw.free ha ?_
      obtain ⟨k, r, hr, rfl⟩ := hold
      rw [hname]
      exact hw.wired.agent hr
    rw [hcount, hnone]
    exact hp i a hold hagent hname t ht
  · have hone : (items.map (·.run)).countP (·.occupies i.runId t) ≤ 1 := by
      have hnodup := h.runs_nodup.sublist
        ((List.filter_sublist (p := fun item : SpawnedAgent => item.run.occupies i.runId t)).map
          (·.run.runId))
      have hsub : (items.filter fun item => item.run.occupies i.runId t).map (·.run.runId) ⊆
          [i.runId] := by
        intro x hx
        obtain ⟨item, hitem, rfl⟩ := List.mem_map.1 hx
        obtain ⟨hmem, hocc⟩ := List.mem_filter.1 hitem
        exact List.mem_singleton.2 (hself item hmem hocc)
      have hlen := (List.subperm_of_subset hnodup hsub).length_le
      rw [List.countP_map, List.countP_eq_length_filter]
      rwa [List.length_map] at hlen
    have hpos := a.capabilityGrant.maxParallelRuns_pos
    rw [hcount, hw.wired.running_eq_zero hkey]
    omega

/-- A Run that turns RUNNING fits, if a slot of its root was free. -/
theorem Parallel.resume (hp : Parallel s (clock 0)) (hs : Framed s) (hnow : clock 0 ≤ now')
    (run : AgentTreeRun) {v rootRun : AgentTreeRun} {root : AgentNode} {key : String}
    (hup : Updates s (s.putRun key v)) (hv : v.rootRunId = run.rootRunId)
    (hrootRun : s.requireRun run.rootRunId.text = .ok rootRun)
    (hroot : s.requireActiveAgent rootRun.agentId.text = .ok root)
    (hslot : ∀ t, now' ≤ t → s.running run.rootRunId t < root.capabilityGrant.maxParallelRuns) :
    Parallel (s.putRun key v) now' := by
  intro i a hi ha hname t ht
  have hle : (s.putRun key v).running i.runId t ≤
      s.running i.runId t + (if v.rootRunId = i.runId then 1 else 0) := running_putRun_succ
  by_cases heq : run.rootRunId = i.runId
  · -- the slot was counted against the grant of the same Agent
    have hlimit : a = root.identity := by
      obtain ⟨hget, hkey⟩ := hs.wired.requireRun_eq_ok hrootRun
      rw [run.rootRunId.stripped] at hkey
      have hid : rootRun.identity = i := by
        refine hs.skeleton.run (AgentTreeState.hasRun_of_get? hget) (hup.run hi) ?_
        exact (RequiredText.ext hkey).symm.trans heq
      obtain ⟨hagent, hkey, -⟩ := hs.wired.requireActiveAgent_eq_ok hroot
      rw [rootRun.agentId.stripped] at hkey
      refine hs.skeleton.agent (hup.agent ha) (AgentTreeState.hasAgent_of_get? hagent) ?_
      rw [hname, ← hid]
      exact RequiredText.ext hkey
    have hfree : s.running i.runId t < root.capabilityGrant.maxParallelRuns := heq ▸ hslot t ht
    rw [hlimit]
    show _ ≤ root.capabilityGrant.maxParallelRuns
    split at hle <;> omega
  · have hother : ¬ v.rootRunId = i.runId := fun h => heq (hv.symm.trans h)
    rw [if_neg hother] at hle
    exact hle.trans (hp i a (hup.run hi) (hup.agent ha) hname t (hnow.trans ht))

/-- Every call keeps the count of RUNNING Runs in the limit. -/
theorem parallel_change (hs : Framed s) (hnow : ∀ k, clock k ≤ now') (hp : Parallel s (clock 0))
    {op : TreeOp} (h : Change digest clock s op s') : Parallel s' now' := by
  by_cases hadmits : op.admits = true
  · obtain ⟨items, h⟩ := admission_change hs.wired hadmits h
    exact (h.parallel hs hp).later (hnow 0)
  have hop : op.admits = false := Bool.eq_false_iff.2 hadmits
  have hup := updates_change hs.wired hop h
  have hsame : ∀ root t, now' ≤ t → s.running root t ≤ s.running root (clock 0) :=
    fun root t ht => running_anti ((hnow 0).trans ht)
  -- storing a Run that is not RUNNING raises no count
  have hput : ∀ {s₁ : AgentTreeState} {key : String} {v : AgentTreeRun}, v.status ≠ .running →
      (∀ root t, now' ≤ t → s₁.running root t ≤ s.running root (clock 0)) →
      ∀ root t, now' ≤ t → (s₁.putRun key v).running root t ≤ s.running root (clock 0) :=
    fun hv hle root t ht => (running_putRun_le hv).trans (hle root t ht)
  cases h with
  | root | spawn | «continue» => cases hop
  | @claim _ _ _ _ _ run _ _ _ _ _ _ _ hrootRun hroot hslot =>
    exact hp.resume hs (hnow 0) run hup rfl hrootRun hroot fun t ht =>
      lt_of_le_of_lt (hsame run.rootRunId t ht) hslot
  | suspend =>
    exact hp.of_updates hup (hput nofun hsame)
  | renew run renewed _ _ hrun hclaim hrenewed =>
    have hget := (hs.wired.requireRun_eq_ok (AgentTreeState.requireActiveRun_eq_ok hrun).1).1
    obtain ⟨hid, hstatus, howner', -, -⟩ := AgentTreeRun.renewed_eq_ok hrenewed
    refine hp.of_updates hup fun root t ht => ?_
    -- the renewed Run passed the lease check, so it was counted before if it is now
    have hcounted : renewed.occupies root t = true → run.occupies root (clock 0) = true := by
      intro hocc
      rw [AgentTreeRun.occupies_iff] at hocc ⊢
      refine ⟨(AgentTreeRun.rootRunId_of_identity hid) ▸ hocc.1, hstatus ▸ hocc.2.1, ?_⟩
      unfold AgentTreeRun.Claims at hclaim
      cases hholder : run.leaseOwnerId with
      | none =>
        unfold AgentTreeRun.renewed at hrenewed
        rw [dif_pos hholder] at hrenewed
        cases hrenewed
      | some holder =>
        simp only [hholder] at hclaim
        exact hclaim.2.2
    have hrel : Dict.Rel (fun u v : AgentTreeRun => v.occupies root t = true →
        u.occupies root (clock 0) = true) s.runs (s.runs.set run.runId.text renewed) :=
      Dict.Rel.set hget hcounted fun w => AgentTreeRun.occupies_anti ((hnow 0).trans ht)
    exact hrel.countP_le fun u v huv => huv
  | wait =>
    exact hp.of_updates hup (hput nofun hsame)
  | release run _ _ _ hrootRun hroot hslot =>
    exact hp.resume hs (hnow 0) run hup rfl hrootRun hroot fun t ht =>
      lt_of_le_of_lt (running_le_occupied fun k => (hnow k).trans ht) hslot
  | number => exact hp.of_updates hup hsame
  | complete _ _ _ _ _ _ _ _ _ hcompleted =>
    have hdone := (AgentTreeRun.completed_eq_ok hcompleted).2.1
    exact hp.of_updates hup (hput (by rw [hdone]; exact nofun) hsame)
  | fail =>
    refine hp.of_updates hup ?_
    exact foldl_cancelDescendant (P := fun s' => ∀ root t, now' ≤ t →
      s'.running root t ≤ s.running root (clock 0)) _
      (fun s₁ k item hle _ _ => hput nofun hle) _ (hput nofun hsame)
  | @cancel _ root =>
    refine hp.of_updates hup ?_
    exact foldl_cancelOrdered (P := fun s' => ∀ root t, now' ≤ t →
      s'.running root t ≤ s.running root (clock 0))
      (fun s₁ current run hle _ _ => hput nofun hle) _ hsame
  | close => exact hp.of_updates hup hsame

/-! ## Counting the Agents of a root -/

theorem mem_participating {x : RequiredText} :
    x ∈ s.participating root ↔ ∃ i, s.HasRun i ∧ i.rootRunId = root ∧ i.agentId = x := by
  unfold AgentTreeState.participating
  rw [Dict.mem_fromKeys, List.mem_map]
  constructor
  · rintro ⟨r, hr, rfl⟩
    obtain ⟨hmem, hroot⟩ := List.mem_filter.1 hr
    obtain ⟨k, hget⟩ := Dict.mem_values_iff.1 hmem
    exact ⟨r.identity, ⟨k, r, hget, rfl⟩, of_decide_eq_true hroot, rfl⟩
  · rintro ⟨_, ⟨k, r, hget, rfl⟩, hroot, rfl⟩
    refine ⟨r, List.mem_filter.2 ⟨Dict.mem_values_of_get? hget, ?_⟩, rfl⟩
    exact decide_eq_true hroot

/-- Each Agent is listed once, so what the list is made of bounds its length. -/
theorem length_participating_le {l : List RequiredText}
    (h : ∀ x ∈ s.participating root, x ∈ l) : (s.participating root).length ≤ l.length :=
  (List.subperm_of_subset (Dict.nodup_fromKeys _) h).length_le

/-- No more Agents take part in a root Run than the grant of its Agent allows. -/
def Peopled (s : AgentTreeState) : Prop :=
  ∀ i a, s.HasRun i → s.HasAgent a → a.agentId = i.agentId →
    (s.participating i.runId).length ≤ a.capabilityGrant.maxAgentsPerRoot

theorem Peopled.of_updates (h : Peopled s) (hup : Updates s s') : Peopled s' := by
  intro i a hi ha hname
  refine (length_participating_le fun x hx => ?_).trans (h i a (hup.run hi) (hup.agent ha) hname)
  obtain ⟨j, hj, hroot, hx⟩ := mem_participating.1 hx
  exact mem_participating.2 ⟨j, hup.run hj, hroot, hx⟩

/-- An admission under `root` that brings the Agents `extra` keeps the limit, if there is room for
them. -/
theorem Admission.peopled {items : List SpawnedAgent} (h : Admission s s' items) (hs : Framed s)
    (hp : Peopled s) (root : RequiredText) (extra : List RequiredText)
    (hroot : ∀ item ∈ items, item.run.rootRunId.text ∈ s.runs.keys → item.run.rootRunId = root ∧
      item.run.agentId ∈ s.participating root ++ extra)
    (hroom : ∀ i a, s.HasRun i → s.HasAgent a → a.agentId = i.agentId → i.runId = root →
      (s.participating root).length + extra.length ≤ a.capabilityGrant.maxAgentsPerRoot) :
    Peopled s' := by
  intro i a hi ha hname
  by_cases hkey : i.runId.text ∈ s.runs.keys
  · have hold := h.hasRun_of_key hs.free hi hkey
    have hagent : s.HasAgent a := by
      refine h.hasAgent_of_key hs.free ha ?_
      obtain ⟨k, r, hr, rfl⟩ := hold
      rw [hname]
      exact hs.wired.agent hr
    by_cases heq : i.runId = root
    · have hsub : ∀ x ∈ s'.participating i.runId, x ∈ s.participating root ++ extra := by
        intro x hx
        obtain ⟨j, hj, hjroot, rfl⟩ := mem_participating.1 hx
        rcases h.hasRun hj with hj | ⟨item, hitem, rfl⟩
        · exact List.mem_append_left _ (mem_participating.2 ⟨j, hj, hjroot.trans heq, rfl⟩)
        · have hitemKey : item.run.rootRunId.text ∈ s.runs.keys := by
            have hid : item.run.rootRunId = i.runId := hjroot
            exact hid ▸ hkey
          exact (hroot item hitem hitemKey).2
      refine (length_participating_le hsub).trans ?_
      rw [List.length_append]
      exact hroom i a hold hagent hname heq
    · refine (length_participating_le fun x hx => ?_).trans (hp i a hold hagent hname)
      obtain ⟨j, hj, hjroot, rfl⟩ := mem_participating.1 hx
      rcases h.hasRun hj with hj | ⟨item, hitem, rfl⟩
      · exact mem_participating.2 ⟨j, hj, hjroot, rfl⟩
      · have hid : item.run.rootRunId = i.runId := hjroot
        exact absurd (hid.symm.trans (hroot item hitem (hid ▸ hkey)).1) heq
  · -- a new Run has no Agent but its own
    have hsub : ∀ x ∈ s'.participating i.runId, x ∈ [i.agentId] := by
      intro x hx
      obtain ⟨j, hj, hjroot, rfl⟩ := mem_participating.1 hx
      rcases h.hasRun hj with ⟨k, r, hr, rfl⟩ | ⟨item, hitem, rfl⟩
      · exact absurd (hjroot ▸ hs.wired.root hr) hkey
      · cases (h.admitted item hitem).place with
        | root _ _ hself =>
          have hsame := h.run_unique hs.wired hs.free hs.skeleton hj hi (hself.symm.trans hjroot)
          exact List.mem_singleton.2 (congrArg RunIdentity.agentId hsame)
        | child parent _ _ _ _ hget _ _ hsame =>
          have hid : parent.rootRunId = i.runId := hsame.symm.trans hjroot
          exact absurd (hid ▸ hs.wired.root hget) hkey
    exact (length_participating_le hsub).trans a.capabilityGrant.maxAgentsPerRoot_pos

/-- The root Agent of an Agent that takes part in a root Run is the Agent of that Run. -/
theorem Framed.rootAgent_eq (hs : Framed s) {i root : RunIdentity} {a b : AgentIdentity}
    (hi : s.HasRun i) (hroot : s.HasRun root) (heq : root.runId = i.rootRunId) (hb : s.HasAgent b)
    (hbname : b.agentId = i.agentId) (ha : s.HasAgent a) (haname : a.agentId = root.agentId) :
    a.agentId = b.rootAgentId ∧ b.capabilityGrant.Narrows a.capabilityGrant := by
  have hscope := hs.skeleton.scope hi hroot heq hb hbname
  have hkey : a.agentId = b.rootAgentId := haname.trans hscope.symm
  exact ⟨hkey, (hs.skeleton.root hb ha hkey).2.1⟩

/-- Every call keeps the count of Agents in the limit. -/
theorem peopled_change (hs : Framed s) (hp : Peopled s) {op : TreeOp}
    (h : Change digest clock s op s') : Peopled s' := by
  by_cases hop : op.admits = false
  · exact hp.of_updates (updates_change hs.wired hop h)
  cases h with
  | root command _ hnew hagent =>
    have hnone := Dict.get?_eq_none_iff.1 hnew
    refine (admission_root hs.wired hnew hagent _).peopled hs hp command.runId [] ?_ ?_
    · intro item hitem hkey
      rw [List.mem_singleton] at hitem
      subst hitem
      exact absurd hkey hnone
    · intro i a hi _ _ heq
      exact absurd (heq ▸ hs.wired.hasRun_key hi) hnone
  | @spawn command parentRun parent grants _ hrun _ hparent hdepth hcapacity hgrants =>
    have hstored := (hs.wired.requireRun_eq_ok (AgentTreeState.requireActiveRun_eq_ok hrun).1).1
    obtain ⟨hagent, hkey, -⟩ := hs.wired.requireActiveAgent_eq_ok hparent
    rw [parentRun.agentId.stripped] at hkey
    refine (admission_spawn hs.wired hrun hparent hdepth hgrants _ _ _).peopled hs hp
      parentRun.rootRunId
      ((spawnedItems s command parent parentRun grants).map (·.run.agentId)) ?_ ?_
    · intro item hitem _
      refine ⟨?_, List.mem_append_right _ (List.mem_map.2 ⟨item, hitem, rfl⟩)⟩
      obtain ⟨index, spec, hspec, grant, -, -, rfl⟩ := mem_spawnedItems hitem
      rfl
    · intro i a hi ha hname heq
      have hbound := (hs.rootAgent_eq (AgentTreeState.hasRun_of_get? hstored) hi heq
        (AgentTreeState.hasAgent_of_get? hagent) (RequiredText.ext hkey).symm ha hname).2
      have hlen := (mapM_eq_ok hgrants).length_eq
      rw [List.length_map, length_spawnedItems hlen.symm]
      exact hcapacity.trans hbound.maxAgentsPerRoot
  | @«continue» command requester target requesterAgent root mark hrun _ htarget hrequester
      hscope _ hidle hroot hcapacity =>
    have hstored := (hs.wired.requireRun_eq_ok (AgentTreeState.requireActiveRun_eq_ok hrun).1).1
    obtain ⟨hagent, hkey, -⟩ := hs.wired.requireActiveAgent_eq_ok hrequester
    rw [requester.agentId.stripped] at hkey
    obtain ⟨hrootAgent, hrootKey, -⟩ := hs.wired.requireActiveAgent_eq_ok hroot
    rw [requesterAgent.rootAgentId.stripped] at hrootKey
    have hadmission := admission_continue hs.wired hrun htarget hrequester hscope hidle
      (command.requesterRunId, command.idempotencyKey) mark
      { agent := { target with latestRunId := some (generatedRunId (s.runSequence + 1)) },
        run := continuedRun s command requester target }
    rcases hcapacity with hmember | hfree
    · refine hadmission.peopled hs hp requester.rootRunId [] ?_ ?_
      · intro item hitem _
        rw [List.mem_singleton] at hitem
        subst hitem
        exact ⟨rfl, List.mem_append_left _ hmember⟩
      · intro i a hi ha hname heq
        have := hp i a hi ha hname
        rw [heq] at this
        simpa using this
    · refine hadmission.peopled hs hp requester.rootRunId [target.agentId] ?_ ?_
      · intro item hitem _
        rw [List.mem_singleton] at hitem
        subst hitem
        exact ⟨rfl, List.mem_append_right _ (List.mem_singleton.2 rfl)⟩
      · intro i a hi ha hname heq
        have hid := (hs.rootAgent_eq (AgentTreeState.hasRun_of_get? hstored) hi heq
          (AgentTreeState.hasAgent_of_get? hagent) (RequiredText.ext hkey).symm ha hname).1
        have hsame : a = root.identity :=
          hs.skeleton.agent ha (AgentTreeState.hasAgent_of_get? hrootAgent)
            (hid.trans (RequiredText.ext hrootKey))
        rw [hsame]
        exact hfree
  | _ => exact absurd rfl hop

/-! ## Every point of a run -/

/-- A root command uses no number the repository has still to give out. -/
def HostNames (s : AgentTreeState) : TreeEvent → Prop
  | .idle _ => True
  | .call _ op _ => HostIds s op

/-- The clock does not go back, and the host's names stay apart from the repository's. -/
structure Apart (t : TimedTree) (event : TreeEvent) : Prop where
  forward : Forward t event
  host : HostNames t.state event

/-- The invariant of the limits. -/
structure Limited (t : TimedTree) : Prop where
  framed : Framed t.state
  parallel : Parallel t.state t.now
  peopled : Peopled t.state

theorem limited_step {t : TimedTree} {event : TreeEvent} (ht : Limited t)
    (hevent : Apart t event) : Limited (t.step digest event) := by
  cases event with
  | idle now => exact ⟨ht.framed, ht.parallel.later hevent.forward, ht.peopled⟩
  | call clock op now =>
    obtain ⟨hlast, -, hnow⟩ := hevent.forward
    rcases change_of_step digest t.state (clock, op) with h | h
    · have hsame : t.step digest (.call clock op now) = ⟨t.state, now⟩ :=
        congrArg (TimedTree.mk · now) h
      rw [hsame]
      exact ⟨ht.framed, ht.parallel.later (hlast.trans (hnow 0)), ht.peopled⟩
    · exact ⟨framed_change ht.framed hevent.host h,
        parallel_change ht.framed hnow (ht.parallel.later hlast) h,
        peopled_change ht.framed ht.peopled h⟩

theorem limited_initial (n : Nat) : Limited (TimedTree.initial n) := by
  have hrun : ∀ i, ¬ (TimedTree.initial n).state.HasRun i := by
    rintro i ⟨k, r, hr, -⟩
    have hnone : (TimedTree.initial n).state.runs.get? k = none := rfl
    exact absurd (hnone.symm.trans hr) nofun
  exact ⟨framed_initial n, fun i _ hi => absurd hi (hrun i), fun i _ hi => absurd hi (hrun i)⟩

theorem limited_exec {n : Nat} {run : List TreeEvent}
    (hrun : Along (TimedTree.step digest) Apart (TimedTree.initial n) run) :
    Limited (exec (TimedTree.step digest) (TimedTree.initial n) run) :=
  exec_induction (fun _ _ hevent ht => limited_step ht hevent) hrun (limited_initial n)

end

/-- `root` is a root Run and `agent` its Agent. -/
structure RootOf (s : AgentTreeState) (root : AgentTreeRun) (agent : AgentNode) : Prop where
  run : s.runs.get? root.runId.text = some root
  parent : root.parentRunId = none
  agent : s.agents.get? root.agentId.text = some agent

/-- The limits of every root Run and of every grant. -/
structure WithinLimits (t : TimedTree) : Prop where
  /-- RUNNING Runs whose lease has not run out. -/
  parallel : ∀ root agent, RootOf t.state root agent →
    t.state.running root.runId t.now ≤ agent.capabilityGrant.maxParallelRuns
  /-- Distinct Agents with a Run under the root. -/
  agents : ∀ root agent, RootOf t.state root agent →
    (t.state.participating root.runId).length ≤ agent.capabilityGrant.maxAgentsPerRoot
  /-- The depth of every Agent that takes part. -/
  depth : ∀ root agent k run node, RootOf t.state root agent → t.state.runs.get? k = some run →
    run.rootRunId = root.runId → t.state.agents.get? run.agentId.text = some node →
      node.depth ≤ agent.capabilityGrant.maxDepth
  /-- Authority handed down from a parent Agent. -/
  grants : ∀ k child parentId parent, t.state.agents.get? k = some child →
    child.parentAgentId = some parentId → t.state.agents.get? parentId.text = some parent →
      child.capabilityGrant.Narrows parent.capabilityGrant

/-- **The limits of a root hold at every point.**  The participating Agents of a root are listed
without repetition, so the length of the list is their number. -/
theorem limits_kept (digest : Json → String) (initialRunSequence : Nat) (run : List TreeEvent)
    (hrun : Along (TimedTree.step digest) Apart (TimedTree.initial initialRunSequence) run) :
    WithinLimits (exec (TimedTree.step digest) (TimedTree.initial initialRunSequence) run) := by
  have ht := limited_exec hrun
  obtain ⟨hframed, hparallel, hpeopled⟩ := ht
  have hname : ∀ {id : RequiredText} {node : AgentNode},
      (exec (TimedTree.step digest) (TimedTree.initial initialRunSequence) run).state.agents.get?
        id.text = some node → node.identity.agentId = id :=
    fun hget => (RequiredText.ext (hframed.wired.agent_key hget)).symm
  constructor
  · intro root agent hroot
    exact hparallel root.identity agent.identity (AgentTreeState.hasRun_of_get? hroot.run)
      (AgentTreeState.hasAgent_of_get? hroot.agent) (hname hroot.agent) _ le_rfl
  · intro root agent hroot
    exact hpeopled root.identity agent.identity (AgentTreeState.hasRun_of_get? hroot.run)
      (AgentTreeState.hasAgent_of_get? hroot.agent) (hname hroot.agent)
  · intro root agent k r node hroot hget hr hnode
    have hkey := (hframed.rootAgent_eq (AgentTreeState.hasRun_of_get? hget)
      (AgentTreeState.hasRun_of_get? hroot.run) hr.symm (AgentTreeState.hasAgent_of_get? hnode)
      (hname hnode) (AgentTreeState.hasAgent_of_get? hroot.agent) (hname hroot.agent)).1
    exact (hframed.skeleton.root (AgentTreeState.hasAgent_of_get? hnode)
      (AgentTreeState.hasAgent_of_get? hroot.agent) hkey).2.2
  · intro k child parentId parent hchild hparent hget
    refine (hframed.skeleton.edge (AgentTreeState.hasAgent_of_get? hchild)
      (AgentTreeState.hasAgent_of_get? hget) ?_).2.2
    rw [hname hget]
    exact hparent

open Sample in
/-- A root and its first child, which a worker holds. -/
theorem limits_kept_claimed :
    WithinLimits (exec (TimedTree.step fun _ => "") (TimedTree.initial 0)
      [callAt 0 (begin rootId 3 (by decide)), callAt 0 (spawn rootId),
        callAt 5 (.claimRun "agent-run-1" "worker" 30000)]) :=
  limits_kept (fun _ => "") 0 _
    ⟨⟨forward_callAt le_rfl, fun n _ => rootId_ne_generated n, fun n _ => word_ne_generated n⟩,
      ⟨forward_callAt le_rfl, trivial⟩, ⟨forward_callAt (Nat.zero_le 5), trivial⟩, trivial⟩

end Purra
