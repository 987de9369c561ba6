import Purra.AgentTree.Identity

/-!
# After a worker has crashed

A worker that crashes leaves its Run under a lease that runs out.  `list_runnable` offers such a
Run to the next worker and `claim_run` gives it away, each by a predicate of its own on status,
owner, epoch and expiry.

* `Leased` — a Run with a lease is stored under its own id, whatever it was suspended by.
* `Recoverable` — a Run is offered, and given to whoever asks while a slot is free.
* `recoverable_iff` — **among the Runs whose lease has run out, the recoverable ones are those
  that are RUNNING** under a root Agent that is open.  A Run that was WAITING for its children when
  its worker crashed is neither offered nor given away.
-/

namespace Purra

open Purra.Action RunTree

/-! ## Checked traversals -/

theorem filterM_eq_ok {ε α : Type} {f : α → Except ε Bool} {g : α → Bool} {l : List α}
    (h : ∀ x ∈ l, f x = .ok (g x)) : l.filterM f = .ok (l.filter g) := by
  have haux : ∀ (l acc : List α), (∀ x ∈ l, f x = .ok (g x)) →
      l.filterAuxM f acc = .ok ((l.filter g).reverse ++ acc) := by
    intro l
    induction l with
    | nil =>
      intro acc _
      rfl
    | cons x l ih =>
      intro acc h
      rw [List.filterAuxM, h x (List.mem_cons_self ..)]
      refine (ih _ fun y hy => h y (List.mem_cons_of_mem x hy)).trans ?_
      cases hg : g x <;> simp [hg]
  rw [List.filterM, haux l [] h]
  show Except.ok _ = _
  simp

theorem allM_eq_ok {ε α : Type} {f : α → Except ε Bool} {g : α → Bool} :
    ∀ {l : List α}, (∀ x ∈ l, f x = .ok (g x)) → l.allM f = .ok (l.all g) := by
  intro l
  induction l with
  | nil => intro _; rfl
  | cons x l ih =>
    intro h
    have hx := h x (List.mem_cons_self ..)
    have hl := ih fun y hy => h y (List.mem_cons_of_mem x hy)
    rw [List.allM, hx]
    cases hg : g x with
    | true =>
      rw [List.all_cons, hg, Bool.true_and]
      exact hl
    | false =>
      rw [List.all_cons, hg, Bool.false_and]
      rfl

section

variable {digest : Json → String} {clock : Nat → Nat} {s s' : AgentTreeState}

/-! ## Dependencies -/

/-- Whether the record of a Run has ended. -/
def AgentTreeState.ended (s : AgentTreeState) (id : RequiredText) : Bool :=
  ((s.runs.get? id.text).map (·.terminal)).getD false

variable {r : AgentTreeRun}

/-- Looking the dependencies of a stored Run up does not raise. -/
theorem Wired.dependenciesEnded (h : Wired s) {k : String}
    (hr : s.runs.get? k = some r) : s.dependenciesEnded r = .ok (r.dependencyRunIds.all s.ended) := by
  refine allM_eq_ok fun d hd => ?_
  obtain ⟨record, hget⟩ := Dict.mem_keys_iff.1 (h.dependency hr hd)
  rw [AgentTreeState.requireRun_text.2 hget]
  show Except.ok record.terminal = _
  rw [AgentTreeState.ended, hget]
  rfl

/-! ## Leases are held under the Run's own id -/

/-- A Run with a lease is stored under its own id. -/
def Leased (s : AgentTreeState) : Prop :=
  ∀ k r, s.runs.get? k = some r → r.leaseOwnerId ≠ none → k = r.runId.text

theorem Leased.putRun (h : Leased s) {key : String} (v : AgentTreeRun)
    (hkey : v.leaseOwnerId ≠ none → key = v.runId.text) : Leased (s.putRun key v) := by
  intro k r hr hlease
  simp only [AgentTreeState.putRun, Dict.get?_set] at hr
  split at hr
  · cases hr
    rename_i hk
    exact hk.trans (hkey hlease)
  · exact h k r hr hlease

theorem Admission.leased {items : List SpawnedAgent} (h : Admission s s' items) (hs : Leased s) :
    Leased s' := by
  intro k r hr hlease
  rcases h.get?_run_cases hr with ⟨item, -, rfl, rfl⟩ | hr
  · rfl
  · exact hs k r hr hlease

theorem leased_change (hs : Wired s) (hl : Leased s) {op : TreeOp}
    (h : Change digest clock s op s') : Leased s' := by
  cases h with
  | root _ _ hnew hagent => exact (admission_root hs hnew hagent _).leased hl
  | spawn hrun _ hparent hdepth _ hgrants =>
    exact (admission_spawn hs hrun hparent hdepth hgrants _ _ _).leased hl
  | «continue» hrun _ htarget hrequester hscope _ hidle =>
    exact (admission_continue hs hrun htarget hrequester hscope hidle _ _ _).leased hl
  | claim => exact hl.putRun (AgentTreeRun.claimedBy _ _ _) fun _ => rfl
  | suspend _ run => exact hl.putRun run.suspended fun h => absurd rfl h
  | renew _ renewed _ _ _ _ hrenewed =>
    have hid := AgentTreeRun.runId_of_identity (AgentTreeRun.renewed_eq_ok hrenewed).1
    exact hl.putRun renewed fun _ => congrArg RequiredText.text hid.symm
  | wait => exact hl.putRun (AgentTreeRun.waiting _) fun _ => rfl
  | release => exact hl.putRun (AgentTreeRun.resumed _) fun _ => rfl
  | number => exact hl
  | complete _ completed =>
    exact hl.putRun completed fun _ => rfl
  | fail =>
    refine foldl_cancelDescendant _ (fun s k item hl _ _ => ?_) _
      (hl.putRun (AgentTreeRun.failedWith _ _) fun _ => rfl)
    exact Leased.putRun hl (item.canceledWith ancestorRunFailed) fun _ => rfl
  | cancel =>
    refine foldl_cancelOrdered (fun s current run hl _ _ => ?_) _ hl
    exact Leased.putRun hl (run.canceledWith agentRunCanceled) fun h => absurd rfl h
  | close => exact hl

theorem leased_initial (n : Nat) : Leased (AgentTreeState.initial n) := by
  intro k r hr
  have hnone : (AgentTreeState.initial n).runs.get? k = none := rfl
  rw [hnone] at hr
  cases hr

theorem leased_exec (digest : Json → String) (n : Nat) (run : List ((Nat → Nat) × TreeOp)) :
    Wired (exec (AgentTreeState.step digest) (AgentTreeState.initial n) run) ∧
      Leased (exec (AgentTreeState.step digest) (AgentTreeState.initial n) run) := by
  refine exec_induction_of_all (I := fun s => Wired s ∧ Leased s) (fun s event hs => ?_) run
    ⟨wired_initial n, leased_initial n⟩
  refine ⟨wired_step event hs.1, ?_⟩
  rcases change_of_step digest s event with h | h
  · rw [h]
    exact hs.2
  · exact leased_change hs.1 hs.2 h

/-! ## Recovery -/

/-- The Agent of the root Run of a Run. -/
def AgentTreeState.rootAgentOf (s : AgentTreeState) (r : AgentTreeRun) : Option AgentNode :=
  (s.runs.get? r.rootRunId.text).bind fun root => s.agents.get? root.agentId.text

/-- Fewer Runs of the root are RUNNING under a lease in time than its Agent may have. -/
def SlotFree (s : AgentTreeState) (now : Nat) (r : AgentTreeRun) : Prop :=
  ∃ root, s.rootAgentOf r = some root ∧
    s.runs.values.countP (·.occupies r.rootRunId now) < root.capabilityGrant.maxParallelRuns

/-- The root Agent of a Run is open. -/
def RootOpen (s : AgentTreeState) (r : AgentTreeRun) : Prop :=
  ∃ root, s.rootAgentOf r = some root ∧ root.state = .active

/-- A Run is offered to the workers of its root, and given to whoever asks while a slot is free. -/
structure Recoverable (s : AgentTreeState) (now : Nat) (r : AgentTreeRun) : Prop where
  offered : ∃ runs, listRunnable (fun _ => now) r.rootRunId.text s = .ok runs ∧ r ∈ runs
  given : SlotFree s now r → ∀ (ownerId : String) (leaseDurationMs : Int), strip ownerId ≠ "" →
    0 < leaseDurationMs → ∃ claimed,
      (claimRun (fun _ => now) r.runId.text ownerId leaseDurationMs s).1 = .ok (some claimed)

/-! ## Which Runs are offered -/

namespace AgentTreeRun

/-- The status and lease under which `list_runnable` offers a Run. -/
def offerable (run : AgentTreeRun) (now : Nat) : Bool :=
  run.status = .queued || (run.status = .waiting && run.leaseOwnerId = none && 0 < run.leaseEpoch) ||
    (run.status = .running && run.leaseExpired now)

/-- The two predicates agree on Runs that are not queued. -/
theorem offerable_eq (run : AgentTreeRun) (now : Nat) :
    run.offerable now = (decide (run.status = .queued) || run.reclaimable now) := by
  cases hstatus : run.status <;>
    simp [offerable, reclaimable, leaseExpired, hstatus, AgentTreeRunStatus.live]

/-- A Run under a lease that has run out may be taken if and only if it is RUNNING. -/
theorem reclaimable_of_leaseExpired {run : AgentTreeRun} {now : Nat}
    (h : run.leaseExpired now = true) : run.reclaimable now = true ↔ run.status = .running := by
  unfold leaseExpired at h
  rw [Bool.and_eq_true] at h
  obtain ⟨hlive, hexpiry⟩ := h
  have hheld : run.leaseOwnerId ≠ none := by
    intro hnone
    rw [run.lease_paired.1 hnone] at hexpiry
    cases hexpiry
  cases hstatus : run.status with
  | running =>
    refine iff_of_true ?_ rfl
    rw [reclaimable, hstatus, hexpiry]
    rfl
  | waiting =>
    refine iff_of_false ?_ nofun
    simp [reclaimable, hstatus, hheld]
  | queued => simp [hstatus, AgentTreeRunStatus.live] at hlive
  | done => simp [hstatus, AgentTreeRunStatus.live] at hlive
  | failed => simp [hstatus, AgentTreeRunStatus.live] at hlive
  | canceled => simp [hstatus, AgentTreeRunStatus.live] at hlive

theorem not_queued_of_leaseExpired {run : AgentTreeRun} {now : Nat}
    (h : run.leaseExpired now = true) : run.status ≠ .queued := by
  intro hstatus
  simp [leaseExpired, hstatus, AgentTreeRunStatus.live] at h

end AgentTreeRun

/-- `list_runnable` offers the Runs of a root that may be taken and whose dependencies have
ended. -/
theorem Wired.listRunnable (h : Wired s) (root : RequiredText) (now : Nat) :
    ∃ runs, RunTree.listRunnable (fun _ => now) root.text s = .ok runs ∧
      ∀ r, r ∈ runs ↔ (∃ k, s.runs.get? k = some r) ∧ r.rootRunId = root ∧
        r.dependencyRunIds.all s.ended = true ∧ r.offerable now = true := by
  have hselect : runnable s root now = .ok (s.runs.values.filter fun r =>
      decide (r.rootRunId = root) && (r.dependencyRunIds.all s.ended && r.offerable now)) := by
    refine filterM_eq_ok fun r hr => ?_
    obtain ⟨k, hget⟩ := Dict.mem_values_iff.1 hr
    by_cases hroot : r.rootRunId = root
    · simp only [hroot, if_true]
      rw [h.dependenciesEnded hget]
      simp [AgentTreeRun.offerable]
    · simp only [hroot, if_false]
      rfl
  unfold RunTree.listRunnable
  rw [RequiredText.of_text]
  show ∃ runs, (runnable s root now >>= _) = _ ∧ _
  rw [hselect]
  refine ⟨_, rfl, fun r => ?_⟩
  rw [List.mem_mergeSort, List.mem_filter, Dict.mem_values_iff]
  simp

/-! ## Recovery, exactly -/

/-- An Agent that a Run names is there. -/
theorem Wired.rootAgentOf (h : Wired s) {k : String}
    (hr : s.runs.get? k = some r) : ∃ rootRun root, s.runs.get? r.rootRunId.text = some rootRun ∧
      s.agents.get? rootRun.agentId.text = some root ∧ s.rootAgentOf r = some root := by
  obtain ⟨rootRun, hrun⟩ := Dict.mem_keys_iff.1 (h.root hr)
  obtain ⟨root, hroot⟩ := Dict.mem_keys_iff.1 (h.agent hrun)
  refine ⟨rootRun, root, hrun, hroot, ?_⟩
  rw [AgentTreeState.rootAgentOf, hrun, Option.bind_some, hroot]

/-- A Run that may be taken is given to whoever asks for it, if and only if the root Agent is
open. -/
theorem given_iff (h : Wired s) {now : Nat}
    (hr : s.runs.get? r.runId.text = some r) (hready : s.dependenciesEnded r = .ok true)
    (hstatus : r.status = .queued ∨ r.reclaimable now = true) (hslot : SlotFree s now r) :
    (∀ (ownerId : String) (leaseDurationMs : Int), strip ownerId ≠ "" → 0 < leaseDurationMs →
      ∃ claimed, (claimRun (fun _ => now) r.runId.text ownerId leaseDurationMs s).1 =
        .ok (some claimed)) ↔ RootOpen s r := by
  obtain ⟨rootRun, root, hrun, hroot, hof⟩ := h.rootAgentOf hr
  constructor
  · intro hgiven
    obtain ⟨claimed, hclaimed⟩ := hgiven "worker" 1 (by decide) (by decide)
    obtain ⟨-, -, -, -, run, hget, -, -, found, hfound, agent, hagent, -⟩ :=
      claimRun_eq_some.1 (Prod.ext hclaimed rfl)
    rw [AgentTreeState.requireRun_text, hr] at hget
    cases hget
    rw [AgentTreeState.requireRun_text, hrun] at hfound
    cases hfound
    obtain ⟨hagent, hopen⟩ := AgentTreeState.requireActiveAgent_eq_ok hagent
    rw [AgentTreeState.requireAgent_text, hroot] at hagent
    cases hagent
    exact ⟨root, hof, hopen⟩
  · rintro ⟨agent, hagent, hopen⟩ ownerId duration howner hduration
    rw [hof] at hagent
    cases hagent
    obtain ⟨agent, hagent, hfree⟩ := hslot
    rw [hof] at hagent
    cases hagent
    refine ⟨_, congrArg Prod.fst (claimRun_eq_some.2 ⟨⟨strip ownerId, strip_strip _, howner⟩,
      RequiredText.of_eq_ok.2 rfl, duration.toNat, if_neg (not_le.2 hduration), r,
      AgentTreeState.requireRun_text.2 hr, hstatus, hready, rootRun,
      AgentTreeState.requireRun_text.2 hrun, root, ?_, hfree, rfl, rfl⟩)⟩
    show (s.requireAgent rootRun.agentId.text >>= _) = _
    rw [AgentTreeState.requireAgent_text.2 hroot]
    exact if_neg (by simp [hopen])

/-- In a wired state, a Run whose lease has run out is recoverable if and only if it is RUNNING and
its root Agent is open when a slot is free. -/
theorem recoverable_of_wired (h : Wired s) (hl : Leased s) {now : Nat} {k : String}
    (hr : s.runs.get? k = some r)
    (hready : ∀ d ∈ r.dependencyRunIds, ∃ u, s.runs.get? d.text = some u ∧ u.terminal = true)
    (hexpired : r.leaseExpired now = true) :
    Recoverable s now r ↔ r.status = .running ∧ (SlotFree s now r → RootOpen s r) := by
  have hreclaim := AgentTreeRun.reclaimable_of_leaseExpired hexpired
  have hqueued := AgentTreeRun.not_queued_of_leaseExpired hexpired
  have hheld : r.leaseOwnerId ≠ none := by
    intro hnone
    rw [AgentTreeRun.leaseExpired, r.lease_paired.1 hnone, Bool.and_false] at hexpired
    cases hexpired
  have hstored : s.runs.get? r.runId.text = some r := hl k r hr hheld ▸ hr
  have hended : r.dependencyRunIds.all s.ended = true := by
    refine List.all_eq_true.2 fun d hd => ?_
    obtain ⟨u, hu, hterminal⟩ := hready d hd
    rw [AgentTreeState.ended, hu]
    exact hterminal
  have hok : s.dependenciesEnded r = .ok true := by
    rw [h.dependenciesEnded hr, hended]
  obtain ⟨runs, hruns, hmem⟩ := h.listRunnable r.rootRunId now
  have hoffered : r ∈ runs ↔ r.status = .running := by
    rw [hmem, r.offerable_eq]
    simp [hqueued, hended, hreclaim, show ∃ k, s.runs.get? k = some r from ⟨k, hr⟩]
  constructor
  · rintro ⟨⟨listed, hlisted, hin⟩, hgiven⟩
    have hrunning : r.status = .running := by
      rw [hruns] at hlisted
      cases hlisted
      exact hoffered.1 hin
    refine ⟨hrunning, fun hslot => ?_⟩
    exact (given_iff h hstored hok (Or.inr (hreclaim.2 hrunning)) hslot).1 (hgiven hslot)
  · rintro ⟨hrunning, hopen⟩
    refine ⟨⟨runs, hruns, hoffered.2 hrunning⟩, fun hslot => ?_⟩
    exact (given_iff h hstored hok (Or.inr (hreclaim.2 hrunning)) hslot).2 (hopen hslot)

end

/-- **What can be recovered after a crash.**  In every state the repository reaches and at every
time, a Run whose dependencies have ended and whose lease has run out is offered and given away if
and only if it is RUNNING, and its root Agent is open when a slot is free.  A WAITING one is not. -/
theorem recoverable_iff (digest : Json → String) (initialRunSequence : Nat)
    (run : List ((Nat → Nat) × TreeOp)) (now : Nat) (k : String) (r : AgentTreeRun)
    (hr : (exec (AgentTreeState.step digest) (AgentTreeState.initial initialRunSequence)
      run).runs.get? k = some r)
    (hready : ∀ d ∈ r.dependencyRunIds, ∃ u,
      (exec (AgentTreeState.step digest) (AgentTreeState.initial initialRunSequence)
        run).runs.get? d.text = some u ∧ u.terminal = true)
    (hexpired : r.leaseExpired now = true) :
    Recoverable (exec (AgentTreeState.step digest) (AgentTreeState.initial initialRunSequence) run)
      now r ↔ r.status = .running ∧
        (SlotFree (exec (AgentTreeState.step digest) (AgentTreeState.initial initialRunSequence) run)
          now r →
        RootOpen (exec (AgentTreeState.step digest) (AgentTreeState.initial initialRunSequence) run)
          r) := by
  obtain ⟨hwired, hleased⟩ := leased_exec digest initialRunSequence run
  exact recoverable_of_wired hwired hleased hr hready hexpired

/-! ### A crash while waiting -/

namespace Sample

/-- A child runs under a lease of one millisecond. -/
def leased : List ((Nat → Nat) × TreeOp) :=
  [at_ 0 (begin rootId 3 three_slots), at_ 0 (spawn rootId),
    at_ 0 (.claimRun "agent-run-1" "worker" 1)]

/-- The child waits, and nobody comes back to it. -/
def stranded : List ((Nat → Nat) × TreeOp) :=
  leased ++ [at_ 0 (.markWaiting "agent-run-1" (some "worker") (some 1))]

end Sample

open Sample in
theorem stranded_state :
    ((after stranded).runs.get? "agent-run-1").map (fun r => (r.status, r.parentRunId,
      r.dependencyRunIds, r.leaseExpired 5)) = some (.waiting, some rootId, [], true) ∧
    ((after leased).runs.get? "agent-run-1").map (fun r => (r.status, r.dependencyRunIds,
      r.leaseExpired 5)) = some (.running, [], true) := by
  decide +kernel

open Sample in
/-- A child that was waiting when its worker crashed is not recoverable, although its lease has run
out and a slot is free. -/
theorem waiting_stranded : ∃ r, (after stranded).runs.get? "agent-run-1" = some r ∧
    r.parentRunId = some rootId ∧ r.dependencyRunIds = [] ∧ r.leaseExpired 5 = true ∧
      ¬ Recoverable (after stranded) 5 r := by
  obtain ⟨r, hr, hfields⟩ := Option.map_eq_some_iff.1 stranded_state.1
  simp only [Prod.mk.injEq] at hfields
  obtain ⟨hstatus, hparent, hdeps, hexpired⟩ := hfields
  refine ⟨r, hr, hparent, hdeps, hexpired, fun h => ?_⟩
  obtain ⟨hwired, hleased⟩ := leased_exec (fun _ => "") 0 stranded
  have hrunning := ((recoverable_of_wired hwired hleased hr (by rw [hdeps]; nofun) hexpired).1 h).1
  rw [hstatus] at hrunning
  cases hrunning

open Sample in
/-- The child whose worker crashed while it ran. -/
theorem recoverable_iff_leased : ∃ r, (after leased).runs.get? "agent-run-1" = some r ∧
    (Recoverable (after leased) 5 r ↔
      r.status = .running ∧ (SlotFree (after leased) 5 r → RootOpen (after leased) r)) := by
  obtain ⟨r, hr, hfields⟩ := Option.map_eq_some_iff.1 stranded_state.2
  simp only [Prod.mk.injEq] at hfields
  obtain ⟨-, hdeps, hexpired⟩ := hfields
  exact ⟨r, hr, recoverable_iff (fun _ => "") 0 leased 5 "agent-run-1" r hr
    (by rw [hdeps]; nofun) hexpired⟩

end Purra
