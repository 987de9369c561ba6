import Purra.LongTask.Runs

/-!
# The scheduler and the finalizer

`_claim_unit` decides which unit a worker may take; `_has_runnable_work`, written a
second time, decides whether `finalize_if_complete` and a settlement may stop the
task for lack of work.  The two agree on units that wait and on units under a live
lease.  They do not agree on a unit whose lease lapsed with attempts left: the
scheduler hands it out, the finalizer does not count it.

* `NoRequiredFailure` — a task that has not stopped has no failed required unit; an
  invariant of every run.
* `status_finalize_iff`, `status_settle_iff` — when the two operations leave the task
  running.
* `schedulers_agree_iff` — in every reachable repository.
-/

namespace Purra

open StoredLongTask LongTaskRepository

/-! ## A task that has not stopped -/

/-- No required unit of a task that has not stopped has failed. -/
def NoRequiredFailure (status : LongTaskStatus) (units : Dict String LongTaskUnitRecord) : Prop :=
  status = .pending ∨ status = .running →
    ∀ k unit, units.get? k = some unit → unit.required = true → unit.status ≠ .failed

variable {units : Dict String LongTaskUnitRecord}

theorem noRequiredFailure_set {k : String}
    {v : LongTaskUnitRecord} (hv : v.status ≠ .failed) {status status' : LongTaskStatus}
    (hstatus : status = .pending ∨ status = .running)
    (h : NoRequiredFailure status units) : NoRequiredFailure status' (units.set k v) := by
  intro _ k' unit hget hreq
  rw [Dict.get?_set] at hget
  split at hget
  · cases hget
    exact hv
  · exact h hstatus k' unit hget hreq

theorem noRequiredFailure_lapsed {now : Int} {units' : Dict String LongTaskUnitRecord}
    (hrel : Dict.Rel (Lapsed now) units units') {status status' : LongTaskStatus}
    (hstatus : status = .pending ∨ status = .running)
    (h : NoRequiredFailure status units) : NoRequiredFailure status' units' := by
  intro _ k unit hget hreq
  obtain ⟨u, hu, rfl | ⟨hhalted, -, hoptional, -⟩⟩ := hrel.get?_left hget
  · exact h hstatus k _ hu hreq
  · rw [hhalted.required, hoptional] at hreq
    cases hreq

theorem Split.noRequiredFailure {task : StoredLongTask} {parent : LongTaskUnitRecord}
    {split : LongTaskSplitResult}
    (hsplit : Split task parent split units) (hrunning : task.record.status = .running)
    (h : NoRequiredFailure task.record.status task.units) : NoRequiredFailure .running units := by
  intro _ k unit hget hreq
  obtain ⟨u, hu | ⟨child, -, -, rfl⟩, rfl⟩ := hsplit.get?_iff.1 hget
  · exact h (Or.inr hrunning) k u hu hreq
  · simp [childUnit, unitFromSpec]

theorem Move.noRequiredFailure {now : Int} {task : StoredLongTask} {e : TaskEvent}
    {granted : Option LongTaskUnitRecord}
    {status : LongTaskStatus} (hmove : Move now task e granted units status)
    (h : NoRequiredFailure task.record.status task.units) : NoRequiredFailure status units := by
  have hactive : ∀ {s : LongTaskUnitStatus}, s.active = true → s ≠ .failed := by
    rintro s hs rfl
    cases hs
  cases hmove with
  | stay => exact h
  | start pending => exact fun _ => h (Or.inl pending)
  | halt hrel hstatus =>
    intro hs k unit hget hreq
    rcases hstatus with rfl | rfl | rfl | ⟨rfl, hnone⟩
    · simp at hs
    · simp at hs
    · simp at hs
    · -- nothing is required, before or after
      obtain ⟨u, hu, hh⟩ := hrel.get?_left hget
      have hany : task.hasRequired = true :=
        List.any_eq_true.2 ⟨u, Dict.mem_values_of_get? hu, hh.required ▸ hreq⟩
      rw [hnone] at hany
      cases hany
  | resume hrel =>
    intro _ k unit hget _
    obtain ⟨u, -, hh⟩ := hrel.get?_left hget
    exact hh.unfailed
  | finalFailed | finalCompleted | finalPaused | interrupt =>
    intro hs
    simp at hs
  | lapse hrel running => exact noRequiredFailure_lapsed hrel (Or.inr running) h
  | grant hrel running =>
    have hlapsed : NoRequiredFailure .running _ :=
      noRequiredFailure_lapsed hrel (Or.inr running) h
    exact noRequiredFailure_set (by simp [LongTaskUnitRecord.claimed]) (Or.inr rfl) hlapsed
  | hold holds _ active =>
    exact noRequiredFailure_set (hactive active) (Or.inr holds.running) h
  | settle holds _ _ unfailed => exact noRequiredFailure_set unfailed (Or.inr holds.running) h
  | expand holds _ _ _ checked prospective =>
    exact noRequiredFailure_set (by simp [LongTaskUnitRecord.expandedBy]) (Or.inr rfl)
      ((split_of_prospective checked prospective).noRequiredFailure holds.running h)

theorem noRequiredFailure_reachable {pyStr : Json → String} (run : List (Int × LongTaskOp)) :
    (exec (LongTaskState.step pyStr) .empty run).All fun task =>
      UnitsSound task.units ∧ NoRequiredFailure task.record.status task.units := by
  refine all_of_run (fun k command => ⟨unitsSound_newTask k command, ?_⟩)
    (fun now e task h => ⟨unitsSound_apply now e task h.1,
      (e.apply_move h.1).noRequiredFailure h.2⟩) run (all_empty _)
  intro _ k' unit hget _
  obtain ⟨spec, -, -, rfl⟩ := get?_newTask.1 hget
  simp [unitFromSpec]

/-! ## The two operations on a running task -/

section

variable {now : Int} {task : StoredLongTask}

theorem mem_completed {id : String} :
    id ∈ task.completed ↔
      ∃ k unit, task.units.get? k = some unit ∧ unit.status = .completed ∧ unit.id = id := by
  unfold StoredLongTask.completed
  simp only [List.mem_map, List.mem_filter, Dict.mem_values_iff, decide_eq_true_eq]
  constructor
  · rintro ⟨unit, ⟨⟨k, hk⟩, hc⟩, hid⟩
    exact ⟨k, unit, hk, hc, hid⟩
  · rintro ⟨k, unit, hk, hc, hid⟩
    exact ⟨unit, ⟨⟨k, hk⟩, hc⟩, hid⟩

theorem dependenciesCompleted_congr {task' : StoredLongTask}
    (h : ∀ id, id ∈ task'.completed ↔ id ∈ task.completed) (unit : LongTaskUnitRecord) :
    task'.dependenciesCompleted unit = task.dependenciesCompleted unit := by
  unfold dependenciesCompleted
  congr 1
  funext id
  simp only [h id]

theorem hasRunnableWork_iff :
    task.hasRunnableWork now = true ↔
      ∃ k unit, task.units.get? k = some unit ∧ task.runnable now unit = true := by
  unfold hasRunnableWork
  rw [List.any_eq_true]
  constructor
  · rintro ⟨unit, hmem, hrun⟩
    obtain ⟨k, hk⟩ := Dict.mem_values_iff.1 hmem
    exact ⟨k, unit, hk, hrun⟩
  · rintro ⟨k, unit, hk, hrun⟩
    exact ⟨unit, Dict.mem_values_of_get? hk, hrun⟩

/-- Once an active unit is blocked, the runnable units are the others. -/
theorem hasRunnableWork_block {unit unit' : LongTaskUnitRecord}
    (hstored : task.units.get? unit.id = some unit) (hactive : unit.status.active = true)
    (hblocked : unit'.status = .blocked) :
    StoredLongTask.hasRunnableWork { task with units := task.units.set unit.id unit' } now = true ↔
      ∃ k other, task.units.get? k = some other ∧ k ≠ unit.id ∧
        task.runnable now other = true := by
  have hcompleted : ∀ id,
      id ∈ StoredLongTask.completed { task with units := task.units.set unit.id unit' } ↔
        id ∈ task.completed := by
    intro id
    simp only [mem_completed, Dict.get?_set]
    constructor
    · rintro ⟨k, u, hget, hc, hid⟩
      split at hget
      · cases hget
        rw [hblocked] at hc
        cases hc
      · exact ⟨k, u, hget, hc, hid⟩
    · rintro ⟨k, u, hget, hc, hid⟩
      refine ⟨k, u, ?_, hc, hid⟩
      rw [if_neg]
      · exact hget
      · rintro rfl
        rw [hstored] at hget
        cases hget
        rw [hc] at hactive
        cases hactive
  have hrunnable : ∀ u,
      StoredLongTask.runnable { task with units := task.units.set unit.id unit' } now u =
        task.runnable now u := by
    intro u
    unfold runnable
    rw [dependenciesCompleted_congr hcompleted]
  have hnot : task.runnable now unit' = false := by
    unfold runnable LongTaskUnitRecord.live
    rw [hblocked]
    rfl
  rw [hasRunnableWork_iff]
  simp only [hrunnable, Dict.get?_set]
  constructor
  · rintro ⟨k, u, hget, hrun⟩
    split at hget
    · cases hget
      rw [hnot] at hrun
      cases hrun
    · exact ⟨k, u, hget, ‹_›, hrun⟩
  · rintro ⟨k, u, hget, hne, hrun⟩
    exact ⟨k, u, by rw [if_neg hne]; exact hget, hrun⟩

/-- `finalize_if_complete` leaves a running task alone or completes it exactly when its own test
finds work or nothing required is left to do. -/
theorem status_finalize_iff
    (hinv : NoRequiredFailure task.record.status task.units)
    (hrunning : task.record.status = .running)
    (hcancel : task.record.cancellationRequestedAtMs = none)
    (hdeadline : task.deadlineElapsed now = false) :
    let left := (TaskEvent.call .finalizeIfComplete).apply now task
    (left.record.status ≠ .failed ∧ left.record.status ≠ .paused ↔
      task.hasRunnableWork now = true ∨ task.requiredUnits.all (·.status = .completed) = true) := by
  intro left
  have hleft : left = (LongTaskRepository.finalizeIfComplete now).final task :=
    Action.final_map _ _ _
  have hfailed : task.requiredUnits.any (·.status = .failed) = false := by
    rw [List.any_eq_false]
    intro unit hmem
    obtain ⟨⟨k, hk⟩, hreq⟩ := mem_requiredUnits.1 hmem
    simpa using hinv (Or.inr hrunning) k unit hk hreq
  rw [hleft]
  unfold LongTaskRepository.finalizeIfComplete
  simp only [Action.final_read_bind, Action.final_ite, TaskAction.final_bind_record,
    TaskAction.final_record, hdeadline, hcancel, hrunning, hfailed, Bool.false_eq_true, if_false,
    Option.isSome_none, ne_eq, not_true_eq_false]
  by_cases hdone : task.requiredUnits.all (·.status = .completed) = true
  · rw [if_pos hdone, TaskAction.status_setStatus]
    simp [hdone]
  rw [if_neg hdone]
  by_cases hwork : task.hasRunnableWork now = true
  · simp [hwork, hrunning]
  · simp only [hwork, hdone, Bool.false_eq_true, not_false_eq_true, and_true, if_true, or_self,
      iff_false]
    split
    · rw [TaskAction.status_setStatus]
      simp
    · -- a required unit is stranded, and its failure takes the task
      have hsome : ∃ unit, task.requiredUnits.find? (·.status ≠ .completed) = some unit := by
        rw [← Option.isSome_iff_exists, List.find?_isSome]
        simpa using hdone
      obtain ⟨unit, hfind⟩ := hsome
      obtain ⟨⟨k, hk⟩, hreq⟩ := mem_requiredUnits.1 (List.mem_of_find?_eq_some hfind)
      have hany : StoredLongTask.hasRequired
          { task with units := task.units.set unit.stranded.id unit.stranded } = true :=
        List.any_eq_true.2
          ⟨unit.stranded, Dict.mem_values_of_get? (Dict.get?_set_self _ _ _), hreq⟩
      rw [hfind]
      simp only [TaskAction.final_setUnit_bind, TaskAction.final_bind_record]
      rw [TaskAction.status_failTask, if_pos hany]
      simp

/-- Settling one unit as recoverable leaves the task running exactly when another unit is still
runnable. -/
theorem status_settle_iff (hs : UnitsSound task.units) {unitId workerId worker : String}
    {leaseEpoch : Int} {decision : FailureDecision} {unit : LongTaskUnitRecord}
    (hdisposition : decision.disposition = .pauseRecoverable)
    (hscope : decision.scope = .local) (hdeadline : task.deadlineElapsed now = false)
    (hfound : task.lookupUnit unitId = some unit)
    (hheld : task.heldBy now unit workerId leaseEpoch = some worker) :
    let left := (TaskEvent.call (.settleUnitFailure unitId workerId leaseEpoch decision)).apply
      now task
    (left.record.status ≠ .failed ∧ left.record.status ≠ .paused ↔
      ∃ k other, task.units.get? k = some other ∧ k ≠ unit.id ∧
        task.runnable now other = true) := by
  intro left
  have hleft : left = (LongTaskRepository.settleUnitFailure now unitId workerId leaseEpoch
      decision).final task := Action.final_map _ _ _
  have hclaim := holdsClaim_of_heldBy hheld
  have hstored := get?_of_lookupUnit hs hfound
  have hrunning := running_of_holdsClaim hclaim
  have hactive := active_of_live (live_of_holdsClaim hclaim)
  have hblocked : (unit.failedBy decision).status = .blocked := by
    simp [LongTaskUnitRecord.failedBy, hdisposition, LongTaskUnitRecord.targetStatus]
  rw [← hasRunnableWork_block hstored hactive hblocked, hleft]
  unfold LongTaskRepository.settleUnitFailure
  rw [TaskAction.requireUnit_bind, hfound]
  simp only
  rw [TaskAction.requireUnitClaim_bind, if_neg (by simp [hdeadline]), hheld]
  simp only [TaskAction.final_setUnit_bind, hdisposition, LongTaskUnitRecord.targetStatus,
    Action.final_read_bind, Action.final_ite, TaskAction.final_releaseActiveUnits_bind,
    TaskAction.final_bind_record, hscope]
  have hid : (unit.failedBy decision).id = unit.id := rfl
  rw [hid]
  by_cases hwork : StoredLongTask.hasRunnableWork
      { task with units := task.units.set unit.id (unit.failedBy decision) } now = true
  · simp [hwork, hrunning]
  · simp [hwork]

/-- What a claim hands out was stored as it is, and was either runnable or held under a lapsed
lease. -/
theorem Move.granted_runnable_or_lapsed {e : TaskEvent} {unit : LongTaskUnitRecord}
    {units : Dict String LongTaskUnitRecord} {status : LongTaskStatus}
    (hmove : Move now task e (some unit) units status) :
    ∃ u, task.units.get? unit.id = some u ∧ u.attempt < u.maxAttempts ∧
      (task.runnable now u = true ∨ (u.status.active = true ∧ u.leaseLapsed now = true)) := by
  cases hmove with
  | grant hrel running stored claimable room =>
    rename_i units u worker expires
    obtain ⟨u₀, hu₀, hlapsed⟩ := hrel.get?_left stored
    unfold StoredLongTask.claimable at claimable
    simp only [Bool.and_eq_true, Bool.or_eq_true, decide_eq_true_eq] at claimable
    obtain ⟨⟨hstatus, hattempt⟩, hdependencies⟩ := claimable
    have heq : u = u₀ := by
      rcases hlapsed with heq | ⟨-, -, -, hfailed⟩
      · exact heq
      · rw [hfailed] at hstatus
        simp [LongTaskUnitStatus.waiting, LongTaskUnitStatus.active] at hstatus
    subst heq
    refine ⟨u, hu₀, hattempt, ?_⟩
    rcases hstatus with hwaiting | hheld
    · -- a unit completed after the lapsed leases were dealt with was completed before
      have hsub : task.dependenciesCompleted u = true := by
        unfold dependenciesCompleted at hdependencies ⊢
        rw [List.all_eq_true] at hdependencies ⊢
        intro id hid
        have hmem := hdependencies id hid
        rw [decide_eq_true_eq] at hmem ⊢
        obtain ⟨k, v, hv, hc, hvid⟩ := mem_completed.1 hmem
        obtain ⟨w, hw, rfl | ⟨-, -, -, hfailed⟩⟩ := hrel.get?_left hv
        · exact mem_completed.2 ⟨k, _, hw, hc, hvid⟩
        · rw [hfailed] at hc
          cases hc
      refine Or.inl ?_
      unfold runnable
      simp [hwaiting, hattempt, hsub]
    · exact Or.inr hheld

end

/-- **The scheduler and the finalizer agree** exactly as far as `_has_runnable_work` goes.  When a
claim would hand out `unit`, finalizing leaves the task neither failed nor paused if and only if
some unit is runnable or nothing required is left; settling another unit as recoverable does so if
and only if the settlement is refused or a third unit is runnable.  Where nothing is runnable, the
unit a worker would get is one whose lease lapsed. -/
theorem schedulers_agree_iff {pyStr : Json → String} {run : List (Int × LongTaskOp)} {k : String}
    {task : StoredLongTask}
    (hget : (exec (LongTaskState.step pyStr) .empty run).tasks.get? k = some task)
    (hrunning : task.record.status = .running)
    (hcancel : task.record.cancellationRequestedAtMs = none) {now : Int}
    (hdeadline : task.deadlineElapsed now = false) {workerId : String} {duration : Int}
    {unit : LongTaskUnitRecord}
    (hclaim : (TaskEvent.call (.claimUnit none workerId duration)).granted now task =
      some unit) :
    (((TaskEvent.call .finalizeIfComplete).apply now task).record.status ≠ .failed ∧
        ((TaskEvent.call .finalizeIfComplete).apply now task).record.status ≠ .paused ↔
      task.hasRunnableWork now = true ∨
        task.requiredUnits.all (·.status = .completed) = true) ∧
      (∀ (unitId settler : String) (leaseEpoch : Int) (decision : FailureDecision)
          (other : LongTaskUnitRecord), task.lookupUnit unitId = some other →
        other.id ≠ unit.id → decision.disposition = .pauseRecoverable →
        decision.scope = .local →
        let left := (TaskEvent.call (.settleUnitFailure unitId settler leaseEpoch decision)).apply
          now task
        (left.record.status ≠ .failed ∧ left.record.status ≠ .paused ↔
          task.heldBy now other settler leaseEpoch = none ∨
            ∃ k third, task.units.get? k = some third ∧ k ≠ other.id ∧
              task.runnable now third = true)) ∧
      (task.hasRunnableWork now = false → ∃ u, task.units.get? unit.id = some u ∧
        u.attempt < u.maxAttempts ∧ u.status.active = true ∧ u.leaseLapsed now = true) := by
  obtain ⟨hs, hinv⟩ := noRequiredFailure_reachable run k task hget
  refine ⟨status_finalize_iff hinv hrunning hcancel hdeadline, ?_, fun hnone => ?_⟩
  · intro unitId settler leaseEpoch decision other hfound _ hdisposition hscope left
    cases hheld : task.heldBy now other settler leaseEpoch with
    | some worker =>
      have hiff := status_settle_iff hs hdisposition hscope hdeadline hfound hheld
      simpa using hiff
    | none =>
      have hleft : left = task := by
        refine (Action.final_map _ _ _).trans ?_
        unfold LongTaskRepository.settleUnitFailure
        rw [TaskAction.requireUnit_bind, hfound]
        simp only
        rw [TaskAction.requireUnitClaim_bind, if_neg (by simp [hdeadline]), hheld]
      simp [hleft, hrunning]
  · have hmove : Move now task _ _ _ _ := TaskEvent.apply_move hs
      (.call (.claimUnit none workerId duration))
    rw [hclaim] at hmove
    obtain ⟨u, hu, hattempt, hrun | hlapsed⟩ := hmove.granted_runnable_or_lapsed
    · have : task.hasRunnableWork now = true := hasRunnableWork_iff.2 ⟨_, u, hu, hrun⟩
      rw [hnone] at this
      cases this
    · exact ⟨u, hu, hattempt, hlapsed⟩

/-- One worker took the only unit at 2 for 10 and went silent. -/
def silentRun : List (Int × LongTaskOp) :=
  [(0, .create "t" (soloCommand none)), (1, .onTask "t" (.start 1)),
    (2, .onTask "t" (.claimUnit none "w" 10))]

/-- What the small runs below look at: the status, the request and the deadline of a task, and
whether a claim would hand out a unit. -/
def claimView (now : Int) (task : StoredLongTask) : LongTaskStatus × Bool × Bool × Bool :=
  (task.record.status, task.record.cancellationRequestedAtMs.isSome, task.deadlineElapsed now,
    ((TaskEvent.call (.claimUnit none "v" 10)).granted now task).isSome)

theorem claimView_startedRun :
    ((exec (LongTaskState.step noStr) .empty (silentRun.take 2)).tasks.get? "t").map
      (claimView 2) = some (.running, false, false, true) := by decide

theorem claimView_silentRun :
    ((exec (LongTaskState.step noStr) .empty silentRun).tasks.get? "t").map
      (claimView 20) = some (.running, false, false, true) := by decide

theorem schedulers_agree_startedRun :
    ∃ task, (exec (LongTaskState.step noStr) .empty (silentRun.take 2)).tasks.get? "t" =
        some task ∧
      ((TaskEvent.call .finalizeIfComplete).apply 2 task).record.status ≠ .failed := by
  obtain ⟨task, hget, hview⟩ := Option.map_eq_some_iff.1 claimView_startedRun
  simp only [claimView, Prod.mk.injEq] at hview
  obtain ⟨hrunning, hcancel, hdeadline, hclaim⟩ := hview
  obtain ⟨unit, hunit⟩ := Option.isSome_iff_exists.1 hclaim
  have hagree := (schedulers_agree_iff hget hrunning (by simpa using hcancel) hdeadline hunit).1
  have hwork : ((exec (LongTaskState.step noStr) .empty (silentRun.take 2)).tasks.get? "t").map
      (·.hasRunnableWork 2) = some true := by decide
  rw [hget, Option.map_some, Option.some.injEq] at hwork
  exact ⟨task, hget, (hagree.2 (Or.inl hwork)).1⟩

/-- With the lease lapsed and an attempt left, a worker would get the unit; finalizing at the same
clock fails the task instead. -/
theorem schedulers_disagree :
    ¬ ∀ (pyStr : Json → String) (run : List (Int × LongTaskOp)) (k : String)
        (task : StoredLongTask) (now : Int) (workerId : String) (duration : Int)
        (unit : LongTaskUnitRecord),
      (exec (LongTaskState.step pyStr) .empty run).tasks.get? k = some task →
      task.record.status = .running → task.record.cancellationRequestedAtMs = none →
      task.deadlineElapsed now = false →
      (TaskEvent.call (.claimUnit none workerId duration)).granted now task = some unit →
      ((TaskEvent.call .finalizeIfComplete).apply now task).record.status ≠ .failed ∧
        ((TaskEvent.call .finalizeIfComplete).apply now task).record.status ≠ .paused := by
  intro h
  obtain ⟨task, hget, hview⟩ := Option.map_eq_some_iff.1 claimView_silentRun
  simp only [claimView, Prod.mk.injEq] at hview
  obtain ⟨hrunning, hcancel, hdeadline, hclaim⟩ := hview
  obtain ⟨unit, hunit⟩ := Option.isSome_iff_exists.1 hclaim
  have hfinal : ((exec (LongTaskState.step noStr) .empty silentRun).tasks.get? "t").map
      (fun task => ((TaskEvent.call .finalizeIfComplete).apply 20 task).record.status) =
      some .failed := by decide
  rw [hget, Option.map_some, Option.some.injEq] at hfinal
  exact (h noStr silentRun "t" task 20 "v" 10 unit hget hrunning (by simpa using hcancel)
    hdeadline hunit).1 hfinal

end Purra
