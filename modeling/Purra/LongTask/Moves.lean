import Purra.LongTask.Effects

/-!
# What a call can do to a task

The methods of the repository reach the same few changes from many places: an
elapsed deadline is acted on by ten of them.  This file says once what a call can
do to the units and the status of a task, so that an invariant is a case analysis
over `Move` and never unfolds a method.

* `TaskEvent` — a call on one task, or the task's share of a restart recovery.
* `Move` — the changes; `TaskEvent.apply_move`: **every event makes one of them**.
-/

namespace Purra

/-! ## The changes -/

/-- What happens to one task: a call of a method, or its share of a restart recovery. -/
inductive TaskEvent where
  | call (op : TaskOp)
  | recover (wall : Int) (reason : String)

namespace TaskEvent

/-- The task an event leaves. -/
def apply (event : TaskEvent) (now : Int) (task : StoredLongTask) : StoredLongTask :=
  match event with
  | .call op => op.apply now task
  | .recover wall reason => (LongTaskRepository.recoverTask wall reason).final task

/-- The unit a reply hands out: only a claim does. -/
def replyUnit : Except PyError LongTaskReply → Option LongTaskUnitRecord
  | .ok (.claimed unit) => unit
  | _ => none

/-- The unit an event handed to a worker. -/
def granted (event : TaskEvent) (now : Int) (task : StoredLongTask) :
    Option LongTaskUnitRecord :=
  match event with
  | .call op => match op.method now with
    | .ok action => replyUnit (action task).1
    | .error _ => none
  | .recover _ _ => none

end TaskEvent

open StoredLongTask LongTaskRepository

/-- `unit`, of a running task, is held under a live lease at `now`. -/
structure Holds (now : Int) (task : StoredLongTask) (unit : LongTaskUnitRecord) : Prop where
  stored : task.units.get? unit.id = some unit
  running : task.record.status = .running
  live : unit.live now = true

/-- **The changes a call can make** to the units and the status of a task, with the unit it hands
out, if any. -/
inductive Move (now : Int) (task : StoredLongTask) :
    TaskEvent → Option LongTaskUnitRecord → Dict String LongTaskUnitRecord → LongTaskStatus → Prop
  /-- The call was refused, replayed, or wrote to the record only. -/
  | stay {e : TaskEvent} : Move now task e none task.units task.record.status
  | start {e : TaskEvent} (pending : task.record.status = .pending) :
    Move now task e none task.units .running
  /-- Every unit is taken from its worker and the task stops; without a required unit the totals
  raise and the status stays. -/
  | halt {e : TaskEvent} {units : Dict String LongTaskUnitRecord} {status : LongTaskStatus}
      (units_rel : Dict.Rel Halted task.units units)
      (status_eq : status = .paused ∨ status = .failed ∨ status = .canceled ∨
        (status = task.record.status ∧ task.hasRequired = false)) :
    Move now task e none units status
  | resume {e : TaskEvent} {units : Dict String LongTaskUnitRecord}
      (units_rel : Dict.Rel Retried task.units units) : Move now task e none units .running
  | finalFailed (running : task.record.status = .running)
      (failed : ∃ unit ∈ task.requiredUnits, unit.status = .failed) :
    Move now task (.call .finalizeIfComplete) none task.units .failed
  | finalCompleted (running : task.record.status = .running)
      (deadline : task.deadlineElapsed now = false)
      (uncanceled : task.record.cancellationRequestedAtMs.isSome = false)
      (completed : task.requiredUnits.all (·.status = .completed) = true) :
    Move now task (.call .finalizeIfComplete) none task.units .completed
  | finalPaused (running : task.record.status = .running)
      (deadline : task.deadlineElapsed now = false)
      (uncanceled : task.record.cancellationRequestedAtMs.isSome = false)
      (blocked : task.requiredUnits.any (·.status = .blocked) = true)
      (stuck : task.hasRunnableWork now = false) :
    Move now task (.call .finalizeIfComplete) none task.units .paused
  | lapse {e : TaskEvent} {units : Dict String LongTaskUnitRecord}
      (units_rel : Dict.Rel (Lapsed now) task.units units)
      (running : task.record.status = .running) :
    Move now task e none units .running
  /-- A claim, after lapsed leases were dealt with. -/
  | grant {e : TaskEvent} {units : Dict String LongTaskUnitRecord} {unit : LongTaskUnitRecord}
      {worker : String} {expires : Int} (units_rel : Dict.Rel (Lapsed now) task.units units)
      (running : task.record.status = .running) (stored : units.get? unit.id = some unit)
      (claimable : StoredLongTask.claimable { task with units } now unit = true)
      (room : units.values.countP (·.live now) < task.record.maxParallelism) :
    Move now task e (some (unit.claimed worker expires))
      (units.set unit.id (unit.claimed worker expires)) .running
  /-- The holder binds a Run, renews its lease or reports progress. -/
  | hold {e : TaskEvent} {unit unit' : LongTaskUnitRecord} (holds : Holds now task unit)
      (same : SameUnit unit unit') (active : unit'.status.active = true)
      (run : unit'.runId = unit.runId ∨
        ∃ run, unit'.runId = some run ∧ runTaken task unit run = false) :
    Move now task e none (task.units.set unit.id unit') .running
  /-- The holder settles its unit and the task goes on. -/
  | settle {e : TaskEvent} {unit unit' : LongTaskUnitRecord} (holds : Holds now task unit)
      (same : SameUnit unit unit') (inactive : unit'.status.active = false)
      (unfailed : unit'.status ≠ .failed)
      (run : unit'.runId = unit.runId ∨
        ∃ run, unit'.runId = some run ∧ runTaken task unit run = false) :
    Move now task e none (task.units.set unit.id unit') .running
  | interrupt {unitId workerId reasonCode worker reason : String} {leaseEpoch : Int}
      {unit : LongTaskUnitRecord} (holds : Holds now task unit)
      (deadline : task.deadlineElapsed now = false)
      (found : task.lookupUnit unitId = some unit)
      (held : task.heldBy now unit workerId leaseEpoch = some worker)
      (reason_eq : requiredText reasonCode "interruption reason" = .ok reason) :
    Move now task (.call (.interruptUnit unitId workerId leaseEpoch reasonCode)) none
      (task.units.set unit.id (unit.interrupted reason)) .paused
  | expand {unitId workerId worker : String} {leaseEpoch : Int} {split : LongTaskSplitResult}
      {decision : FailureDecision} {parent : LongTaskUnitRecord}
      {units : Dict String LongTaskUnitRecord} (holds : Holds now task parent)
      (deadline : task.deadlineElapsed now = false)
      (found : task.lookupUnit unitId = some parent)
      (held : task.heldBy now parent workerId leaseEpoch = some worker)
      (checked : checkChildren task split = .ok ())
      (prospective_eq : prospective task parent split = .ok units)
      (disposition : decision.disposition = .splitPart) (nonempty : split.children ≠ []) :
    Move now task (.call (.expandUnit unitId workerId leaseEpoch split decision)) none
      (units.set parent.id (parent.expandedBy worker decision)) .running

/-- A change that hands out no unit and leaves `left`. -/
abbrev Moved (now : Int) (task : StoredLongTask) (e : TaskEvent) (left : StoredLongTask) : Prop :=
  Move now task e none left.units left.record.status

/-! ## Every call makes one of them -/

section

variable {now : Int} {task : StoredLongTask} {e : TaskEvent}

variable {unitId worker workerId : String} {unit : LongTaskUnitRecord}

theorem get?_of_lookupUnit (hs : UnitsSound task.units)
    (h : task.lookupUnit unitId = some unit) : task.units.get? unit.id = some unit := by
  unfold StoredLongTask.lookupUnit at h
  split at h
  · rw [hs.id_eq _ _ h]
    exact h
  · cases h

variable {leaseEpoch : Int}

theorem holdsClaim_of_heldBy (h : task.heldBy now unit workerId leaseEpoch = some worker) :
    task.holdsClaim now unit worker leaseEpoch = true := by
  unfold StoredLongTask.heldBy at h
  split at h
  · split at h
    · cases h
      assumption
    · cases h
  · cases h

theorem running_of_holdsClaim
    (h : task.holdsClaim now unit worker leaseEpoch = true) : task.record.status = .running := by
  simp only [StoredLongTask.holdsClaim, Bool.and_eq_true, decide_eq_true_eq] at h
  exact h.1.1.1.1

theorem epoch_of_holdsClaim (h : task.holdsClaim now unit worker leaseEpoch = true) :
    (unit.leaseEpoch : Int) = leaseEpoch := by
  simp only [StoredLongTask.holdsClaim, Bool.and_eq_true, decide_eq_true_eq] at h
  exact h.1.2

theorem live_of_holdsClaim
    (h : task.holdsClaim now unit worker leaseEpoch = true) : unit.live now = true := by
  simp only [StoredLongTask.holdsClaim, Bool.and_eq_true, decide_eq_true_eq] at h
  obtain ⟨⟨⟨⟨-, hactive⟩, -⟩, -⟩, hlease⟩ := h
  unfold LongTaskUnitRecord.live LongTaskUnitRecord.leaseLapsed
  rw [hactive]
  cases hexp : unit.leaseExpiresAtMs with
  | none => simp [hexp] at hlease
  | some expires => simpa [hexp] using hlease

theorem active_of_live (h : unit.live now = true) :
    unit.status.active = true := by
  simp only [LongTaskUnitRecord.live, Bool.and_eq_true] at h
  exact h.1

theorem Holds.active (h : Holds now task unit) :
    unit.status.active = true := active_of_live h.live

variable {units : Dict String LongTaskUnitRecord}

theorem hasRequired_of_rel {units' : Dict String LongTaskUnitRecord}
    (h : Dict.Rel Kept units units') :
    units'.values.any (·.required) = units.values.any (·.required) := by
  rw [Bool.eq_iff_iff]
  simp only [List.any_eq_true, Dict.mem_values_iff]
  constructor
  · rintro ⟨v, ⟨k, hk⟩, hv⟩
    obtain ⟨u, hu, huv⟩ := h.get?_left hk
    exact ⟨u, ⟨k, hu⟩, huv.required ▸ hv⟩
  · rintro ⟨u, ⟨k, hk⟩, hu⟩
    obtain ⟨v, hv, huv⟩ := h.get? hk
    exact ⟨v, ⟨k, hv⟩, huv.required.trans hu⟩

theorem halted_map {units' : Dict String LongTaskUnitRecord}
    (h : Dict.Rel Kept units units') {f : String → LongTaskUnitRecord → LongTaskUnitRecord}
    (hf : ∀ k unit, units'.get? k = some unit → Halted unit (f k unit)) :
    Dict.Rel Halted units (units'.map f) := by
  have hmap : Dict.Rel Halted units' (units'.map f) := Dict.Rel.map hf
  exact h.trans hmap fun _ _ _ => Kept.trans_halted

/-- Closing a task from units that were already kept halts it. -/
theorem move_close (task' : StoredLongTask) (hunits : Dict.Rel Kept task.units task'.units)
    (hstatus : task'.record.status = task.record.status)
    {f : String → LongTaskUnitRecord → LongTaskUnitRecord}
    (hf : ∀ k unit, task'.units.get? k = some unit → Halted unit (f k unit))
    (hreq : ∀ k unit, (f k unit).required = unit.required) {status : LongTaskStatus}
    (hs : status = .paused ∨ status = .failed) :
    Moved now task e ((TaskAction.closeWith f status).final task') := by
  refine Move.halt ?_ ?_
  · rw [TaskAction.units_closeWith]
    exact halted_map hunits hf
  · rw [TaskAction.status_closeWith hreq, hstatus]
    have hr : task'.hasRequired = task.hasRequired := hasRequired_of_rel hunits
    rw [hr]
    split
    · exact hs.elim Or.inl fun h => Or.inr (Or.inl h)
    · rename_i hnone
      exact Or.inr (Or.inr (Or.inr ⟨rfl, by simpa using hnone⟩))

theorem kept_rel_refl (units : Dict String LongTaskUnitRecord) : Dict.Rel Kept units units :=
  Dict.Rel.refl Kept.refl units

theorem move_expireDeadline :
    Moved now task e (TaskAction.expireDeadline.final task) :=
  move_close task (kept_rel_refl _) rfl (fun _ unit _ => unit.halted_deadlineFailed)
    (fun _ unit => unit.halted_deadlineFailed.required) (Or.inr rfl)

theorem move_failBudget (task' : StoredLongTask) (hunits : task'.units = task.units)
    (hstatus : task'.record.status = task.record.status) (kind : String) :
    Moved now task e ((TaskAction.failBudget kind).final task') := by
  have hrel : Dict.Rel Kept task.units task'.units := hunits ▸ kept_rel_refl _
  unfold TaskAction.failBudget
  rw [Action.final_read_bind]
  cases task'.record.budgetExhaustionDisposition with
  | pauseRecoverable =>
    exact move_close task' hrel hstatus (fun _ unit _ => unit.halted_budgetBlocked kind)
      (fun _ unit => (unit.halted_budgetBlocked kind).required) (Or.inl rfl)
  | failPermanent =>
    exact move_close task' hrel hstatus (fun _ unit _ => unit.halted_budgetFailed kind)
      (fun _ unit => (unit.halted_budgetFailed kind).required) (Or.inr rfl)

/-- Failing a task halts it once the failed unit itself is out of its worker's hands. -/
theorem move_failTask (task' : StoredLongTask) (hunits : Dict.Rel Kept task.units task'.units)
    (hstatus : task'.record.status = task.record.status) {failedUnitId : String}
    (hfailed : ∀ unit, task'.units.get? failedUnitId = some unit → unit.status.active = false) :
    Moved now task e ((TaskAction.failTask failedUnitId).final task') := by
  refine move_close task' hunits hstatus (fun k unit hk => ?_) (fun k unit => ?_) (Or.inr rfl)
  · by_cases h : k = failedUnitId
    · rw [if_pos h]
      exact ⟨Kept.refl unit, hfailed unit (h ▸ hk)⟩
    · rw [if_neg h]
      exact unit.halted_dependencyFailed
  · split
    · rfl
    · exact unit.halted_dependencyFailed.required

theorem move_cancel (task' : StoredLongTask) (hunits : Dict.Rel Kept task.units task'.units) :
    Moved now task e (TaskAction.cancel.final task') := by
  unfold TaskAction.cancel Moved
  rw [TaskAction.final_updateUnits_bind, TaskAction.units_setStatus, TaskAction.status_setStatus]
  refine Move.halt ?_ (Or.inr (Or.inr (Or.inl rfl)))
  exact halted_map hunits fun _ unit _ => unit.halted_canceled

theorem move_release (task' : StoredLongTask) (hunits : Dict.Rel Kept task.units task'.units)
    (reason : String) :
    Moved now task e ((TaskAction.setStatus .paused).final
      { task' with units := task'.units.map fun _ unit => unit.released reason }) := by
  unfold Moved
  rw [TaskAction.units_setStatus, TaskAction.status_setStatus]
  refine Move.halt ?_ (Or.inl rfl)
  exact halted_map hunits fun _ unit _ => unit.halted_released reason

variable {α : Type}

/-- The part every operation on a held unit shares: the deadline, then the claim. -/
theorem move_requireUnitClaim (hs : UnitsSound task.units) {f : String → TaskAction α}
    (hfound : task.lookupUnit unitId = some unit) (hf : ∀ worker, task.deadlineElapsed now = false →
      task.heldBy now unit workerId leaseEpoch = some worker → Holds now task unit →
      Moved now task e ((f worker).final task)) :
    Moved now task e
      ((TaskAction.requireUnitClaim now unit workerId leaseEpoch >>= f).final task) := by
  rw [TaskAction.requireUnitClaim_bind]
  by_cases hd : task.deadlineElapsed now = true
  · rw [if_pos hd]
    exact move_expireDeadline
  · rw [if_neg hd]
    cases hheld : task.heldBy now unit workerId leaseEpoch with
    | none => exact Move.stay
    | some worker =>
      have hclaim := holdsClaim_of_heldBy hheld
      exact hf worker (by simpa using hd) hheld
        ⟨get?_of_lookupUnit hs hfound, running_of_holdsClaim hclaim, live_of_holdsClaim hclaim⟩

/-- An operation that starts by looking its unit up and checking the claim. -/
theorem move_unitOp (hs : UnitsSound task.units) {f : LongTaskUnitRecord → String → TaskAction α}
    (hf : ∀ unit worker, task.lookupUnit unitId = some unit →
      task.deadlineElapsed now = false → task.heldBy now unit workerId leaseEpoch = some worker →
      Holds now task unit → Moved now task e ((f unit worker).final task)) :
    Moved now task e ((TaskAction.requireUnit unitId >>= fun unit =>
      TaskAction.requireUnitClaim now unit workerId leaseEpoch >>= f unit).final task) := by
  rw [TaskAction.requireUnit_bind]
  cases hfound : task.lookupUnit unitId with
  | none => exact Move.stay
  | some unit =>
    exact move_requireUnitClaim hs hfound fun worker hd hheld hholds =>
      hf unit worker hfound hd hheld hholds

/-! ### Method by method -/

theorem moved_start (expectedRevision : Int) :
    Moved now task e ((LongTaskRepository.start now expectedRevision).final task) := by
  unfold LongTaskRepository.start
  simp only [Action.final_read_bind, Action.final_ite, TaskAction.final_bind_record,
    TaskAction.requireTaskRevision_bind, TaskAction.final_record, Action.final_raise]
  split_ifs with hd hc hr hp hrev
  · exact move_expireDeadline
  · exact move_cancel task (kept_rel_refl _)
  · exact Move.stay
  · exact Move.stay
  · unfold Moved
    rw [TaskAction.units_setStatus, TaskAction.status_setStatus]
    exact Move.start (by simpa using hp)
  · exact Move.stay

theorem moved_expireDeadline :
    Moved now task e ((LongTaskRepository.expireDeadline now).final task) := by
  unfold LongTaskRepository.expireDeadline
  simp only [Action.final_read_bind, Action.final_ite, TaskAction.final_bind_record,
    TaskAction.final_record, Action.final_raise]
  split_ifs
  · exact Move.stay
  · exact Move.stay
  · exact move_expireDeadline

theorem moved_pause (expectedRevision : Option Int) (reasonCode : Option String) :
    Moved now task e ((LongTaskRepository.pause expectedRevision reasonCode).final task) := by
  unfold LongTaskRepository.pause
  simp only [Action.final_read_bind, Action.final_ite, TaskAction.final_record,
    Action.final_raise, TaskAction.final_releaseActiveUnits_bind, TaskAction.final_bind_record]
  split_ifs
  · exact Move.stay
  · exact Move.stay
  · exact Move.stay
  · exact move_release task (kept_rel_refl _) _

theorem moved_cancel : Moved now task e (LongTaskRepository.cancel.final task) := by
  unfold LongTaskRepository.cancel
  simp only [Action.final_read_bind, Action.final_ite, TaskAction.final_bind_record,
    TaskAction.final_record, Action.final_raise]
  split_ifs
  · exact Move.stay
  · exact Move.stay
  · exact move_cancel task (kept_rel_refl _)

theorem moved_requestCancel (requestedAtMs : Option Int) :
    Moved now task e ((LongTaskRepository.requestCancel now requestedAtMs).final task) := by
  unfold LongTaskRepository.requestCancel
  simp only [Action.final_read_bind, Action.final_ite, TaskAction.final_bind_record,
    TaskAction.final_record, Action.final_raise, Action.final_write_bind]
  split_ifs <;> exact Move.stay

theorem moved_recoverTask (wall : Int) (reason : String) :
    Moved now task e ((LongTaskRepository.recoverTask wall reason).final task) := by
  unfold LongTaskRepository.recoverTask
  simp only [Action.final_read_bind, Action.final_ite, Action.final_pure,
    TaskAction.final_releaseActiveUnits_bind]
  split_ifs
  · exact Move.stay
  · exact Move.stay
  · exact move_cancel task (kept_rel_refl _)
  · exact move_release task (kept_rel_refl _) _

theorem moved_resume {additionalAttempts : Int} {action : TaskAction LongTaskRecord}
    (h : LongTaskRepository.resume additionalAttempts = .ok action) :
    Moved now task e (action.final task) := by
  unfold LongTaskRepository.resume at h
  split at h
  · cases h
  · cases h
    simp only [Action.final_read_bind, Action.final_ite, TaskAction.final_bind_record,
      TaskAction.final_record, Action.final_raise, TaskAction.final_updateUnits_bind,
      Action.final_write_bind]
    split_ifs
    · exact Move.stay
    · exact Move.stay
    · exact Move.stay
    · exact Move.stay
    · unfold Moved
      rw [TaskAction.units_setStatus, TaskAction.status_setStatus]
      exact Move.resume (Dict.Rel.map fun _ unit _ => unit.retried_retried _)

theorem moved_bindRun {runId : String} {relation : LongTaskRunRelation}
    {action : TaskAction LongTaskRunBinding}
    (h : LongTaskRepository.bindRun runId relation = .ok action) :
    Moved now task e (action.final task) := by
  unfold LongTaskRepository.bindRun at h
  split at h
  · cases h
  · cases hrun : requiredText runId "long task Run id" with
    | error err =>
      rw [hrun] at h
      cases h
    | ok run =>
      rw [hrun] at h
      cases h
      rw [Action.final_read_bind]
      split
      · rw [Action.final_ite]
        split <;> exact Move.stay
      · exact Move.stay

theorem moved_recordUsage {runId : String} {usage : LongTaskUsage} {expectedRevision : Int}
    {action : TaskAction LongTaskRecord}
    (h : LongTaskRepository.recordUsage runId usage expectedRevision = .ok action) :
    Moved now task e (action.final task) := by
  unfold LongTaskRepository.recordUsage at h
  cases hrun : requiredText runId "long task usage Run id" with
  | error err =>
    rw [hrun] at h
    cases h
  | ok run =>
    rw [hrun] at h
    cases h
    rw [Action.final_read_bind]
    split
    · rw [Action.final_ite]
      split <;> exact Move.stay
    · rw [TaskAction.requireTaskRevision_bind, Action.final_write_bind, Action.final_read_bind]
      split
      · split
        · rw [TaskAction.final_bind_record]
          exact move_failBudget (task.withUsage run usage) (by rfl) (by rfl) _
        · exact Move.stay
      · exact Move.stay

theorem moved_finalizeIfComplete (hs : UnitsSound task.units) :
    Moved now task (.call .finalizeIfComplete)
      ((LongTaskRepository.finalizeIfComplete now).final task) := by
  unfold LongTaskRepository.finalizeIfComplete
  simp only [Action.final_read_bind, Action.final_ite, TaskAction.final_bind_record,
    TaskAction.final_record]
  split_ifs with hd hc hr hfailed hcompleted hblocked hstuck
  · exact move_expireDeadline
  · exact move_cancel task (kept_rel_refl _)
  · exact Move.stay
  · unfold Moved
    rw [TaskAction.units_setStatus, TaskAction.status_setStatus]
    exact Move.finalFailed (by simpa using hr) (by simpa using hfailed)
  · unfold Moved
    rw [TaskAction.units_setStatus, TaskAction.status_setStatus]
    exact Move.finalCompleted (by simpa using hr) (by simpa using hd) (by simpa using hc) hcompleted
  · unfold Moved
    rw [TaskAction.units_setStatus, TaskAction.status_setStatus]
    exact Move.finalPaused (by simpa using hr) (by simpa using hd) (by simpa using hc) hblocked.1
      (by simpa using hblocked.2)
  · exact Move.stay
  · split
    · rename_i unit hfind
      rw [TaskAction.final_setUnit_bind, TaskAction.final_bind_record]
      obtain ⟨⟨k, hk⟩, hreq⟩ := mem_requiredUnits.1 (List.mem_of_find?_eq_some hfind)
      have hget : task.units.get? unit.id = some unit := by
        rw [hs.id_eq k unit hk]
        exact hk
      have hne : unit.status ≠ .expanded := by
        intro he
        rw [hs.not_required k unit hk he] at hreq
        cases hreq
      refine move_failTask { task with units := task.units.set unit.id unit.stranded } ?_
        (by rfl) ?_
      · exact Dict.Rel.set hget (LongTaskUnitRecord.halted_stranded hne).toKept Kept.refl
      · intro v hv
        rw [Dict.get?_set_self] at hv
        cases hv
        rfl
    · exact Move.stay

/-! Operations on a held unit: what is left is known by its units and its status. -/

theorem moved_hold (hholds : Holds now task unit)
    (unit' : LongTaskUnitRecord) (hsame : SameUnit unit unit')
    (hactive : unit'.status.active = true) (hrun : unit'.runId = unit.runId ∨
      ∃ run, unit'.runId = some run ∧ runTaken task unit run = false)
    {left : StoredLongTask} (hunits : left.units = task.units.set unit'.id unit')
    (hstatus : left.record.status = task.record.status) : Moved now task e left := by
  unfold Moved
  rw [hunits, hstatus, hsame.id, hholds.running]
  exact Move.hold hholds hsame hactive hrun

theorem moved_settle (hholds : Holds now task unit)
    (unit' : LongTaskUnitRecord) (hsame : SameUnit unit unit') (hinactive : unit'.status.active = false)
    (hunfailed : unit'.status ≠ .failed) (hrun : unit'.runId = unit.runId ∨
      ∃ run, unit'.runId = some run ∧ runTaken task unit run = false)
    {left : StoredLongTask} (hunits : left.units = task.units.set unit'.id unit')
    (hstatus : left.record.status = task.record.status) : Moved now task e left := by
  unfold Moved
  rw [hunits, hstatus, hsame.id, hholds.running]
  exact Move.settle hholds hsame hinactive hunfailed hrun

theorem moved_bindUnitRun (hs : UnitsSound task.units) (unitId workerId : String) (leaseEpoch : Int)
    (runId : String) :
    Moved now task e
      ((LongTaskRepository.bindUnitRun now unitId workerId leaseEpoch runId).final task) := by
  unfold LongTaskRepository.bindUnitRun
  refine move_unitOp hs fun unit worker _ _ _ hholds => ?_
  rw [Action.final_ofExcept_bind]
  cases requiredText runId "long task unit Run id" with
  | error err => exact Move.stay
  | ok run =>
    simp only
    cases unit.runId with
    | some current =>
      rw [Action.final_ite]
      split <;> exact Move.stay
    | none =>
      rw [Action.final_read_bind, Action.final_ite]
      split
      · exact Move.stay
      · rename_i hfree
        rw [Action.final_ofExcept_bind]
        cases recordRun unit run with
        | error err => exact Move.stay
        | ok metadata =>
          simp only [TaskAction.final_setUnit_bind, TaskAction.final_bind_pure]
          refine moved_hold hholds (unit.bound run metadata) ?_ rfl
            (Or.inr ⟨run, rfl, by simpa using hfree⟩) rfl rfl
          exact ⟨rfl, rfl, rfl, rfl, rfl, rfl, le_rfl, rfl, iff_of_false
            (by simp [LongTaskUnitRecord.bound])
            (LongTaskUnitStatus.ne_expanded_of_active hholds.active)⟩

theorem moved_renewUnitLease (hs : UnitsSound task.units)
    {leaseDurationMs : Int} {action : TaskAction LongTaskUnitRecord}
    (h : LongTaskRepository.renewUnitLease now unitId workerId leaseEpoch leaseDurationMs =
      .ok action) : Moved now task e (action.final task) := by
  unfold LongTaskRepository.renewUnitLease at h
  split at h
  · cases h
  · cases h
    refine move_unitOp hs fun unit worker _ _ _ hholds => ?_
    rw [TaskAction.final_setUnit_bind, TaskAction.final_bind_pure]
    refine moved_hold hholds (unit.renewed (now + leaseDurationMs)) ?_ hholds.active
      (Or.inl rfl) rfl rfl
    exact ⟨rfl, rfl, rfl, rfl, rfl, rfl, le_rfl, rfl, Iff.rfl⟩

theorem moved_updateUnitProgress (hs : UnitsSound task.units) (unitId workerId : String)
    (leaseEpoch : Int) (metadata : Json.Object) :
    Moved now task e
      ((LongTaskRepository.updateUnitProgress now unitId workerId leaseEpoch metadata).final
        task) := by
  unfold LongTaskRepository.updateUnitProgress
  refine move_unitOp hs fun unit worker _ _ _ hholds => ?_
  rw [TaskAction.final_setUnit_bind, TaskAction.final_bind_pure]
  refine moved_hold hholds (unit.updated metadata) ?_ hholds.active (Or.inl rfl) rfl rfl
  exact ⟨rfl, rfl, rfl, rfl, rfl, rfl, le_rfl, rfl, Iff.rfl⟩

theorem moved_completeUnit (hs : UnitsSound task.units) (unitId workerId : String) (leaseEpoch : Int)
    (result : LongTaskUnitResult) :
    Moved now task e
      ((LongTaskRepository.completeUnit now unitId workerId leaseEpoch result).final task) := by
  unfold LongTaskRepository.completeUnit
  rw [TaskAction.requireUnit_bind]
  cases hfound : task.lookupUnit unitId with
  | none => exact Move.stay
  | some unit =>
    simp only
    rw [Action.final_ite]
    split
    · rw [Action.final_ofExcept_bind]
      split
      · rw [Action.final_ite]
        split <;> exact Move.stay
      · exact Move.stay
    · refine move_requireUnitClaim hs hfound fun worker _ _ hholds => ?_
      rw [Action.final_read_bind, Action.final_ite, Action.final_ite]
      split_ifs with hother htaken
      · exact Move.stay
      · exact Move.stay
      · rw [TaskAction.final_setUnit_bind, TaskAction.final_bind_record]
        refine moved_settle hholds (unit.settledBy worker result) ?_ rfl
          (by simp [LongTaskUnitRecord.settledBy]) ?_
          (TaskAction.units_refreshTotals _) (TaskAction.status_refreshTotals _)
        · exact ⟨rfl, rfl, rfl, rfl, rfl, rfl, le_rfl, rfl, iff_of_false
            (by simp [LongTaskUnitRecord.settledBy])
            (LongTaskUnitStatus.ne_expanded_of_active hholds.active)⟩
        · -- the Run stored is the one the guard found free
          cases hrun : result.runId.or unit.runId with
          | none =>
            refine Or.inl (hrun.trans ?_)
            rw [Option.or_eq_none_iff] at hrun
            exact hrun.2.symm
          | some run =>
            rw [hrun, Option.any_some] at htaken
            exact Or.inr ⟨run, hrun, by simpa using htaken⟩

theorem moved_settleUnitFailure (hs : UnitsSound task.units) (unitId workerId : String)
    (leaseEpoch : Int) (decision : FailureDecision) :
    Moved now task e
      ((LongTaskRepository.settleUnitFailure now unitId workerId leaseEpoch decision).final
        task) := by
  unfold LongTaskRepository.settleUnitFailure
  refine move_unitOp hs fun unit worker _ _ _ hholds => ?_
  have hh : Halted unit (unit.failedBy decision) :=
    LongTaskUnitRecord.halted_failedBy hholds.active decision
  have hstatus : (unit.failedBy decision).status =
      LongTaskUnitRecord.targetStatus decision.disposition := rfl
  rw [TaskAction.final_setUnit_bind]
  generalize unit.failedBy decision = unit' at hh hstatus ⊢
  have hkept : Dict.Rel Kept task.units (task.units.set unit'.id unit') := by
    rw [hh.id]
    exact Dict.Rel.set hholds.stored hh.toKept Kept.refl
  have hgoes : LongTaskUnitRecord.targetStatus decision.disposition ≠ .failed →
      Moved now task e (TaskAction.touch.final
        { task with units := task.units.set unit'.id unit' }) := fun htarget =>
    moved_settle hholds unit' hh.toSameUnit hh.inactive (hstatus ▸ htarget) (Or.inl hh.runId)
      rfl rfl
  cases htarget : LongTaskUnitRecord.targetStatus decision.disposition with
  | canceled =>
    rw [TaskAction.final_bind_record]
    exact move_cancel { task with units := task.units.set unit'.id unit' } hkept
  | failed =>
    rw [TaskAction.final_bind_record]
    refine move_failTask { task with units := task.units.set unit'.id unit' } hkept
      (by rfl) fun v hv => ?_
    rw [← hh.id, Dict.get?_set_self] at hv
    cases hv
    exact hh.inactive
  | blocked =>
    simp only [Action.final_read_bind, Action.final_ite, TaskAction.final_releaseActiveUnits_bind,
      TaskAction.final_bind_record]
    split
    · exact move_release { task with units := task.units.set unit'.id unit' } hkept _
    · exact hgoes (by simp [htarget])
  | pending | waitingRetry | claimed | running | needsSplit | expanded | completed =>
    rw [TaskAction.final_bind_record]
    exact hgoes (by simp [htarget])

theorem moved_interruptUnit (hs : UnitsSound task.units) (unitId workerId : String) (leaseEpoch : Int)
    (reasonCode : String) :
    Moved now task (.call (.interruptUnit unitId workerId leaseEpoch reasonCode))
      ((LongTaskRepository.interruptUnit now unitId workerId leaseEpoch reasonCode).final
        task) := by
  unfold LongTaskRepository.interruptUnit
  refine move_unitOp hs fun unit worker hfound hd hheld hholds => ?_
  rw [Action.final_ofExcept_bind]
  cases hreason : requiredText reasonCode "interruption reason" with
  | error err => exact Move.stay
  | ok reason =>
    simp only [TaskAction.final_setUnit_bind, TaskAction.final_bind_record]
    unfold Moved
    rw [TaskAction.units_setStatus, TaskAction.status_setStatus]
    exact Move.interrupt hholds hd hfound hheld hreason

theorem moved_expandUnit (hs : UnitsSound task.units)
    {split : LongTaskSplitResult} {decision : FailureDecision} {action : TaskAction LongTaskRecord}
    (h : LongTaskRepository.expandUnit now unitId workerId leaseEpoch split decision =
      .ok action) :
    Moved now task (.call (.expandUnit unitId workerId leaseEpoch split decision))
      (action.final task) := by
  unfold LongTaskRepository.expandUnit at h
  split at h
  · cases h
  rename_i hdisposition
  split at h
  · cases h
  rename_i hnonempty
  cases h
  rw [TaskAction.requireUnit_bind]
  cases hfound : task.lookupUnit unitId with
  | none => exact Move.stay
  | some parent =>
    simp only
    rw [Action.final_ite]
    split
    · rw [Action.final_ofExcept_bind]
      split
      · rw [Action.final_ite]
        split <;> exact Move.stay
      · exact Move.stay
    · refine move_requireUnitClaim hs hfound fun worker hd hheld hholds => ?_
      rw [Action.final_read_bind, Action.final_ofExcept_bind]
      cases hchecked : checkChildren task split with
      | error err => exact Move.stay
      | ok _ =>
        simp only [Action.final_ofExcept_bind]
        cases hprospective : prospective task parent split with
        | error err => exact Move.stay
        | ok units =>
          simp only [Action.final_write_bind, TaskAction.final_bind_record]
          unfold Moved
          rw [TaskAction.units_refreshTotals, TaskAction.status_refreshTotals, hholds.running]
          exact Move.expand hholds hd hfound hheld hchecked hprospective
            (not_not.1 hdisposition) (by simpa using hnonempty)

/-! A claim, with the unit it hands out. -/

theorem sound_of_rel {units' : Dict String LongTaskUnitRecord} (hs : UnitsSound units)
    (h : Dict.Rel SameUnit units units') : UnitsSound units' where
  id_eq k v hv := by
    obtain ⟨u, hu, huv⟩ := h.get?_left hv
    exact huv.id.trans (hs.id_eq k u hu)
  not_required k v hv he := by
    obtain ⟨u, hu, huv⟩ := h.get?_left hv
    exact huv.required.trans (hs.not_required k u hu (huv.expanded.1 he))

theorem Lapsed.kept {now : Int} {u v : LongTaskUnitRecord} (h : Lapsed now u v) : Kept u v := by
  rcases h with rfl | ⟨h, -⟩
  · exact Kept.refl _
  · exact h.toKept

/-- The unit a claiming action hands out. -/
def handedOut (m : TaskAction (Option LongTaskUnitRecord)) (task : StoredLongTask) :
    Option LongTaskUnitRecord :=
  match (m task).1 with
  | .ok unit => unit
  | .error _ => none

theorem handedOut_read_bind (f : StoredLongTask → TaskAction (Option LongTaskUnitRecord))
    (task : StoredLongTask) :
    handedOut (Action.read >>= f) task = handedOut (f task) task := rfl

theorem handedOut_bind_none (m : TaskAction α) (task : StoredLongTask) :
    handedOut (m >>= fun _ => pure none) task = none := by
  unfold handedOut
  rw [Action.bind_apply]
  rcases m task with ⟨r, task'⟩
  cases r <;> rfl

theorem move_grantUnit (hs : UnitsSound units)
    (hrel : Dict.Rel (Lapsed now) task.units units) (hrunning : task.record.status = .running)
    (unitId : Option String) (worker : String) (duration : Int) (task' : StoredLongTask)
    (hunits : task'.units = units) (hstatus : task'.record.status = task.record.status)
    (hmax : task'.record.maxParallelism = task.record.maxParallelism) :
    Move now task e (handedOut (grantUnit now unitId worker duration) task')
      ((grantUnit now unitId worker duration).final task').units
      ((grantUnit now unitId worker duration).final task').record.status := by
  subst hunits
  have hlapse : Move now task e none task'.units task'.record.status := by
    rw [hstatus, hrunning]
    exact Move.lapse hrel hrunning
  unfold grantUnit
  rw [handedOut_read_bind, Action.final_read_bind]
  by_cases hroom : task'.record.maxParallelism ≤ task'.units.values.countP (·.live now)
  · rw [if_pos hroom]
    exact hlapse
  rw [if_neg hroom]
  cases hfind : (candidates task').find? fun unit =>
      unitId.all (unit.id = ·) && task'.claimable now unit with
  | none => exact hlapse
  | some unit =>
    have hmem : unit ∈ task'.units.values :=
      (List.mem_insertionSort _).1 (List.mem_of_find?_eq_some hfind)
    obtain ⟨k, hk⟩ := Dict.mem_values_iff.1 hmem
    have hget : task'.units.get? unit.id = some unit := by
      rw [hs.id_eq k unit hk]
      exact hk
    have hclaim := List.find?_some hfind
    rw [Bool.and_eq_true] at hclaim
    have hm : Move now task e (some (unit.claimed worker (now + duration)))
        (task'.units.set unit.id (unit.claimed worker (now + duration))) .running :=
      Move.grant hrel hrunning hget hclaim.2 (by omega)
    rw [← hrunning, ← hstatus] at hm
    exact hm

/-- The normalising loop of a claim, when it fails no required unit. -/
theorem lapsed_of_find?_eq_none
    (hfind : (units.entries.find? fun p => p.2.exhausted now && p.2.required) = none) :
    Dict.Rel (Lapsed now) units (units.map fun _ unit => unit.normalizeExpired now) := by
  refine Dict.Rel.map fun k unit hk => ?_
  by_cases hex : unit.exhausted now = true
  · refine Or.inr ⟨LongTaskUnitRecord.halted_normalizeExpired hex, hex, ?_,
      LongTaskUnitRecord.status_normalizeExpired hex⟩
    have hp := List.find?_eq_none.1 hfind (k, unit) (Dict.mem_entries_iff.2 hk)
    simpa [hex] using hp
  · refine Or.inl ?_
    unfold LongTaskUnitRecord.normalizeExpired
    rw [if_neg hex]

theorem move_claimUnitLocked (hs : UnitsSound task.units) (unitId : Option String) (worker : String)
    (duration : Int) :
    Move now task e (handedOut (claimUnitLocked now unitId worker duration) task)
      ((claimUnitLocked now unitId worker duration).final task).units
      ((claimUnitLocked now unitId worker duration).final task).record.status := by
  unfold claimUnitLocked
  rw [handedOut_read_bind, Action.final_read_bind]
  by_cases hd : task.deadlineElapsed now = true
  · rw [if_pos hd, handedOut_bind_none, TaskAction.final_bind_pure]
    exact move_expireDeadline
  rw [if_neg hd]
  cases task.taskBudgetExhaustion false with
  | some kind =>
    simp only [handedOut_bind_none, TaskAction.final_bind_pure]
    exact move_failBudget task rfl rfl kind
  | none =>
    simp only
    by_cases hr : task.record.status ≠ .running ∨
        task.record.cancellationRequestedAtMs.isSome = true
    · rw [if_pos hr]
      exact Move.stay
    rw [if_neg hr]
    have hrunning : task.record.status = .running := by
      by_contra h
      exact hr (Or.inl h)
    have hkept : Dict.Rel Kept task.units
        (task.units.map fun _ unit => unit.normalizeExpired now) :=
      Dict.Rel.map fun _ unit _ => unit.kept_normalizeExpired now
    cases hfind : task.units.entries.find? fun p => p.2.exhausted now && p.2.required with
    | some p =>
      -- the failed unit was taken from its worker by the normalising loop
      obtain ⟨k, unit⟩ := p
      have hk : task.units.get? k = some unit :=
        Dict.mem_entries_iff.1 (List.mem_of_find?_eq_some hfind)
      have hex := List.find?_some hfind
      simp only [Bool.and_eq_true] at hex
      have hmoved : Moved now task e ((TaskAction.failTask k).final
          { task with units := task.units.map fun _ unit => unit.normalizeExpired now }) := by
        refine move_failTask
          { task with units := task.units.map fun _ unit => unit.normalizeExpired now }
          hkept (by rfl) fun v hv => ?_
        rw [Dict.get?_map, hk] at hv
        cases hv
        exact (LongTaskUnitRecord.halted_normalizeExpired hex.1).inactive
      simp only
      rw [TaskAction.final_updateUnits_bind, TaskAction.final_bind_pure]
      have hnone : handedOut (TaskAction.updateUnits (fun _ unit => unit.normalizeExpired now) >>=
          fun _ => TaskAction.failTask k >>= fun _ => pure none) task = none :=
        handedOut_bind_none _ _
      rw [hnone]
      exact hmoved
    | none =>
      have hrel : Dict.Rel (Lapsed now) task.units
          (task.units.map fun _ unit => unit.normalizeExpired now) := lapsed_of_find?_eq_none hfind
      have hs' := sound_of_rel hs (hkept.mono fun _ _ h => h.toSameUnit)
      by_cases hany : task.units.values.any (·.exhausted now) = true
      · simp only [hany, if_true]
        exact move_grantUnit hs' hrel hrunning unitId worker duration (TaskAction.touch.final
          { task with units := task.units.map fun _ unit => unit.normalizeExpired now })
          rfl rfl rfl
      · simp only [hany]
        exact move_grantUnit hs' hrel hrunning unitId worker duration
          { task with units := task.units.map fun _ unit => unit.normalizeExpired now }
          rfl rfl rfl

/-! ### All of them -/

/-- The change of a call whose method replies with no unit handed out. -/
theorem move_call {op : TaskOp} {x : Except PyError (TaskAction α)}
    {g : α → LongTaskReply} (hop : op.method now = x.map (g <$> ·))
    (hg : ∀ a, TaskEvent.replyUnit (.ok (g a)) = none)
    (h : ∀ m, x = .ok m → Moved now task (.call op) (m.final task)) :
    Move now task (.call op) ((TaskEvent.call op).granted now task)
      ((TaskEvent.call op).apply now task).units
      ((TaskEvent.call op).apply now task).record.status := by
  unfold TaskEvent.granted TaskEvent.apply TaskOp.apply
  simp only [hop]
  cases x with
  | error err => exact Move.stay
  | ok m =>
    simp only [Except.map]
    have hnone : TaskEvent.replyUnit ((g <$> m) task).1 = none := by
      rw [Action.fst_map]
      cases (m task).1 with
      | error err => rfl
      | ok a => exact hg a
    rw [hnone, Action.final_map]
    exact h m rfl

theorem move_claimUnit (hs : UnitsSound task.units) (unitId : Option String) (workerId : String)
    (leaseDurationMs : Int) :
    let e : TaskEvent := .call (.claimUnit unitId workerId leaseDurationMs)
    Move now task e (e.granted now task) (e.apply now task).units
      (e.apply now task).record.status := by
  intro e
  have hop : (TaskOp.claimUnit unitId workerId leaseDurationMs).method now =
      (LongTaskRepository.claimUnit now unitId workerId leaseDurationMs).map
        (LongTaskReply.claimed <$> ·) := rfl
  simp only [e, TaskEvent.granted, TaskEvent.apply, TaskOp.apply, hop]
  cases hclaim : LongTaskRepository.claimUnit now unitId workerId leaseDurationMs with
  | error err => exact Move.stay
  | ok m =>
    have hm : ∃ id worker, m = claimUnitLocked now id worker leaseDurationMs := by
      obtain ⟨id, -, hclaim⟩ := bind_eq_ok hclaim
      obtain ⟨worker, -, hclaim⟩ := bind_eq_ok hclaim
      split at hclaim
      · cases hclaim
      · cases hclaim
        exact ⟨id, worker, rfl⟩
    obtain ⟨id, worker, rfl⟩ := hm
    have hout : TaskEvent.replyUnit
        ((LongTaskReply.claimed <$> claimUnitLocked now id worker leaseDurationMs) task).1 =
        handedOut (claimUnitLocked now id worker leaseDurationMs) task := by
      rw [Action.fst_map]
      unfold handedOut
      cases (claimUnitLocked now id worker leaseDurationMs task).1 <;> rfl
    simp only [Except.map]
    rw [hout, Action.final_map]
    exact move_claimUnitLocked hs id worker leaseDurationMs

/-- **Every event is one of the changes of `Move`.** -/
theorem TaskEvent.apply_move (hs : UnitsSound task.units) (e : TaskEvent) :
    Move now task e (e.granted now task) (e.apply now task).units
      (e.apply now task).record.status := by
  cases e with
  | recover wall reason => exact moved_recoverTask wall reason
  | call op =>
    cases op with
    | bindRun runId relation =>
      exact move_call rfl (fun _ => rfl) fun m hm => moved_bindRun hm
    | recordUsage runId usage revision =>
      exact move_call rfl (fun _ => rfl) fun m hm => moved_recordUsage hm
    | start revision =>
      exact move_call (x := .ok _) rfl (fun _ => rfl) (by rintro _ ⟨⟩; exact moved_start revision)
    | expireDeadline =>
      exact move_call (x := .ok _) rfl (fun _ => rfl) (by rintro _ ⟨⟩; exact moved_expireDeadline)
    | pause revision reason =>
      exact move_call (x := .ok _) rfl (fun _ => rfl)
        (by rintro _ ⟨⟩; exact moved_pause revision reason)
    | resume extra => exact move_call rfl (fun _ => rfl) fun m hm => moved_resume hm
    | cancel =>
      exact move_call (x := .ok _) rfl (fun _ => rfl) (by rintro _ ⟨⟩; exact moved_cancel)
    | requestCancel requestedAt =>
      exact move_call (x := .ok _) rfl (fun _ => rfl)
        (by rintro _ ⟨⟩; exact moved_requestCancel requestedAt)
    | finalizeIfComplete =>
      exact move_call (x := .ok _) rfl (fun _ => rfl)
        (by rintro _ ⟨⟩; exact moved_finalizeIfComplete hs)
    | claimUnit unitId workerId duration => exact move_claimUnit hs unitId workerId duration
    | bindUnitRun id worker epoch run =>
      exact move_call (x := .ok _) rfl (fun _ => rfl)
        (by rintro _ ⟨⟩; exact moved_bindUnitRun hs id worker epoch run)
    | renewUnitLease =>
      exact move_call rfl (fun _ => rfl) fun m hm => moved_renewUnitLease hs hm
    | updateUnitProgress id worker epoch metadata =>
      exact move_call (x := .ok _) rfl (fun _ => rfl)
        (by rintro _ ⟨⟩; exact moved_updateUnitProgress hs id worker epoch metadata)
    | completeUnit id worker epoch result =>
      exact move_call (x := .ok _) rfl (fun _ => rfl)
        (by rintro _ ⟨⟩; exact moved_completeUnit hs id worker epoch result)
    | settleUnitFailure id worker epoch decision =>
      exact move_call (x := .ok _) rfl (fun _ => rfl)
        (by rintro _ ⟨⟩; exact moved_settleUnitFailure hs id worker epoch decision)
    | expandUnit =>
      exact move_call rfl (fun _ => rfl) fun m hm => moved_expandUnit hs hm
    | interruptUnit id worker epoch reason =>
      exact move_call (x := .ok _) rfl (fun _ => rfl)
        (by rintro _ ⟨⟩; exact moved_interruptUnit hs id worker epoch reason)

end

end Purra
