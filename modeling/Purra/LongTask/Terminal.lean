import Purra.LongTask.Runs

/-!
# Which calls move a terminal task

`COMPLETED`, `FAILED` and `CANCELED` are meant to be final, save for the explicit
resume of a failed task.  `expire_deadline`, `pause`, `cancel`, `request_cancel` and
`resume` check the status first.  `start`, `finalize_if_complete`, the claims and
every operation on a unit act on an elapsed deadline before they look at the
status; `start` and `finalize_if_complete` do the same with a cancellation request,
and the claims and `record_usage` with a spent budget.

* `Disturbs` — the calls that move a terminal task, as a condition on the task they
  find.
* `TaskEvent.status_apply_iff` — an event keeps a terminal status exactly when it
  does not disturb the task.
* `terminal_kept_iff` — the same for every reachable repository and every call, and for
  whole runs.
-/

namespace Purra

open StoredLongTask LongTaskRepository

/-- The status an exhausted budget moves its task to. -/
def BudgetExhaustionDisposition.status : BudgetExhaustionDisposition → LongTaskStatus
  | .pauseRecoverable => .paused
  | .failPermanent => .failed

/-- The deadline has elapsed and expiring it would change the status. -/
def LateDeadline (now : Int) (task : StoredLongTask) : Prop :=
  task.deadlineElapsed now = true ∧ task.hasRequired = true ∧ task.record.status ≠ .failed

/-- A cancellation request is pending and acting on it would change the status. -/
def LateCancel (now : Int) (task : StoredLongTask) : Prop :=
  task.deadlineElapsed now = false ∧ task.record.cancellationRequestedAtMs.isSome = true ∧
    task.record.status ≠ .canceled

/-- Acting on an exhausted budget would change the status. -/
def LateBudget (task : StoredLongTask) : Prop :=
  task.hasRequired = true ∧ task.record.status ≠ task.record.budgetExhaustionDisposition.status

/-- The arguments of a claim pass its checks. -/
def ClaimArguments (unitId : Option String) (workerId : String) (leaseDurationMs : Int) : Prop :=
  (∀ id, unitId = some id → strip id ≠ "") ∧ strip workerId ≠ "" ∧ 0 < leaseDurationMs

/-- The events that move a task whose status is terminal. -/
def Disturbs (now : Int) (task : StoredLongTask) : TaskEvent → Prop
  | .call (.start _) | .call .finalizeIfComplete => LateDeadline now task ∨ LateCancel now task
  | .call (.claimUnit unitId workerId duration) =>
    ClaimArguments unitId workerId duration ∧ (LateDeadline now task ∨
      (task.deadlineElapsed now = false ∧ (task.taskBudgetExhaustion false).isSome = true ∧
        LateBudget task))
  | .call (.recordUsage runId usage revision) =>
    strip runId ≠ "" ∧ task.usageByRun.get? (strip runId) = none ∧
      (task.record.revision : Int) = revision ∧
      ((task.withUsage (strip runId) usage).taskBudgetExhaustion true).isSome = true ∧
      LateBudget task
  | .call (.bindUnitRun unitId _ _ _) | .call (.updateUnitProgress unitId _ _ _)
  | .call (.settleUnitFailure unitId _ _ _) | .call (.interruptUnit unitId _ _ _) =>
    (task.lookupUnit unitId).isSome = true ∧ LateDeadline now task
  | .call (.renewUnitLease unitId _ _ duration) =>
    0 < duration ∧ (task.lookupUnit unitId).isSome = true ∧ LateDeadline now task
  | .call (.completeUnit unitId _ _ _) =>
    (task.lookupUnit unitId).any (·.status ≠ .completed) = true ∧ LateDeadline now task
  | .call (.expandUnit unitId _ _ split decision) =>
    decision.disposition = .splitPart ∧ split.children ≠ [] ∧
      (task.lookupUnit unitId).any (·.status ≠ .expanded) = true ∧ LateDeadline now task
  | _ => False

/-- The one event that is meant to move a terminal task. -/
def ExplicitResume (task : StoredLongTask) (e : TaskEvent) : Prop :=
  task.record.status = .failed ∧ ∃ extra, e = .call (.resume extra)

/-! ## The helpers on any task -/

section

variable {now : Int} {task : StoredLongTask}

theorem status_expireDeadline_iff (hd : task.deadlineElapsed now = true) :
    (TaskAction.expireDeadline.final task).record.status = task.record.status ↔
      ¬ LateDeadline now task := by
  have hstatus : (TaskAction.expireDeadline.final task).record.status =
      if task.hasRequired then .failed else task.record.status :=
    TaskAction.status_closeWith (fun _ unit => unit.halted_deadlineFailed.required) _ _
  rw [hstatus]
  unfold LateDeadline
  by_cases hr : task.hasRequired = true
  · simp [hr, hd, eq_comm]
  · simp [hr]

theorem status_failBudget_iff (task task' : StoredLongTask)
    (hunits : task'.units = task.units) (hstatus : task'.record.status = task.record.status)
    (hdisposition : task'.record.budgetExhaustionDisposition =
      task.record.budgetExhaustionDisposition) (kind : String) :
    ((TaskAction.failBudget kind).final task').record.status = task.record.status ↔
      ¬ LateBudget task := by
  have hr : task'.hasRequired = task.hasRequired := by
    unfold hasRequired
    rw [hunits]
  have hfinal : ((TaskAction.failBudget kind).final task').record.status =
      if task.hasRequired then task.record.budgetExhaustionDisposition.status
      else task.record.status := by
    unfold TaskAction.failBudget
    rw [Action.final_read_bind, ← hdisposition, ← hstatus, ← hr]
    cases task'.record.budgetExhaustionDisposition with
    | pauseRecoverable =>
      exact TaskAction.status_closeWith (fun _ unit => (unit.halted_budgetBlocked kind).required)
        _ _
    | failPermanent =>
      exact TaskAction.status_closeWith (fun _ unit => (unit.halted_budgetFailed kind).required)
        _ _
  rw [hfinal]
  unfold LateBudget
  by_cases hreq : task.hasRequired = true
  · simp [hreq, eq_comm]
  · simp [hreq]

theorem status_cancel (task : StoredLongTask) :
    (TaskAction.cancel.final task).record.status = .canceled :=
  TaskAction.status_setStatus _ _

/-! ## The methods on a terminal task -/

theorem heldBy_eq_none (h : task.record.status ≠ .running) (unit : LongTaskUnitRecord)
    (workerId : String) (leaseEpoch : Int) :
    task.heldBy now unit workerId leaseEpoch = none := by
  cases hheld : task.heldBy now unit workerId leaseEpoch with
  | none => rfl
  | some worker => exact absurd (running_of_holdsClaim (holdsClaim_of_heldBy hheld)) h

variable {α : Type}

/-- A unit operation on a task that does not run only ever expires the deadline. -/
theorem status_requireUnitClaim_iff (h : task.record.status ≠ .running)
    (unit : LongTaskUnitRecord) (workerId : String) (leaseEpoch : Int) (f : String → TaskAction α) :
    ((TaskAction.requireUnitClaim now unit workerId leaseEpoch >>= f).final task).record.status =
      task.record.status ↔ ¬ LateDeadline now task := by
  rw [TaskAction.requireUnitClaim_bind]
  by_cases hd : task.deadlineElapsed now = true
  · rw [if_pos hd]
    exact status_expireDeadline_iff hd
  · rw [if_neg hd, heldBy_eq_none h]
    simp [LateDeadline, hd]

theorem status_unitOp_iff (h : task.record.status ≠ .running) (unitId : String)
    (workerId : String) (leaseEpoch : Int) (f : LongTaskUnitRecord → String → TaskAction α) :
    ((TaskAction.requireUnit unitId >>= fun unit =>
        TaskAction.requireUnitClaim now unit workerId leaseEpoch >>= f unit).final
          task).record.status = task.record.status ↔
      ¬ ((task.lookupUnit unitId).isSome = true ∧ LateDeadline now task) := by
  rw [TaskAction.requireUnit_bind]
  cases task.lookupUnit unitId with
  | none => simp
  | some unit => simpa using status_requireUnitClaim_iff h unit workerId leaseEpoch (f unit)

/-- The two unguarded checks `start` and `finalize_if_complete` begin with. -/
theorem status_lateChecks_iff {left : StoredLongTask}
    (hleft : left.record.status = task.record.status) :
    (if task.deadlineElapsed now then TaskAction.expireDeadline.final task
      else if task.record.cancellationRequestedAtMs.isSome then TaskAction.cancel.final task
      else left).record.status = task.record.status ↔
      ¬ (LateDeadline now task ∨ LateCancel now task) := by
  by_cases hd : task.deadlineElapsed now = true
  · rw [if_pos hd, status_expireDeadline_iff hd]
    simp [LateCancel, hd]
  rw [if_neg hd]
  have hnot : ¬ LateDeadline now task := fun h => hd h.1
  by_cases hc : task.record.cancellationRequestedAtMs.isSome = true
  · rw [if_pos hc, status_cancel]
    simp [hnot, LateCancel, hd, hc, eq_comm]
  · rw [if_neg hc]
    simp [hnot, LateCancel, hc, hleft]

theorem status_recordUsage_iff {runId : String} {usage : LongTaskUsage} {expectedRevision : Int}
    {action : TaskAction LongTaskRecord}
    (h : LongTaskRepository.recordUsage runId usage expectedRevision = .ok action) :
    (action.final task).record.status = task.record.status ↔
      ¬ (task.usageByRun.get? (strip runId) = none ∧
        (task.record.revision : Int) = expectedRevision ∧
        ((task.withUsage (strip runId) usage).taskBudgetExhaustion true).isSome = true ∧
        LateBudget task) := by
  obtain ⟨run, hrun, h⟩ := bind_eq_ok h
  obtain ⟨-, rfl⟩ := requiredText_eq_ok hrun
  cases h
  rw [Action.final_read_bind]
  cases task.usageByRun.get? (strip runId) with
  | some existing =>
    simp only [Action.final_ite]
    split <;> simp
  | none =>
    simp only [TaskAction.requireTaskRevision_bind, Action.final_write_bind,
      Action.final_read_bind, true_and]
    split
    · rename_i hrev
      simp only [hrev, true_and]
      cases (task.withUsage (strip runId) usage).taskBudgetExhaustion true with
      | some kind =>
        have hkind := status_failBudget_iff task (task.withUsage (strip runId) usage)
          rfl rfl rfl kind
        simpa only [TaskAction.final_bind_record, Option.isSome_some, true_and] using hkind
      | none => simp [StoredLongTask.withUsage]
    · rename_i hrev
      simp [hrev]

/-- A claim runs under the lock exactly when its arguments pass. -/
theorem claimUnit_cases (now : Int) (unitId : Option String) (workerId : String)
    (leaseDurationMs : Int) :
    (ClaimArguments unitId workerId leaseDurationMs ∧
        LongTaskRepository.claimUnit now unitId workerId leaseDurationMs =
          .ok (claimUnitLocked now (unitId.map strip) (strip workerId) leaseDurationMs)) ∨
      (¬ ClaimArguments unitId workerId leaseDurationMs ∧
        ∃ err, LongTaskRepository.claimUnit now unitId workerId leaseDurationMs =
          .error err) := by
  unfold LongTaskRepository.claimUnit
  by_cases hunit : ∀ id, unitId = some id → strip id ≠ ""
  · have hid : unitId.mapM (requiredText · "long task unit id") = .ok (unitId.map strip) := by
      cases unitId with
      | none => rfl
      | some id => simp [requiredText_of_ne (hunit id rfl), Functor.map, Except.map]
    rw [hid]
    by_cases hworker : strip workerId = ""
    · refine Or.inr ⟨fun h => h.2.1 hworker,
        .valueError ("long task worker id" ++ " is required"), ?_⟩
      rw [requiredText_of_eq hworker]
      rfl
    · rw [requiredText_of_ne hworker]
      by_cases hduration : leaseDurationMs ≤ 0
      · refine Or.inr ⟨fun h => ?_, _, if_pos hduration⟩
        have := h.2.2
        omega
      · exact Or.inl ⟨⟨hunit, hworker, by omega⟩, if_neg hduration⟩
  · refine Or.inr ⟨fun h => hunit h.1, ?_⟩
    push Not at hunit
    obtain ⟨id, rfl, hid⟩ := hunit
    refine ⟨.valueError ("long task unit id" ++ " is required"), ?_⟩
    simp [requiredText_of_eq hid, Functor.map, Except.map, bind, Except.bind]

theorem status_bindRun {runId : String} {relation : LongTaskRunRelation}
    {action : TaskAction LongTaskRunBinding}
    (h : LongTaskRepository.bindRun runId relation = .ok action) :
    (action.final task).record.status = task.record.status := by
  unfold LongTaskRepository.bindRun at h
  split at h
  · cases h
  · obtain ⟨run, -, h⟩ := bind_eq_ok h
    cases h
    rw [Action.final_read_bind]
    cases task.bindings.get? run with
    | some existing =>
      simp only [Action.final_ite]
      split <;> rfl
    | none => rfl

/-- A call keeps the status under the same condition as its method. -/
theorem status_call_iff {op : TaskOp} {x : Except PyError (TaskAction α)}
    {g : α → LongTaskReply} (hop : op.method now = x.map (g <$> ·)) {Q : Prop}
    (hok : ∀ m, x = .ok m → ((m.final task).record.status = task.record.status ↔ ¬ Q))
    (herror : ∀ err, x = .error err → ¬ Q) :
    ((TaskEvent.call op).apply now task).record.status = task.record.status ↔ ¬ Q := by
  show (op.apply now task).record.status = task.record.status ↔ ¬ Q
  unfold TaskOp.apply
  rw [hop]
  cases x with
  | error err => simpa [Except.map] using herror err rfl
  | ok m => simpa only [Except.map, Action.final_map] using hok m rfl

theorem status_okCall_iff {op : TaskOp} {m : TaskAction α} {g : α → LongTaskReply}
    (hop : op.method now = .ok (g <$> m)) {Q : Prop}
    (h : (m.final task).record.status = task.record.status ↔ ¬ Q) :
    ((TaskEvent.call op).apply now task).record.status = task.record.status ↔ ¬ Q :=
  status_call_iff (x := .ok m) hop (by rintro _ ⟨⟩; exact h) (by rintro _ ⟨⟩)

variable (ht : task.record.status.terminal = true)

include ht

theorem ne_running : task.record.status ≠ .running := by
  intro h
  rw [h] at ht
  cases ht

theorem ne_pending : task.record.status ≠ .pending := by
  intro h
  rw [h] at ht
  cases ht

theorem status_start_iff (expectedRevision : Int) :
    ((LongTaskRepository.start now expectedRevision).final task).record.status =
        task.record.status ↔ ¬ (LateDeadline now task ∨ LateCancel now task) := by
  unfold LongTaskRepository.start
  simp only [Action.final_read_bind, Action.final_ite, TaskAction.final_bind_record,
    Action.final_raise, ne_running ht, ne_pending ht, ne_eq, not_false_eq_true, if_true, if_false]
  exact status_lateChecks_iff rfl

theorem status_finalizeIfComplete_iff :
    ((LongTaskRepository.finalizeIfComplete now).final task).record.status =
        task.record.status ↔ ¬ (LateDeadline now task ∨ LateCancel now task) := by
  unfold LongTaskRepository.finalizeIfComplete
  simp only [Action.final_read_bind, Action.final_ite, TaskAction.final_bind_record,
    TaskAction.final_record, ne_running ht, ne_eq, not_false_eq_true, if_true]
  exact status_lateChecks_iff rfl

theorem status_claimUnitLocked_iff (unitId : Option String) (worker : String) (duration : Int) :
    ((claimUnitLocked now unitId worker duration).final task).record.status =
        task.record.status ↔
      ¬ (LateDeadline now task ∨ (task.deadlineElapsed now = false ∧
        (task.taskBudgetExhaustion false).isSome = true ∧ LateBudget task)) := by
  unfold claimUnitLocked
  rw [Action.final_read_bind]
  by_cases hd : task.deadlineElapsed now = true
  · rw [if_pos hd, TaskAction.final_bind_pure, status_expireDeadline_iff hd]
    simp [hd]
  rw [if_neg hd]
  have hnot : ¬ LateDeadline now task := fun h => hd h.1
  cases task.taskBudgetExhaustion false with
  | some kind =>
    simp only [TaskAction.final_bind_pure]
    rw [status_failBudget_iff task task rfl rfl rfl]
    simp [hnot, hd]
  | none =>
    simp only [ne_running ht, ne_eq, not_false_eq_true, true_or, if_true]
    simp [hnot]

theorem status_completeUnit_iff (unitId workerId : String) (leaseEpoch : Int)
    (result : LongTaskUnitResult) :
    ((LongTaskRepository.completeUnit now unitId workerId leaseEpoch result).final
        task).record.status = task.record.status ↔
      ¬ ((task.lookupUnit unitId).any (·.status ≠ .completed) = true ∧
        LateDeadline now task) := by
  unfold LongTaskRepository.completeUnit
  rw [TaskAction.requireUnit_bind]
  cases task.lookupUnit unitId with
  | none => simp
  | some unit =>
    simp only [Action.final_ite, Option.any_some]
    split
    · rename_i hc
      rw [Action.final_ofExcept_bind]
      split
      · rw [Action.final_ite]
        split <;> simp [hc]
      · simp [hc]
    · rename_i hc
      rw [status_requireUnitClaim_iff (ne_running ht)]
      simp [hc]

theorem status_expandUnit_iff {unitId workerId : String} {leaseEpoch : Int}
    {split : LongTaskSplitResult} {decision : FailureDecision}
    {action : TaskAction LongTaskRecord}
    (h : LongTaskRepository.expandUnit now unitId workerId leaseEpoch split decision =
      .ok action) :
    (action.final task).record.status = task.record.status ↔
      ¬ (decision.disposition = .splitPart ∧ split.children ≠ [] ∧
        (task.lookupUnit unitId).any (·.status ≠ .expanded) = true ∧ LateDeadline now task) := by
  unfold LongTaskRepository.expandUnit at h
  split_ifs at h with hdecision hchildren
  cases h
  have hne : split.children ≠ [] := by simpa using hchildren
  have hsplit : decision.disposition = .splitPart := by simpa using hdecision
  simp only [hne, hsplit, ne_eq, not_false_eq_true, true_and]
  rw [TaskAction.requireUnit_bind]
  cases task.lookupUnit unitId with
  | none => simp
  | some unit =>
    simp only [Action.final_ite, Option.any_some]
    split_ifs with he
    · rw [Action.final_ofExcept_bind]
      split
      · rw [Action.final_ite]
        split <;> simp [he]
      · simp [he]
    · rw [status_requireUnitClaim_iff (ne_running ht)]
      simp [he]

/-! The methods that look at the status first. -/

theorem expireDeadline_of_terminal :
    (LongTaskRepository.expireDeadline now).final task = task := by
  unfold LongTaskRepository.expireDeadline
  rw [Action.final_read_bind, if_pos ht]
  rfl

theorem pause_of_terminal (expectedRevision : Option Int) (reasonCode : Option String) :
    (LongTaskRepository.pause expectedRevision reasonCode).final task = task := by
  have hpaused : task.record.status ≠ .paused := by
    intro h
    rw [h] at ht
    cases ht
  unfold LongTaskRepository.pause
  simp only [Action.final_read_bind, Action.final_ite, Action.final_raise, hpaused, if_false,
    ne_running ht, ne_pending ht, ne_eq, not_false_eq_true, and_self, if_true]
  split <;> rfl

theorem cancel_of_terminal : LongTaskRepository.cancel.final task = task := by
  unfold LongTaskRepository.cancel
  simp only [Action.final_read_bind, Action.final_ite, ht, if_true]
  split <;> rfl

theorem requestCancel_of_terminal (requestedAtMs : Option Int) :
    (LongTaskRepository.requestCancel now requestedAtMs).final task = task := by
  unfold LongTaskRepository.requestCancel
  rw [Action.final_read_bind, if_pos ht]
  rfl

theorem resume_of_terminal (hfailed : task.record.status ≠ .failed) {additionalAttempts : Int}
    {action : TaskAction LongTaskRecord}
    (h : LongTaskRepository.resume additionalAttempts = .ok action) :
    action.final task = task := by
  have hpaused : task.record.status ≠ .paused := by
    intro h
    rw [h] at ht
    cases ht
  unfold LongTaskRepository.resume at h
  split at h
  · cases h
  · cases h
    rw [Action.final_read_bind, if_neg (ne_running ht), if_pos ⟨hpaused, hfailed⟩]
    rfl

/-- **An event keeps a terminal status exactly when it does not disturb the task.** -/
theorem TaskEvent.status_apply_iff {e : TaskEvent} (hresume : ¬ ExplicitResume task e) :
    (e.apply now task).record.status = task.record.status ↔ ¬ Disturbs now task e := by
  have hstay : ∀ {left : StoredLongTask}, left = task →
      (left.record.status = task.record.status ↔ ¬ False) := by
    rintro _ rfl
    exact iff_of_true rfl not_false
  cases e with
  | recover wall reason =>
    refine hstay ?_
    show (recoverTask wall reason).final task = task
    unfold recoverTask
    rw [Action.final_read_bind, if_pos (ne_running ht)]
    rfl
  | call op =>
    cases op with
    | bindRun runId relation =>
      exact status_call_iff rfl (fun m hm => iff_of_true (status_bindRun hm) not_false)
        fun _ _ => not_false
    | recordUsage runId usage revision =>
      refine status_call_iff rfl (fun m hm => ?_) fun err herr h => ?_
      · obtain ⟨run, hrun, -⟩ := bind_eq_ok hm
        have hne := (requiredText_eq_ok hrun).1
        rw [status_recordUsage_iff hm]
        simp only [Disturbs, hne, ne_eq, not_false_eq_true, true_and]
      · unfold LongTaskRepository.recordUsage at herr
        rw [requiredText_of_ne h.1] at herr
        cases herr
    | start revision => exact status_okCall_iff rfl (status_start_iff ht revision)
    | expireDeadline => exact status_okCall_iff rfl (hstay (expireDeadline_of_terminal ht))
    | pause revision reason =>
      exact status_okCall_iff rfl (hstay (pause_of_terminal ht revision reason))
    | resume extra =>
      have hfailed : task.record.status ≠ .failed := fun h => hresume ⟨h, extra, rfl⟩
      exact status_call_iff rfl (fun m hm => hstay (resume_of_terminal ht hfailed hm))
        fun _ _ => not_false
    | cancel => exact status_okCall_iff rfl (hstay (cancel_of_terminal ht))
    | requestCancel requestedAt =>
      exact status_okCall_iff rfl (hstay (requestCancel_of_terminal ht requestedAt))
    | finalizeIfComplete => exact status_okCall_iff rfl (status_finalizeIfComplete_iff ht)
    | claimUnit unitId workerId duration =>
      rcases claimUnit_cases now unitId workerId duration with ⟨hargs, hok⟩ | ⟨hargs, err, herr⟩
      · refine status_call_iff rfl (fun m hm => ?_) fun _ _ => ?_
        · rw [hok] at hm
          cases hm
          rw [status_claimUnitLocked_iff ht]
          simp only [Disturbs, hargs, true_and]
        · simp_all
      · refine status_call_iff rfl (fun m hm => ?_) fun _ _ h => hargs h.1
        rw [herr] at hm
        cases hm
    | bindUnitRun id worker epoch =>
      exact status_okCall_iff rfl (status_unitOp_iff (ne_running ht) id worker epoch _)
    | renewUnitLease _ _ _ duration =>
      refine status_call_iff rfl (fun m hm => ?_) fun err herr h => ?_
      · unfold LongTaskRepository.renewUnitLease at hm
        split at hm
        · cases hm
        · rename_i hduration
          cases hm
          have hpos : 0 < duration := by omega
          rw [status_unitOp_iff (ne_running ht)]
          simp only [Disturbs, hpos, true_and]
      · have hpos : ¬ duration ≤ 0 := by
          have := h.1
          omega
        unfold LongTaskRepository.renewUnitLease at herr
        rw [if_neg hpos] at herr
        cases herr
    | updateUnitProgress id worker epoch =>
      exact status_okCall_iff rfl (status_unitOp_iff (ne_running ht) id worker epoch _)
    | completeUnit id worker epoch result =>
      exact status_okCall_iff rfl (status_completeUnit_iff ht id worker epoch result)
    | settleUnitFailure id worker epoch =>
      exact status_okCall_iff rfl (status_unitOp_iff (ne_running ht) id worker epoch _)
    | expandUnit =>
      refine status_call_iff rfl (fun m hm => status_expandUnit_iff ht hm) fun err herr h => ?_
      unfold LongTaskRepository.expandUnit at herr
      rw [if_neg (by simpa using h.1), if_neg (by simpa using h.2.1)] at herr
      cases herr
    | interruptUnit id worker epoch =>
      exact status_okCall_iff rfl (status_unitOp_iff (ne_running ht) id worker epoch _)

end

/-! ## Every reachable repository, every call -/

variable {pyStr : Json → String}

/-- What a terminal task must not meet for its status to be kept along a run. -/
def Undisturbed (now : Int) (e : TaskEvent) (task : StoredLongTask) : Prop :=
  task.record.status.terminal = true → ¬ ExplicitResume task e ∧ ¬ Disturbs now task e

theorem exec_terminal_kept {state : LongTaskState} {k : String} {task : StoredLongTask}
    (hget : state.tasks.get? k = some task) (ht : task.record.status.terminal = true)
    {run : List (Int × LongTaskOp)}
    (hrun : Along (LongTaskState.step pyStr) (Meets Undisturbed) state run) :
    ∃ task', (exec (LongTaskState.step pyStr) state run).tasks.get? k = some task' ∧
      task'.record.status = task.record.status := by
  induction run generalizing state task with
  | nil => exact ⟨task, hget, rfl⟩
  | cons call run ih =>
    have hstep : (state.step pyStr call).tasks.get? k = some (call.2.leaves k call.1 task) :=
      get?_step_of_some hget call
    have hstatus : (call.2.leaves k call.1 task).record.status = task.record.status := by
      unfold LongTaskOp.leaves
      cases he : call.2.event k with
      | none => rfl
      | some e =>
        obtain ⟨hresume, hquiet⟩ := hrun.1 k task e hget he ht
        exact (TaskEvent.status_apply_iff ht hresume).2 hquiet
    obtain ⟨task', hget', hkept⟩ := ih hstep (hstatus ▸ ht) hrun.2
    exact ⟨task', hget', hkept.trans hstatus⟩

/-- **Terminal absorption, where it holds.**  In every reachable repository, a call other than the
explicit resume of a failed task keeps a terminal status if and only if it does not disturb the
task; and a run that disturbs no terminal task keeps every terminal status to its end. -/
theorem terminal_kept_iff {run : List (Int × LongTaskOp)} {k : String} {task : StoredLongTask}
    (hget : (exec (LongTaskState.step pyStr) .empty run).tasks.get? k = some task)
    (ht : task.record.status.terminal = true) :
    (∀ call : Int × LongTaskOp, (∀ e, call.2.event k = some e → ¬ ExplicitResume task e) →
      ∃ task', ((exec (LongTaskState.step pyStr) .empty run).step pyStr call).tasks.get? k =
          some task' ∧
        (task'.record.status = task.record.status ↔
          ∀ e, call.2.event k = some e → ¬ Disturbs call.1 task e)) ∧
      ∀ run', Along (LongTaskState.step pyStr) (Meets Undisturbed)
          (exec (LongTaskState.step pyStr) .empty run) run' →
        ∃ task', (exec (LongTaskState.step pyStr) .empty (run ++ run')).tasks.get? k =
            some task' ∧ task'.record.status = task.record.status := by
  refine ⟨fun call hresume => ?_, fun run' hrun => ?_⟩
  · refine ⟨_, get?_step_of_some hget call, ?_⟩
    unfold LongTaskOp.leaves
    cases he : call.2.event k with
    | none => simp
    | some e => simpa using TaskEvent.status_apply_iff ht (hresume e he)
  · rw [exec_append]
    exact exec_terminal_kept hget ht hrun

/-- A task with the deadline 100 that was completed at 4. -/
def completedRun : List (Int × LongTaskOp) :=
  [(0, .create "t" (soloCommand (some 100))), (1, .onTask "t" (.start 1)),
    (2, .onTask "t" (.claimUnit none "w" 50)),
    (3, .onTask "t" (.completeUnit "u" "w" 1 ⟨"out", none, none, [], []⟩)),
    (4, .onTask "t" .finalizeIfComplete)]

theorem status_completedRun :
    ((exec (LongTaskState.step noStr) .empty completedRun).tasks.get? "t").map
      (·.record.status) = some .completed := by decide

theorem terminal_kept_completedRun :
    ∃ task', ((exec (LongTaskState.step noStr) .empty completedRun).step noStr
        (100, .onTask "t" .expireDeadline)).tasks.get? "t" = some task' ∧
      task'.record.status = .completed := by
  obtain ⟨task, hget, hstatus⟩ := Option.map_eq_some_iff.1 status_completedRun
  have hevent : ∀ e, LongTaskOp.event (.onTask "t" .expireDeadline) "t" = some e →
      e = .call .expireDeadline := by
    intro e he
    exact (Option.some.inj he).symm
  obtain ⟨task', hget', hiff⟩ := (terminal_kept_iff hget (by rw [hstatus]; rfl)).1
    (100, .onTask "t" .expireDeadline) fun e he h => by
      obtain ⟨hfailed, -⟩ := h
      rw [hstatus] at hfailed
      cases hfailed
  refine ⟨task', hget', (hiff.2 fun e he => ?_).trans hstatus⟩
  rw [hevent e he]
  exact not_false

/-- A completed task fails when `start` is called after its deadline. -/
theorem terminal_status_not_absorbing :
    ¬ ∀ (pyStr : Json → String) (run : List (Int × LongTaskOp)) (k : String)
        (task task' : StoredLongTask) (call : Int × LongTaskOp),
      (exec (LongTaskState.step pyStr) .empty run).tasks.get? k = some task →
      task.record.status.terminal = true →
      (∀ e, call.2.event k = some e → ¬ ExplicitResume task e) →
      ((exec (LongTaskState.step pyStr) .empty run).step pyStr call).tasks.get? k = some task' →
      task'.record.status = task.record.status := by
  intro h
  have hafter : (((exec (LongTaskState.step noStr) .empty completedRun).step noStr
      (100, .onTask "t" (.start 1))).tasks.get? "t").map (·.record.status) = some .failed := by
    decide
  obtain ⟨task, hget, hstatus⟩ := Option.map_eq_some_iff.1 status_completedRun
  obtain ⟨task', hget', hstatus'⟩ := Option.map_eq_some_iff.1 hafter
  have hkept := h noStr completedRun "t" task task' (100, .onTask "t" (.start 1)) hget
    (by rw [hstatus]; rfl)
    (fun e _ hresume => absurd (hresume.1.symm.trans hstatus) (by decide)) hget'
  rw [hstatus, hstatus'] at hkept
  cases hkept

end Purra
