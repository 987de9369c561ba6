import Purra.LongTask.Moves

/-!
# The terms of a task

A task is created under terms: who owns it, how many units may run at once, when
it must be done, what it may spend and what happens when that is spent.  No method
changes them, whichever way it ends (`TaskEvent.terms_apply`).  What was spent is
changed by one method only, `record_usage` (`TaskEvent.account_apply`).
-/

namespace Purra

/-- What a task is created under. -/
structure LongTaskTerms where
  id : String
  namespace_ : String
  kind : String
  ownerId : String
  createdByRunId : String
  maxParallelism : Nat
  deadlineAtMs : Option Nat
  budgetLimits : LongTaskBudgetLimits
  budgetExhaustionDisposition : BudgetExhaustionDisposition

/-- The terms of a stored task. -/
def StoredLongTask.terms (task : StoredLongTask) : LongTaskTerms where
  id := task.record.id
  namespace_ := task.record.namespace_
  kind := task.record.kind
  ownerId := task.record.ownerId
  createdByRunId := task.record.createdByRunId
  maxParallelism := task.record.maxParallelism
  deadlineAtMs := task.record.deadlineAtMs
  budgetLimits := task.record.budgetLimits
  budgetExhaustionDisposition := task.record.budgetExhaustionDisposition

/-- The terms of a task and what its Runs have spent. -/
def StoredLongTask.account (task : StoredLongTask) :
    LongTaskTerms × Dict String LongTaskUsage × LongTaskUsage :=
  (task.terms, task.usageByRun, task.record.usage)

/-- An action on a task that leaves its account alone. -/
abbrev KeepsAccount {α : Type} (m : TaskAction α) : Prop := m.Keeps StoredLongTask.account

open Purra.Action

namespace TaskAction

variable {α β : Type}

theorem keepsAccount_record : KeepsAccount record := fun _ => rfl

theorem keepsAccount_then_record {m : TaskAction α} (hm : KeepsAccount m) :
    KeepsAccount (m >>= fun _ => record) := keeps_bind hm fun _ => keepsAccount_record

theorem keepsAccount_then_pure {m : TaskAction α} (hm : KeepsAccount m) (b : β) :
    KeepsAccount (m >>= fun _ => pure b) := keeps_bind hm fun _ => keeps_pure b

theorem keepsAccount_touch : KeepsAccount touch := fun _ => rfl

theorem keepsAccount_updateUnits (f : String → LongTaskUnitRecord → LongTaskUnitRecord) :
    KeepsAccount (updateUnits f) := fun _ => rfl

theorem keepsAccount_setUnit (unit : LongTaskUnitRecord) : KeepsAccount (setUnit unit) := fun _ => rfl

theorem keepsAccount_setStatus (status : LongTaskStatus) : KeepsAccount (setStatus status) := by
  refine keeps_read_bind fun task => keeps_ite (keeps_pure _) ?_
  exact keeps_bind (keeps_write fun _ => rfl) fun _ => keepsAccount_touch

theorem keepsAccount_refreshTotals : KeepsAccount refreshTotals := by
  intro task
  unfold final
  rw [refreshTotals_apply]
  split <;> rfl

theorem keepsAccount_cancel : KeepsAccount cancel :=
  keeps_bind (keepsAccount_updateUnits _) fun _ => keepsAccount_setStatus _

theorem keepsAccount_closeWith (f : String → LongTaskUnitRecord → LongTaskUnitRecord)
    (status : LongTaskStatus) : KeepsAccount (closeWith f status) :=
  keeps_bind (keepsAccount_updateUnits f) fun _ =>
    keeps_bind keepsAccount_refreshTotals fun _ => keepsAccount_setStatus status

theorem keepsAccount_failBudget (kind : String) : KeepsAccount (failBudget kind) := by
  refine keeps_read_bind fun task => ?_
  cases task.record.budgetExhaustionDisposition <;> exact keepsAccount_closeWith _ _

theorem keepsAccount_requireUnit (unitId : String) : KeepsAccount (requireUnit unitId) := by
  refine keeps_ofExcept_bind fun id => keeps_read_bind fun task => ?_
  cases task.units.get? id with
  | none => exact keeps_raise _
  | some unit => exact keeps_pure _

theorem keepsAccount_requireUnitClaim (now : Int) (unit : LongTaskUnitRecord) (workerId : String)
    (leaseEpoch : Int) : KeepsAccount (requireUnitClaim now unit workerId leaseEpoch) := by
  refine keeps_read_bind fun task => keeps_ite ?_ ?_
  · exact keeps_bind (keepsAccount_closeWith _ _) fun _ => keeps_raise _
  · exact keeps_ofExcept_bind fun worker => keeps_ite (keeps_pure _) (keeps_raise _)

theorem keepsAccount_requireTaskRevision (expected : Int) :
    KeepsAccount (requireTaskRevision expected) :=
  keeps_read_bind fun _ => keeps_ite (keeps_pure _) (keeps_raise _)

/-- An operation on a claimed unit. -/
theorem keepsAccount_unitOp {now : Int} {unitId workerId : String} {leaseEpoch : Int}
    {f : LongTaskUnitRecord → String → TaskAction α} (hf : ∀ unit worker, KeepsAccount (f unit worker)) :
    KeepsAccount (requireUnit unitId >>= fun unit =>
      requireUnitClaim now unit workerId leaseEpoch >>= f unit) :=
  keeps_bind (keepsAccount_requireUnit unitId) fun unit =>
    keeps_bind (keepsAccount_requireUnitClaim now unit workerId leaseEpoch) (hf unit)

end TaskAction

namespace LongTaskRepository

open TaskAction

variable (now : Int)

theorem keepsAccount_bindRun {runId : String} {relation : LongTaskRunRelation}
    {action : TaskAction LongTaskRunBinding} (h : bindRun runId relation = .ok action) :
    KeepsAccount action := by
  unfold bindRun at h
  split at h
  · cases h
  · obtain ⟨run, -, h⟩ := bind_eq_ok h
    cases h
    refine keeps_read_bind fun task => ?_
    cases task.bindings.get? run with
    | some existing => exact keeps_ite (keeps_pure _) (keeps_raise _)
    | none => exact keeps_bind (keeps_write fun _ => rfl) fun _ => keeps_pure _

/-- `record_usage` stores the usage it is given, or leaves the account alone. -/
theorem account_recordUsage {runId : String} {usage : LongTaskUsage} {revision : Int}
    {action : TaskAction LongTaskRecord} (h : recordUsage runId usage revision = .ok action)
    (task : StoredLongTask) :
    (action.final task).account = task.account ∨
      ∃ run, (action.final task).account = (task.withUsage run usage).account := by
  obtain ⟨run, -, h⟩ := bind_eq_ok h
  cases h
  rw [final_read_bind]
  split
  · rw [final_ite]
    split <;> exact .inl rfl
  · rw [requireTaskRevision_bind, final_write_bind, final_read_bind]
    split
    · refine .inr ⟨run, ?_⟩
      split
      · rw [final_bind_record]
        exact keepsAccount_failBudget _ _
      · rfl
    · exact .inl rfl

theorem keepsAccount_start (revision : Int) : KeepsAccount (start now revision) := by
  refine keeps_read_bind fun task => keeps_ite ?_ (keeps_ite ?_ (keeps_ite ?_ (keeps_ite ?_ ?_)))
  · exact keepsAccount_then_record (keepsAccount_closeWith _ _)
  · exact keepsAccount_then_record keepsAccount_cancel
  · exact keepsAccount_record
  · exact keeps_raise _
  · exact keeps_bind (keepsAccount_requireTaskRevision _) fun _ =>
      keepsAccount_then_record (keepsAccount_setStatus _)

theorem keepsAccount_expireDeadline : KeepsAccount (LongTaskRepository.expireDeadline now) := by
  refine keeps_read_bind fun task => keeps_ite ?_ (keeps_ite ?_ ?_)
  · exact keepsAccount_record
  · exact keeps_raise _
  · exact keepsAccount_then_record (keepsAccount_closeWith _ _)

theorem keepsAccount_pause (revision : Option Int) (reason : Option String) :
    KeepsAccount (pause revision reason) := by
  refine keeps_read_bind fun task => keeps_ite ?_ (keeps_ite ?_ (keeps_ite ?_ ?_))
  · exact keeps_raise _
  · exact keepsAccount_record
  · exact keeps_raise _
  · exact keeps_bind (keepsAccount_updateUnits _) fun _ =>
      keepsAccount_then_record (keepsAccount_setStatus _)

theorem keepsAccount_resume {extra : Int} {action : TaskAction LongTaskRecord}
    (h : resume extra = .ok action) : KeepsAccount action := by
  unfold resume at h
  split at h
  · cases h
  · cases h
    refine keeps_read_bind fun task => keeps_ite ?_ (keeps_ite ?_ (keeps_ite ?_ (keeps_ite ?_ ?_)))
    · exact keepsAccount_record
    · exact keeps_raise _
    · exact keeps_raise _
    · exact keeps_raise _
    · exact keeps_bind (keepsAccount_updateUnits _) fun _ => keeps_bind (keeps_write fun _ => rfl)
        fun _ => keepsAccount_then_record (keepsAccount_setStatus _)

theorem keepsAccount_cancel : KeepsAccount LongTaskRepository.cancel := by
  refine keeps_read_bind fun task => keeps_ite ?_ (keeps_ite ?_ ?_)
  · exact keepsAccount_record
  · exact keeps_raise _
  · exact keepsAccount_then_record TaskAction.keepsAccount_cancel

theorem keepsAccount_requestCancel (requestedAt : Option Int) :
    KeepsAccount (requestCancel now requestedAt) := by
  refine keeps_read_bind fun task => keeps_ite ?_ (keeps_ite ?_ (keeps_ite ?_ ?_))
  · exact keepsAccount_record
  · exact keepsAccount_record
  · exact keeps_raise _
  · exact keeps_bind (keeps_write fun _ => rfl) fun _ => keepsAccount_then_record keepsAccount_touch

theorem keepsAccount_finalizeIfComplete : KeepsAccount (finalizeIfComplete now) := by
  refine keeps_read_bind fun task => keeps_ite ?_ (keeps_ite ?_ (keeps_ite ?_ (keeps_ite ?_
    (keeps_ite ?_ (keeps_ite ?_ (keeps_ite ?_ ?_))))))
  · exact keepsAccount_then_record (keepsAccount_closeWith _ _)
  · exact keepsAccount_then_record TaskAction.keepsAccount_cancel
  · exact keepsAccount_record
  · exact keepsAccount_then_record (keepsAccount_setStatus _)
  · exact keepsAccount_then_record (keepsAccount_setStatus _)
  · exact keepsAccount_then_record (keepsAccount_setStatus _)
  · cases task.requiredUnits.find? (·.status ≠ .completed) with
    | some unit =>
      exact keeps_bind (keepsAccount_setUnit _) fun _ =>
        keepsAccount_then_record (keepsAccount_closeWith _ _)
    | none => exact keepsAccount_record
  · exact keepsAccount_record

theorem keepsAccount_grantUnit (unitId : Option String) (worker : String) (duration : Int) :
    KeepsAccount (grantUnit now unitId worker duration) := by
  refine keeps_read_bind fun task => keeps_ite (keeps_pure _) ?_
  cases (candidates task).find? fun unit =>
      unitId.all (unit.id = ·) && task.claimable now unit with
  | none => exact keeps_pure _
  | some unit =>
    exact keeps_bind (keepsAccount_setUnit _) fun _ => keepsAccount_then_pure keepsAccount_touch _

theorem keepsAccount_claimUnitLocked (unitId : Option String) (worker : String) (duration : Int) :
    KeepsAccount (claimUnitLocked now unitId worker duration) := by
  refine keeps_read_bind fun task => keeps_ite ?_ ?_
  · exact keepsAccount_then_pure (keepsAccount_closeWith _ _) _
  cases task.taskBudgetExhaustion false with
  | some kind => exact keepsAccount_then_pure (keepsAccount_failBudget kind) _
  | none =>
    refine keeps_ite (keeps_pure _) (keeps_bind (keepsAccount_updateUnits _) fun _ => ?_)
    cases task.units.entries.find? fun p => p.2.exhausted now && p.2.required with
    | some p => exact keepsAccount_then_pure (keepsAccount_closeWith _ _) _
    | none =>
      have hgrant := keepsAccount_grantUnit now unitId worker duration
      by_cases hany : task.units.values.any (·.exhausted now) = true
      · simp only [hany, if_true]
        exact keeps_bind keepsAccount_touch fun _ => hgrant
      · simp only [hany]
        exact hgrant

theorem keepsAccount_claimUnit {unitId : Option String} {workerId : String} {duration : Int}
    {action : TaskAction (Option LongTaskUnitRecord)}
    (h : claimUnit now unitId workerId duration = .ok action) : KeepsAccount action := by
  obtain ⟨id, -, h⟩ := bind_eq_ok h
  obtain ⟨worker, -, h⟩ := bind_eq_ok h
  split at h
  · cases h
  · cases h
    exact keepsAccount_claimUnitLocked now id worker duration

theorem keepsAccount_bindUnitRun (unitId workerId : String) (leaseEpoch : Int) (runId : String) :
    KeepsAccount (bindUnitRun now unitId workerId leaseEpoch runId) := by
  refine keepsAccount_unitOp fun unit worker => keeps_ofExcept_bind fun run => ?_
  cases unit.runId with
  | some current => exact keeps_ite (keeps_pure _) (keeps_raise _)
  | none =>
    refine keeps_read_bind fun task => keeps_ite (keeps_raise _) ?_
    exact keeps_ofExcept_bind fun metadata => keeps_bind (keepsAccount_setUnit _) fun _ =>
      keepsAccount_then_pure keepsAccount_touch _

theorem keepsAccount_renewUnitLease {unitId workerId : String} {leaseEpoch duration : Int}
    {action : TaskAction LongTaskUnitRecord}
    (h : renewUnitLease now unitId workerId leaseEpoch duration = .ok action) :
    KeepsAccount action := by
  unfold renewUnitLease at h
  split at h
  · cases h
  · cases h
    exact keepsAccount_unitOp fun unit worker => keeps_bind (keepsAccount_setUnit _) fun _ =>
      keepsAccount_then_pure keepsAccount_touch _

theorem keepsAccount_updateUnitProgress (unitId workerId : String) (leaseEpoch : Int)
    (metadata : Json.Object) :
    KeepsAccount (updateUnitProgress now unitId workerId leaseEpoch metadata) :=
  keepsAccount_unitOp fun _ _ => keeps_bind (keepsAccount_setUnit _) fun _ =>
    keepsAccount_then_pure keepsAccount_touch _

theorem keepsAccount_completeUnit (unitId workerId : String) (leaseEpoch : Int)
    (result : LongTaskUnitResult) :
    KeepsAccount (completeUnit now unitId workerId leaseEpoch result) := by
  refine keeps_bind (keepsAccount_requireUnit unitId) fun unit => keeps_ite ?_ ?_
  · exact keeps_ofExcept_bind fun replay => keeps_ite keepsAccount_record (keeps_raise _)
  · refine keeps_bind (keepsAccount_requireUnitClaim now unit workerId leaseEpoch) fun worker =>
      keeps_read_bind fun task => keeps_ite (keeps_raise _) (keeps_ite (keeps_raise _) ?_)
    exact keeps_bind (keepsAccount_setUnit _) fun _ =>
      keepsAccount_then_record keepsAccount_refreshTotals

theorem keepsAccount_settleUnitFailure (unitId workerId : String) (leaseEpoch : Int)
    (decision : FailureDecision) :
    KeepsAccount (settleUnitFailure now unitId workerId leaseEpoch decision) := by
  refine keepsAccount_unitOp fun unit worker => keeps_bind (keepsAccount_setUnit _) fun _ => ?_
  cases LongTaskUnitRecord.targetStatus decision.disposition with
  | canceled => exact keepsAccount_then_record TaskAction.keepsAccount_cancel
  | failed => exact keepsAccount_then_record (keepsAccount_closeWith _ _)
  | blocked =>
    refine keeps_read_bind fun task => keeps_ite ?_ ?_
    · exact keeps_bind (keepsAccount_updateUnits _) fun _ =>
        keepsAccount_then_record (keepsAccount_setStatus _)
    · exact keepsAccount_then_record keepsAccount_touch
  | pending | waitingRetry | claimed | running | needsSplit | expanded | completed =>
    exact keepsAccount_then_record keepsAccount_touch

theorem keepsAccount_expandUnit {unitId workerId : String} {leaseEpoch : Int}
    {split : LongTaskSplitResult} {decision : FailureDecision}
    {action : TaskAction LongTaskRecord}
    (h : expandUnit now unitId workerId leaseEpoch split decision = .ok action) :
    KeepsAccount action := by
  unfold expandUnit at h
  split_ifs at h
  cases h
  refine keeps_bind (keepsAccount_requireUnit unitId) fun parent => keeps_ite ?_ ?_
  · exact keeps_ofExcept_bind fun replay => keeps_ite keepsAccount_record (keeps_raise _)
  · refine keeps_bind (keepsAccount_requireUnitClaim now parent workerId leaseEpoch) fun worker =>
      keeps_read_bind fun task => keeps_ofExcept_bind fun _ => keeps_ofExcept_bind fun units => ?_
    exact keeps_bind (keeps_write fun _ => rfl) fun _ =>
      keepsAccount_then_record keepsAccount_refreshTotals

theorem keepsAccount_interruptUnit (unitId workerId : String) (leaseEpoch : Int)
    (reasonCode : String) :
    KeepsAccount (interruptUnit now unitId workerId leaseEpoch reasonCode) :=
  keepsAccount_unitOp fun _ _ => keeps_ofExcept_bind fun _ =>
    keeps_bind (keepsAccount_setUnit _) fun _ => keepsAccount_then_record (keepsAccount_setStatus _)

theorem keepsAccount_recoverTask (wall : Int) (reason : String) :
    KeepsAccount (recoverTask wall reason) := by
  refine keeps_read_bind fun task => keeps_ite (keeps_pure _) (keeps_ite (keeps_pure _)
    (keeps_ite TaskAction.keepsAccount_cancel ?_))
  exact keeps_bind (keepsAccount_updateUnits _) fun _ => keepsAccount_setStatus _

/-- The action of a call that is no usage report, whatever the call. -/
theorem keepsAccount_method {op : TaskOp} (hop : ∀ run usage revision,
    op ≠ .recordUsage run usage revision) {action : TaskAction LongTaskReply}
    (h : op.method now = .ok action) : KeepsAccount action := by
  have hmap : ∀ {α : Type} {x : Except PyError (TaskAction α)} {g : α → LongTaskReply},
      x.map (g <$> ·) = .ok action → (∀ m, x = .ok m → KeepsAccount m) → KeepsAccount action := by
    intro α x g hx hm
    cases x with
    | error e => cases hx
    | ok m =>
      cases hx
      exact keeps_map g (hm m rfl)
  have hpure : ∀ {α : Type} {m : TaskAction α} {g : α → LongTaskReply},
      (.ok (g <$> m) : Except PyError (TaskAction LongTaskReply)) = .ok action → KeepsAccount m →
        KeepsAccount action := by
    intro α m g hx hm
    cases hx
    exact keeps_map g hm
  cases op with
  | bindRun => exact hmap h fun _ => keepsAccount_bindRun
  | recordUsage run usage revision => exact absurd rfl (hop run usage revision)
  | start revision => exact hpure h (keepsAccount_start now revision)
  | expireDeadline => exact hpure h (keepsAccount_expireDeadline now)
  | pause revision reason => exact hpure h (keepsAccount_pause revision reason)
  | resume => exact hmap h fun _ => keepsAccount_resume
  | cancel => exact hpure h keepsAccount_cancel
  | requestCancel requestedAt => exact hpure h (keepsAccount_requestCancel now requestedAt)
  | finalizeIfComplete => exact hpure h (keepsAccount_finalizeIfComplete now)
  | claimUnit => exact hmap h fun _ => keepsAccount_claimUnit now
  | bindUnitRun id worker epoch run =>
    exact hpure h (keepsAccount_bindUnitRun now id worker epoch run)
  | renewUnitLease => exact hmap h fun _ => keepsAccount_renewUnitLease now
  | updateUnitProgress id worker epoch metadata =>
    exact hpure h (keepsAccount_updateUnitProgress now id worker epoch metadata)
  | completeUnit id worker epoch result =>
    exact hpure h (keepsAccount_completeUnit now id worker epoch result)
  | settleUnitFailure id worker epoch decision =>
    exact hpure h (keepsAccount_settleUnitFailure now id worker epoch decision)
  | expandUnit => exact hmap h fun _ => keepsAccount_expandUnit now
  | interruptUnit id worker epoch reason =>
    exact hpure h (keepsAccount_interruptUnit now id worker epoch reason)

end LongTaskRepository

/-- **What an event does to the account of a task**: nothing, or it stores the usage of a Run. -/
theorem TaskEvent.account_apply (e : TaskEvent) (now : Int) (task : StoredLongTask) :
    (e.apply now task).account = task.account ∨
      ∃ run usage, (e.apply now task).account = (task.withUsage run usage).account := by
  cases e with
  | recover wall reason => exact .inl (LongTaskRepository.keepsAccount_recoverTask wall reason task)
  | call op =>
    show (op.apply now task).account = task.account ∨
      ∃ run usage, (op.apply now task).account = (task.withUsage run usage).account
    by_cases hop : ∃ run usage revision, op = .recordUsage run usage revision
    · obtain ⟨run, usage, revision, rfl⟩ := hop
      have hmethod : (TaskOp.recordUsage run usage revision).method now =
          (LongTaskRepository.recordUsage run usage revision).map (LongTaskReply.record <$> ·) := rfl
      unfold TaskOp.apply
      rw [hmethod]
      cases h : LongTaskRepository.recordUsage run usage revision with
      | error e => exact .inl rfl
      | ok action =>
        simp only [Except.map, final_map]
        exact (LongTaskRepository.account_recordUsage h task).imp_right fun ⟨run, hrun⟩ =>
          ⟨run, usage, hrun⟩
    · refine .inl ?_
      unfold TaskOp.apply
      cases h : op.method now with
      | error e => rfl
      | ok action =>
        exact LongTaskRepository.keepsAccount_method now
          (fun run usage revision heq => hop ⟨run, usage, revision, heq⟩) h task

/-- **The terms of a task never change.** -/
theorem TaskEvent.terms_apply (e : TaskEvent) (now : Int) (task : StoredLongTask) :
    (e.apply now task).terms = task.terms := by
  rcases e.account_apply now task with h | ⟨run, usage, h⟩
  · exact congrArg Prod.fst h
  · exact congrArg Prod.fst h

end Purra
