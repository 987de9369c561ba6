import Purra.LongTask.Accounting

/-!
# Rejected calls

A method checks its arguments and its claim before it writes, and raises there.
What comes after the first write can raise in one place only: the totals are
counted afresh, and the record refuses to have no required unit.

* `Returns`, `RejectsCleanly` — a computation that cannot raise from a task, and one
  that leaves the task as it was when it does; one rule for each way to compose.
* `rejectsCleanly_method` — the methods reject cleanly on a task whose books are right.
* `reached_rejectsCleanly` — **in every run, a call that raises leaves the repository as
  it was if and only if it is no expansion that leaves no required unit**.
-/

namespace Purra

open StoredLongTask LongTaskRepository

/-! ## Computations that return -/

/-- `m` does not raise from `task`. -/
def Returns {α : Type} (m : TaskAction α) (task : StoredLongTask) : Prop :=
  ∃ a, (m task).1 = .ok a

/-- If `m` raises from `task`, it leaves it as it was. -/
def RejectsCleanly {α : Type} (m : TaskAction α) (task : StoredLongTask) : Prop :=
  ∀ e, (m task).1 = .error e → m.final task = task

section

variable {α β : Type} {m : TaskAction α} {task : StoredLongTask}

theorem returns_pure (a : α) : Returns (pure a : TaskAction α) task := ⟨a, rfl⟩

theorem returns_record : Returns TaskAction.record task := ⟨task.record, rfl⟩

theorem returns_write (f : StoredLongTask → StoredLongTask) :
    Returns (Action.write f : TaskAction Unit) task := ⟨(), rfl⟩

theorem returns_bind {f : α → TaskAction β} (hm : Returns m task)
    (hf : ∀ a, Returns (f a) (m.final task)) : Returns (m >>= f) task := by
  obtain ⟨a, ha⟩ := hm
  obtain ⟨b, hb⟩ := hf a
  refine ⟨b, ?_⟩
  rw [Action.bind_apply]
  unfold Action.final at hb
  rcases h : m task with ⟨r, task'⟩
  rw [h] at ha hb
  obtain rfl : r = .ok a := ha
  exact hb

theorem returns_read_bind {f : StoredLongTask → TaskAction β} (hf : Returns (f task) task) :
    Returns (Action.read >>= f) task := hf

theorem returns_ite {c : Prop} [Decidable c] {m' : TaskAction α} (hm : Returns m task)
    (hm' : Returns m' task) : Returns (if c then m else m') task := by
  split
  · exact hm
  · exact hm'

theorem returns_setStatus (status : LongTaskStatus) :
    Returns (TaskAction.setStatus status) task :=
  returns_read_bind (returns_ite (returns_pure ()) (returns_bind (returns_write _) fun _ =>
    returns_write _))

theorem returns_cancel : Returns TaskAction.cancel task :=
  returns_bind (returns_write _) fun _ => returns_setStatus _

theorem returns_refreshTotals (h : task.hasRequired = true) :
    Returns TaskAction.refreshTotals task := by
  refine ⟨(), ?_⟩
  rw [TaskAction.refreshTotals_apply, if_pos h]

theorem returns_closeWith {f : String → LongTaskUnitRecord → LongTaskUnitRecord}
    (hf : ∀ k unit, (f k unit).required = unit.required) (status : LongTaskStatus)
    (h : task.hasRequired = true) : Returns (TaskAction.closeWith f status) task := by
  refine returns_bind (returns_write _) fun _ => returns_bind (returns_refreshTotals ?_) fun _ =>
    returns_setStatus status
  exact (hasRequired_map hf task).trans h

theorem returns_failTask (failedUnitId : String) (h : task.hasRequired = true) :
    Returns (TaskAction.failTask failedUnitId) task := by
  refine returns_closeWith (fun k unit => ?_) _ h
  split
  · rfl
  · exact unit.halted_dependencyFailed.required

theorem returns_failBudget (kind : String) (h : task.hasRequired = true) :
    Returns (TaskAction.failBudget kind) task := by
  refine returns_read_bind ?_
  cases task.record.budgetExhaustionDisposition with
  | pauseRecoverable =>
    exact returns_closeWith (fun _ unit => (unit.halted_budgetBlocked kind).required) _ h
  | failPermanent =>
    exact returns_closeWith (fun _ unit => (unit.halted_budgetFailed kind).required) _ h

/-! ## Computations that reject cleanly -/

theorem Returns.rejectsCleanly (h : Returns m task) : RejectsCleanly m task := by
  obtain ⟨a, ha⟩ := h
  intro e he
  rw [ha] at he
  cases he

theorem rejectsCleanly_raise (e : PyError) : RejectsCleanly (Action.raise e : TaskAction α) task :=
  fun _ _ => rfl

theorem rejectsCleanly_read_bind {f : StoredLongTask → TaskAction β}
    (hf : RejectsCleanly (f task) task) : RejectsCleanly (Action.read >>= f) task := hf

theorem rejectsCleanly_ofExcept_bind {x : Except PyError α} {f : α → TaskAction β}
    (hf : ∀ a, x = .ok a → RejectsCleanly (f a) task) :
    RejectsCleanly (Action.ofExcept x >>= f) task := by
  cases x with
  | error e => exact fun _ _ => rfl
  | ok a => exact hf a rfl

theorem rejectsCleanly_ite {c : Prop} [Decidable c] {m' : TaskAction α}
    (hm : c → RejectsCleanly m task) (hm' : ¬ c → RejectsCleanly m' task) :
    RejectsCleanly (if c then m else m') task := by
  split
  · exact hm ‹_›
  · exact hm' ‹_›

variable {unitId workerId : String} {unit : LongTaskUnitRecord}

theorem requireUnit_apply (h : task.lookupUnit unitId = some unit) :
    TaskAction.requireUnit unitId task = (.ok unit, task) := by
  unfold StoredLongTask.lookupUnit at h
  unfold TaskAction.requireUnit
  cases hid : requiredText unitId "long task unit id" with
  | error e =>
    rw [hid] at h
    cases h
  | ok id =>
    rw [hid] at h
    simp only at h
    rw [Action.ofExcept_ok_bind_apply, Action.read_bind_apply, h]
    rfl

theorem rejectsCleanly_requireUnit_bind {f : LongTaskUnitRecord → TaskAction β}
    (hf : ∀ unit, task.lookupUnit unitId = some unit → RejectsCleanly (f unit) task) :
    RejectsCleanly (TaskAction.requireUnit unitId >>= f) task := by
  intro e he
  rw [TaskAction.requireUnit_bind]
  cases hfound : task.lookupUnit unitId with
  | none => rfl
  | some unit =>
    rw [Action.bind_apply, requireUnit_apply hfound] at he
    exact hf unit hfound e he

variable {now leaseEpoch : Int}

theorem requireUnitClaim_apply {worker : String} (hd : task.deadlineElapsed now = false)
    (h : task.heldBy now unit workerId leaseEpoch = some worker) :
    TaskAction.requireUnitClaim now unit workerId leaseEpoch task = (.ok worker, task) := by
  unfold StoredLongTask.heldBy at h
  unfold TaskAction.requireUnitClaim
  rw [Action.read_bind_apply, if_neg (by simp [hd])]
  cases hworker : requiredText workerId "long task worker id" with
  | error e =>
    rw [hworker] at h
    cases h
  | ok w =>
    rw [hworker] at h
    simp only at h
    rw [Action.ofExcept_ok_bind_apply]
    split_ifs at h ⊢ with hheld
    cases h
    rfl

theorem rejectsCleanly_requireUnitClaim_bind {f : String → TaskAction β}
    (hd : task.deadlineElapsed now = false)
    (hf : ∀ worker, task.heldBy now unit workerId leaseEpoch = some worker →
      RejectsCleanly (f worker) task) :
    RejectsCleanly (TaskAction.requireUnitClaim now unit workerId leaseEpoch >>= f) task := by
  intro e he
  rw [TaskAction.requireUnitClaim_bind, if_neg (by simp [hd])]
  cases hheld : task.heldBy now unit workerId leaseEpoch with
  | none => rfl
  | some worker =>
    rw [Action.bind_apply, requireUnitClaim_apply hd hheld] at he
    exact hf worker hheld e he

theorem rejectsCleanly_requireTaskRevision_bind {expected : Int} {f : Unit → TaskAction β}
    (hf : RejectsCleanly (f ()) task) :
    RejectsCleanly (TaskAction.requireTaskRevision expected >>= f) task := by
  intro e he
  rw [TaskAction.requireTaskRevision_bind]
  by_cases hrevision : (task.record.revision : Int) = expected
  · rw [if_pos hrevision]
    unfold TaskAction.requireTaskRevision at he
    rw [Action.bind_apply, Action.read_bind_apply, if_pos hrevision] at he
    exact hf e he
  · rw [if_neg hrevision]

/-- An operation on a held unit that only writes once the claim is checked. -/
theorem rejectsCleanly_unitOp (hs : UnitsSound task.units) (hd : task.deadlineElapsed now = false)
    {f : LongTaskUnitRecord → String → TaskAction β}
    (hf : ∀ unit worker, Holds now task unit → RejectsCleanly (f unit worker) task) :
    RejectsCleanly (TaskAction.requireUnit unitId >>= fun unit =>
      TaskAction.requireUnitClaim now unit workerId leaseEpoch >>= f unit) task := by
  refine rejectsCleanly_requireUnit_bind fun unit hfound =>
    rejectsCleanly_requireUnitClaim_bind hd fun worker hheld => hf unit worker ?_
  have hclaim := holdsClaim_of_heldBy hheld
  exact ⟨get?_of_lookupUnit hs hfound, running_of_holdsClaim hclaim, live_of_holdsClaim hclaim⟩

end

/-! ## The methods -/

section

variable {now : Int} {task : StoredLongTask}

variable {action : TaskAction LongTaskRecord}

theorem rejectsCleanly_recordUsage (h : task.hasRequired = true) {runId : String}
    {usage : LongTaskUsage} {expectedRevision : Int}
    (haction : LongTaskRepository.recordUsage runId usage expectedRevision = .ok action) :
    RejectsCleanly action task := by
  obtain ⟨run, -, haction⟩ := bind_eq_ok haction
  cases haction
  refine rejectsCleanly_read_bind ?_
  cases task.usageByRun.get? run with
  | some existing =>
    exact rejectsCleanly_ite (fun _ => returns_record.rejectsCleanly) fun _ =>
      rejectsCleanly_raise _
  | none =>
    refine rejectsCleanly_requireTaskRevision_bind (returns_bind (returns_write _) fun _ =>
      returns_read_bind ?_).rejectsCleanly
    rw [Action.final_write]
    cases (task.withUsage run usage).taskBudgetExhaustion true with
    | some kind =>
      have hrequired : (task.withUsage run usage).hasRequired = true := h
      exact returns_bind (returns_failBudget kind hrequired) fun _ => returns_record
    | none => exact returns_bind (returns_write _) fun _ => returns_record

theorem rejectsCleanly_resume {additionalAttempts : Int}
    (haction : LongTaskRepository.resume additionalAttempts = .ok action) :
    RejectsCleanly action task := by
  unfold LongTaskRepository.resume at haction
  split at haction
  · cases haction
  · cases haction
    refine rejectsCleanly_read_bind ?_
    refine rejectsCleanly_ite (fun _ => returns_record.rejectsCleanly) fun _ =>
      rejectsCleanly_ite (fun _ => rejectsCleanly_raise _) fun _ =>
      rejectsCleanly_ite (fun _ => rejectsCleanly_raise _) fun _ =>
      rejectsCleanly_ite (fun _ => rejectsCleanly_raise _) fun _ => ?_
    exact (returns_bind (returns_write _) fun _ => returns_bind (returns_write _) fun _ =>
      returns_bind (returns_setStatus _) fun _ => returns_record).rejectsCleanly

theorem rejectsCleanly_bindUnitRun (hs : UnitsSound task.units)
    (hd : task.deadlineElapsed now = false) (unitId workerId : String) (leaseEpoch : Int)
    (runId : String) :
    RejectsCleanly (LongTaskRepository.bindUnitRun now unitId workerId leaseEpoch runId) task := by
  refine rejectsCleanly_unitOp hs hd fun unit worker _ => rejectsCleanly_ofExcept_bind
    fun run _ => ?_
  cases unit.runId with
  | some current =>
    exact rejectsCleanly_ite (fun _ => (returns_pure _).rejectsCleanly) fun _ =>
      rejectsCleanly_raise _
  | none =>
    refine rejectsCleanly_read_bind (rejectsCleanly_ite (fun _ => rejectsCleanly_raise _) fun _ =>
      rejectsCleanly_ofExcept_bind fun metadata _ => ?_)
    exact (returns_bind (returns_write _) fun _ => returns_bind (returns_write _) fun _ =>
      returns_pure _).rejectsCleanly

theorem rejectsCleanly_completeUnit (hs : UnitsSound task.units) (h : Accounted task)
    (hd : task.deadlineElapsed now = false) (unitId workerId : String) (leaseEpoch : Int)
    (result : LongTaskUnitResult) :
    RejectsCleanly (LongTaskRepository.completeUnit now unitId workerId leaseEpoch result)
      task := by
  refine rejectsCleanly_requireUnit_bind fun unit hfound => rejectsCleanly_ite (fun _ => ?_)
    fun _ => ?_
  · exact rejectsCleanly_ofExcept_bind fun replay _ => rejectsCleanly_ite
      (fun _ => returns_record.rejectsCleanly) fun _ => rejectsCleanly_raise _
  · refine rejectsCleanly_requireUnitClaim_bind hd fun worker _ => rejectsCleanly_read_bind
      (rejectsCleanly_ite (fun _ => rejectsCleanly_raise _) fun _ =>
        rejectsCleanly_ite (fun _ => rejectsCleanly_raise _) fun _ => ?_)
    refine (returns_bind (returns_write _) fun _ => returns_bind (returns_refreshTotals ?_)
      fun _ => returns_record).rejectsCleanly
    have hstored := get?_of_lookupUnit hs hfound
    have hreq : (unit.settledBy worker result).required = unit.required := rfl
    exact hasRequired_set h hstored hreq

theorem rejectsCleanly_settleUnitFailure (hs : UnitsSound task.units) (h : Accounted task)
    (hd : task.deadlineElapsed now = false) (unitId workerId : String) (leaseEpoch : Int)
    (decision : FailureDecision) :
    RejectsCleanly (LongTaskRepository.settleUnitFailure now unitId workerId leaseEpoch decision)
      task := by
  refine rejectsCleanly_unitOp hs hd fun unit worker hholds => ?_
  refine (returns_bind (returns_write _) fun _ => ?_).rejectsCleanly
  have hreq : (unit.failedBy decision).required = unit.required := rfl
  have hrequired := hasRequired_set h hholds.stored hreq
  cases LongTaskUnitRecord.targetStatus decision.disposition with
  | canceled => exact returns_bind returns_cancel fun _ => returns_record
  | failed => exact returns_bind (returns_failTask _ hrequired) fun _ => returns_record
  | blocked =>
    refine returns_read_bind (returns_ite ?_ ?_)
    · exact returns_bind (returns_write _) fun _ => returns_bind (returns_setStatus _) fun _ =>
        returns_record
    · exact returns_bind (returns_write _) fun _ => returns_record
  | pending | waitingRetry | claimed | running | needsSplit | expanded | completed =>
    exact returns_bind (returns_write _) fun _ => returns_record

theorem rejectsCleanly_interruptUnit (hs : UnitsSound task.units)
    (hd : task.deadlineElapsed now = false) (unitId workerId : String) (leaseEpoch : Int)
    (reasonCode : String) :
    RejectsCleanly (LongTaskRepository.interruptUnit now unitId workerId leaseEpoch reasonCode)
      task :=
  rejectsCleanly_unitOp hs hd fun _ _ _ => rejectsCleanly_ofExcept_bind fun _ _ =>
    (returns_bind (returns_write _) fun _ => returns_bind (returns_setStatus _) fun _ =>
      returns_record).rejectsCleanly

/-- What an accepted expansion goes on with once the manifest is written. -/
theorem Accepts.method_apply {unitId workerId worker : String} {leaseEpoch : Int}
    {split : LongTaskSplitResult} {decision : FailureDecision} {parent : LongTaskUnitRecord}
    {units : Dict String LongTaskUnitRecord}
    (haccepts : Accepts now task unitId workerId leaseEpoch split decision parent worker units)
    (haction : LongTaskRepository.expandUnit now unitId workerId leaseEpoch split decision =
      .ok action) :
    action task = (TaskAction.refreshTotals >>= fun _ => TaskAction.record)
      { task with units := units.set parent.id (parent.expandedBy worker decision) } := by
  unfold LongTaskRepository.expandUnit at haction
  split_ifs at haction
  cases haction
  rw [Action.bind_apply, requireUnit_apply haccepts.found]
  simp only [if_neg haccepts.opened]
  rw [Action.bind_apply, requireUnitClaim_apply haccepts.deadline haccepts.held]
  simp only
  rw [Action.read_bind_apply, haccepts.checked, Action.ofExcept_ok_bind_apply,
    haccepts.prospective_eq, Action.ofExcept_ok_bind_apply, Action.write_bind_apply]

theorem rejectsCleanly_expandUnit_iff (hs : UnitsSound task.units)
    (hd : task.deadlineElapsed now = false) {unitId workerId : String} {leaseEpoch : Int}
    {split : LongTaskSplitResult} {decision : FailureDecision}
    (haction : LongTaskRepository.expandUnit now unitId workerId leaseEpoch split decision =
      .ok action) :
    RejectsCleanly action task ↔
      KeepsRequired now (.call (.expandUnit unitId workerId leaseEpoch split decision)) task := by
  constructor
  · intro hclean parent worker units haccepts
    have hstored := get?_of_lookupUnit hs haccepts.found
    have hsplit := split_of_prospective haccepts.checked haccepts.prospective_eq
    rw [← hsplit.hasRequired_iff hs hstored worker decision]
    by_contra hnone
    -- the totals refuse what was already written
    have happly := haccepts.method_apply haction
    rw [Action.bind_apply, TaskAction.refreshTotals_apply, if_neg hnone] at happly
    have hfinal := hclean _ (congrArg Prod.fst happly)
    unfold Action.final at hfinal
    rw [happly] at hfinal
    have hunits := congrArg (fun task => task.units.get? parent.id) hfinal
    simp only [Dict.get?_set_self, hstored, Option.some.injEq] at hunits
    exact haccepts.opened (congrArg LongTaskUnitRecord.status hunits).symm
  · intro hkeeps
    have hwhole := haction
    unfold LongTaskRepository.expandUnit at haction
    split_ifs at haction with hdisposition hchildren
    cases haction
    refine rejectsCleanly_requireUnit_bind fun parent hfound => rejectsCleanly_ite (fun _ => ?_)
      fun _ => ?_
    · exact rejectsCleanly_ofExcept_bind fun replay _ => rejectsCleanly_ite
        (fun _ => returns_record.rejectsCleanly) fun _ => rejectsCleanly_raise _
    · refine rejectsCleanly_requireUnitClaim_bind hd fun worker hheld => rejectsCleanly_read_bind
        (rejectsCleanly_ofExcept_bind fun _ hchecked => rejectsCleanly_ofExcept_bind
          fun units hprospective => ?_)
      have haccepts : Accepts now task unitId workerId leaseEpoch split decision parent worker
          units := ⟨not_not.1 hdisposition, by simpa using hchildren, hd, hfound, hheld, hchecked,
        hprospective⟩
      have hstored := get?_of_lookupUnit hs hfound
      have hsplit := split_of_prospective hchecked hprospective
      have hrequired := (hsplit.hasRequired_iff hs hstored worker decision).2
        (hkeeps _ _ _ haccepts)
      refine (returns_bind (returns_write _) fun _ =>
        returns_bind (returns_refreshTotals ?_) fun _ => returns_record).rejectsCleanly
      exact hrequired

end

/-! ## Every call, every run -/

/-- The calls that are meant to leave a task untouched when they raise: those that settle a unit,
bind it, split it or interrupt it, a resume and a usage report. -/
def TaskOp.guarded : TaskOp → Bool
  | .expandUnit .. | .completeUnit .. | .settleUnitFailure .. | .bindUnitRun .. | .interruptUnit ..
  | .resume .. | .recordUsage .. => true
  | _ => false

/-- What a call answers. -/
def TaskOp.reply (op : TaskOp) (now : Int) (task : StoredLongTask) : Except PyError LongTaskReply :=
  match op.method now with
  | .error e => .error e
  | .ok action => (action task).1

/-- If the call raises, the task is as it was. -/
def TaskOp.RejectsCleanly (op : TaskOp) (now : Int) (task : StoredLongTask) : Prop :=
  ∀ e, op.reply now task = .error e → op.apply now task = task

section

variable {now : Int} {task : StoredLongTask}

/-- The task a task id names. -/
def LongTaskState.named (state : LongTaskState) (taskId : String) : Option StoredLongTask :=
  match requiredText taskId "long task id" with
  | .ok id => state.tasks.get? id
  | .error _ => none

theorem rejectsCleanly_call_iff {α : Type} {op : TaskOp} {x : Except PyError (TaskAction α)}
    {g : α → LongTaskReply} (hop : op.method now = x.map (g <$> ·)) :
    op.RejectsCleanly now task ↔ ∀ m, x = .ok m → Purra.RejectsCleanly m task := by
  unfold TaskOp.RejectsCleanly TaskOp.reply TaskOp.apply Purra.RejectsCleanly
  rw [hop]
  cases x with
  | error err => simp [Except.map]
  | ok m =>
    simp only [Except.map, Action.final_map, Action.fst_map]
    cases h : (m task).1 with
    | error err => simp [h]
    | ok a => simp [h]

/-- **A guarded call leaves the task as it was when it raises, if and only if it is no expansion
that leaves no required unit.** -/
theorem TaskOp.rejectsCleanly_iff (hs : UnitsSound task.units) (h : Accounted task)
    (hd : task.deadlineElapsed now = false) {op : TaskOp} (hop : op.guarded = true) :
    op.RejectsCleanly now task ↔ KeepsRequired now (.call op) task := by
  cases op with
  | expandUnit id worker epoch split decision =>
    rw [rejectsCleanly_call_iff rfl]
    constructor
    · intro hclean parent holder units haccepts
      have hmethod : ∃ m, LongTaskRepository.expandUnit now id worker epoch split decision =
          .ok m := by
        have hchildren : split.children.isEmpty = false := by simpa using haccepts.nonempty
        unfold LongTaskRepository.expandUnit
        rw [if_neg (by simp [haccepts.disposition]), if_neg (by simp [hchildren])]
        exact ⟨_, rfl⟩
      obtain ⟨m, hm⟩ := hmethod
      exact (rejectsCleanly_expandUnit_iff hs hd hm).1 (hclean m hm) parent holder units haccepts
    · intro hkeeps m hm
      exact (rejectsCleanly_expandUnit_iff hs hd hm).2 hkeeps
  | recordUsage run usage revision =>
    exact iff_of_true ((rejectsCleanly_call_iff rfl).2 fun m hm =>
      rejectsCleanly_recordUsage h.required hm) trivial
  | resume extra =>
    exact iff_of_true ((rejectsCleanly_call_iff rfl).2 fun m hm => rejectsCleanly_resume hm) trivial
  | bindUnitRun id worker epoch run =>
    refine iff_of_true ((rejectsCleanly_call_iff (x := .ok _) rfl).2 ?_) trivial
    rintro _ ⟨⟩
    exact rejectsCleanly_bindUnitRun hs hd id worker epoch run
  | completeUnit id worker epoch result =>
    refine iff_of_true ((rejectsCleanly_call_iff (x := .ok _) rfl).2 ?_) trivial
    rintro _ ⟨⟩
    exact rejectsCleanly_completeUnit hs h hd id worker epoch result
  | settleUnitFailure id worker epoch decision =>
    refine iff_of_true ((rejectsCleanly_call_iff (x := .ok _) rfl).2 ?_) trivial
    rintro _ ⟨⟩
    exact rejectsCleanly_settleUnitFailure hs h hd id worker epoch decision
  | interruptUnit id worker epoch reason =>
    refine iff_of_true ((rejectsCleanly_call_iff (x := .ok _) rfl).2 ?_) trivial
    rintro _ ⟨⟩
    exact rejectsCleanly_interruptUnit hs hd id worker epoch reason
  | _ => cases hop

end

variable {pyStr : Json → String}

theorem final_onTask_of_error {state : LongTaskState} {taskId : String} {now : Int} {op : TaskOp}
    (hclean : ∀ task, state.named taskId = some task → op.RejectsCleanly now task) {e : PyError}
    (herror : (onTask taskId (op.method now) state).1 = .error e) :
    (onTask taskId (op.method now)).final state = state := by
  unfold LongTaskState.named at hclean
  unfold Action.final
  unfold onTask at herror ⊢
  cases hmethod : op.method now with
  | error err => rfl
  | ok action =>
    rw [hmethod, Action.ofExcept_ok_bind_apply] at herror
    rw [Action.ofExcept_ok_bind_apply]
    cases hid : requiredText taskId "long task id" with
    | error err => rfl
    | ok id =>
      rw [hid, Action.ofExcept_ok_bind_apply, Action.read_bind_apply] at herror
      rw [Action.ofExcept_ok_bind_apply, Action.read_bind_apply]
      cases hget : state.tasks.get? id with
      | none => rfl
      | some task =>
        rw [hget] at herror
        have hreply : op.reply now task = .error e := by
          unfold TaskOp.reply
          rw [hmethod]
          exact herror
        have htask := hclean task (by rw [hid]; exact hget) e hreply
        unfold TaskOp.apply at htask
        rw [hmethod] at htask
        have hkept : state.tasks.set id (action task).2 = state.tasks := by
          rw [show (action task).2 = task from htask]
          exact Dict.set_of_get? hget
        show ({ state with tasks := state.tasks.set id (action task).2 } : LongTaskState) = state
        rw [hkept]

/-- **Rejected calls, in every run.**  In every run whose accepted expansions leave a required unit,
a guarded call on a task whose deadline has not elapsed leaves the whole repository as it was when
it raises, if it is no expansion that leaves no required unit; and such an expansion does not leave
its task as it was. -/
theorem reached_rejectsCleanly {run : List (Int × LongTaskOp)}
    (hrun : Along (LongTaskState.step pyStr) (Meets KeepsRequired) .empty run) {op : TaskOp}
    (hop : op.guarded = true) (now : Int) :
    (∀ taskId, (∀ task, (exec (LongTaskState.step pyStr) .empty run).named taskId = some task →
        task.deadlineElapsed now = false ∧ KeepsRequired now (.call op) task) →
      ∀ e, (LongTaskRepository.onTask taskId (op.method now)
          (exec (LongTaskState.step pyStr) .empty run)).1 = .error e →
        (exec (LongTaskState.step pyStr) .empty run).step pyStr (now, .onTask taskId op) =
          exec (LongTaskState.step pyStr) .empty run) ∧
      ∀ k task, (exec (LongTaskState.step pyStr) .empty run).tasks.get? k = some task →
        task.deadlineElapsed now = false →
        (op.RejectsCleanly now task ↔ KeepsRequired now (.call op) task) := by
  have hiff : ∀ k task, (exec (LongTaskState.step pyStr) .empty run).tasks.get? k = some task →
      task.deadlineElapsed now = false →
      (op.RejectsCleanly now task ↔ KeepsRequired now (.call op) task) := by
    intro k task hget hd
    obtain ⟨hs, h⟩ := accounted_reachable hrun k task hget
    exact TaskOp.rejectsCleanly_iff hs h hd hop
  refine ⟨fun taskId hmeets e herror => ?_, hiff⟩
  refine final_onTask_of_error (fun task hnamed => ?_) herror
  obtain ⟨hd, hkeeps⟩ := hmeets task hnamed
  unfold LongTaskState.named at hnamed
  split at hnamed
  · exact (hiff _ task hnamed hd).2 hkeeps
  · cases hnamed

/-- The unit `u` is held by `w`, and another worker tries to interrupt it. -/
theorem reached_rejectsCleanly_heldRun :
    ∃ e, (LongTaskRepository.onTask "t" ((TaskOp.interruptUnit "u" "other" 1 "why").method 3)
        (exec (LongTaskState.step noStr) .empty heldRun)).1 = .error e ∧
      (exec (LongTaskState.step noStr) .empty heldRun).step noStr
          (3, .onTask "t" (.interruptUnit "u" "other" 1 "why")) =
        exec (LongTaskState.step noStr) .empty heldRun := by
  have herror : (LongTaskRepository.onTask "t" ((TaskOp.interruptUnit "u" "other" 1 "why").method 3)
      (exec (LongTaskState.step noStr) .empty heldRun)).1 = .error (.contractViolation
        "long task unit lease authority was lost" "long_task_unit_lease_lost"
        [("taskId", "t"), ("unitId", "u")]) := rfl
  have hdeadline : ((exec (LongTaskState.step noStr) .empty heldRun).named "t").all
      (fun task => !task.deadlineElapsed 3) = true := by decide
  refine ⟨_, herror, (reached_rejectsCleanly meets_heldRun rfl 3).1 "t" (fun task hnamed => ?_) _
    herror⟩
  rw [hnamed] at hdeadline
  exact ⟨by simpa using hdeadline, trivial⟩

/-- An expansion of the only required unit into an optional one raises, and has expanded it. -/
theorem refused_expansion_changes_units :
    ¬ ∀ (pyStr : Json → String) (run : List (Int × LongTaskOp)) (k : String)
        (task : StoredLongTask) (now : Int) (op : TaskOp),
      (exec (LongTaskState.step pyStr) .empty run).tasks.get? k = some task →
      task.deadlineElapsed now = false → op.guarded = true → op.RejectsCleanly now task := by
  intro h
  have hclean := h noStr heldRun "t" _ 3 (.expandUnit "u" "w" 1
    ⟨[soloUnit "a" 1 false], [], by simp [soloUnit], by simp [soloUnit], by simp⟩ splitDecision)
    rfl rfl rfl _ rfl
  have hstatus := congrArg (fun task => (task.units.get? "u").map (·.status)) hclean
  exact absurd hstatus (by decide)

end Purra
