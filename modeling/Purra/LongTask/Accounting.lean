import Purra.LongTask.Manifest

/-!
# The books of a task

The record of a task carries totals that could be counted from its units, a usage
that could be summed from what each Run reported, and a revision.  Some methods
count the totals afresh, some patch them, most leave them alone.

* `KeepsRequired` — an accepted expansion leaves a required unit to count.
* `Accounted` — the totals, the usage and the status agree with the units and the
  recorded usages.
* `Accounts` — what one call does to the books: it keeps them, and the revision rises
  whenever the record or a unit changes.
* `TaskEvent.accounts_apply`, `reached_accounted` — **one call, and every run**.
-/

namespace Purra

open StoredLongTask LongTaskRepository

/-! ## Counting units -/

/-- How a unit counts: as required, as required and completed, as required and failed. -/
def LongTaskUnitRecord.tally (unit : LongTaskUnitRecord) : Bool × Bool × Bool :=
  (unit.required, unit.required && unit.status = .completed,
    unit.required && unit.status = .failed)

/-- How the units of a manifest count. -/
def tallies (units : Dict String LongTaskUnitRecord) : List (Bool × Bool × Bool) :=
  units.values.map (·.tally)

/-- A unit that stays required, or not, and neither completes nor fails. -/
def SameTally (u v : LongTaskUnitRecord) : Prop := v.tally = u.tally

theorem SameTally.refl (u : LongTaskUnitRecord) : SameTally u u := rfl

theorem sameTally_of {u v : LongTaskUnitRecord} (hreq : v.required = u.required)
    (hcompleted : v.status = .completed ↔ u.status = .completed)
    (hfailed : v.status = .failed ↔ u.status = .failed) : SameTally u v := by
  unfold SameTally LongTaskUnitRecord.tally
  rw [hreq, decide_eq_decide.2 hcompleted, decide_eq_decide.2 hfailed]

variable {units : Dict String LongTaskUnitRecord}

theorem tallies_of_rel {units' : Dict String LongTaskUnitRecord}
    (h : Dict.Rel SameTally units units') : tallies units' = tallies units :=
  h.map_values_eq fun _ _ h => h

theorem tallies_map {f : String → LongTaskUnitRecord → LongTaskUnitRecord}
    (hf : ∀ k unit, units.get? k = some unit → SameTally unit (f k unit)) :
    tallies (units.map f) = tallies units :=
  tallies_of_rel (Dict.Rel.map hf)

variable {k : String}

theorem tallies_set {unit unit' : LongTaskUnitRecord} (hget : units.get? k = some unit)
    (h : SameTally unit unit') : tallies (units.set k unit') = tallies units :=
  tallies_of_rel (Dict.Rel.set hget h SameTally.refl)

theorem length_requiredUnits (task : StoredLongTask) :
    task.requiredUnits.length = (tallies task.units).countP (·.1) := by
  unfold StoredLongTask.requiredUnits tallies
  rw [List.countP_map, ← List.countP_eq_length_filter]
  rfl

theorem countP_requiredUnits_completed (task : StoredLongTask) :
    task.requiredUnits.countP (·.status = .completed) = (tallies task.units).countP (·.2.1) := by
  unfold StoredLongTask.requiredUnits tallies
  rw [List.countP_map, List.countP_filter]
  exact List.countP_congr fun unit _ => by simp [LongTaskUnitRecord.tally, and_comm]

theorem countP_requiredUnits_failed (task : StoredLongTask) :
    task.requiredUnits.countP (·.status = .failed) = (tallies task.units).countP (·.2.2) := by
  unfold StoredLongTask.requiredUnits tallies
  rw [List.countP_map, List.countP_filter]
  exact List.countP_congr fun unit _ => by simp [LongTaskUnitRecord.tally, and_comm]

theorem hasRequired_eq (task : StoredLongTask) :
    task.hasRequired = (tallies task.units).any (·.1) := by
  unfold StoredLongTask.hasRequired tallies
  rw [List.any_map]
  rfl

namespace LongTaskUnitRecord

variable {u : LongTaskUnitRecord}

/-- A rewrite that only touches units that are not terminal, and neither completes nor fails
them. -/
theorem sameTally_of_open {v : LongTaskUnitRecord} (hreq : v.required = u.required)
    (hu : u.status ≠ .completed ∧ u.status ≠ .failed)
    (hv : v.status ≠ .completed ∧ v.status ≠ .failed) : SameTally u v :=
  sameTally_of hreq (iff_of_false hv.1 hu.1) (iff_of_false hv.2 hu.2)

theorem open_of_not_terminal (h : ¬ u.status.terminal = true) :
    u.status ≠ .completed ∧ u.status ≠ .failed := by
  constructor <;> intro hs <;> rw [hs] at h <;> exact h rfl

theorem open_of_active (h : u.status.active = true) :
    u.status ≠ .completed ∧ u.status ≠ .failed := by
  constructor <;> intro hs <;> rw [hs] at h <;> cases h

theorem sameTally_canceled (u : LongTaskUnitRecord) : SameTally u u.canceled := by
  unfold canceled
  split
  · rfl
  · exact sameTally_of_open rfl (open_of_not_terminal ‹_›) (by simp)

theorem canceled_of_terminal (h : u.status.terminal = true) :
    u.canceled = u := by
  unfold canceled
  rw [if_pos h]

theorem terminal_canceled (u : LongTaskUnitRecord) : u.canceled.status.terminal = true := by
  unfold canceled
  split
  · assumption
  · rfl

theorem sameTally_released (reason : String) (u : LongTaskUnitRecord) :
    SameTally u (u.released reason) := by
  unfold released
  split
  · exact sameTally_of_open rfl (open_of_active ‹_›) (by simp)
  · rfl

/-- An optional unit does not count, whatever becomes of it. -/
theorem sameTally_of_optional {v : LongTaskUnitRecord} (hu : u.required = false)
    (hv : v.required = false) : SameTally u v := by
  unfold SameTally tally
  rw [hu, hv]
  rfl

end LongTaskUnitRecord

/-! ## The books -/

/-- The totals of the record are those counted from the required units. -/
structure StoredLongTask.Totals (task : StoredLongTask) : Prop where
  total : task.record.totalUnits = task.requiredUnits.length
  completed : task.record.completedUnits = task.requiredUnits.countP (·.status = .completed)
  failed : task.record.failedUnits = task.requiredUnits.countP (·.status = .failed)

variable {task : StoredLongTask}

variable {task' : StoredLongTask}

/-- Totals stay right while the record keeps them and the units count as before. -/
theorem StoredLongTask.Totals.of_tallies (h : task.Totals)
    (htallies : tallies task'.units = tallies task.units)
    (htotal : task'.record.totalUnits = task.record.totalUnits)
    (hcompleted : task'.record.completedUnits = task.record.completedUnits)
    (hfailed : task'.record.failedUnits = task.record.failedUnits) : task'.Totals where
  total := by rw [htotal, h.total, length_requiredUnits, length_requiredUnits, htallies]
  completed := by
    rw [hcompleted, h.completed, countP_requiredUnits_completed, countP_requiredUnits_completed,
      htallies]
  failed := by
    rw [hfailed, h.failed, countP_requiredUnits_failed, countP_requiredUnits_failed, htallies]

/-- The usage of the record is the sum over the Runs that reported one; before the first report it
is the default usage. -/
def StoredLongTask.Booked (task : StoredLongTask) : Prop :=
  task.record.usage =
    if task.usageByRun.entries = [] then .zero else aggregateUsage task.usageByRun.values

/-- The books of a task agree with its units and its recorded usages. -/
structure Accounted (task : StoredLongTask) : Prop where
  required : task.hasRequired = true
  totals : task.Totals
  booked : task.Booked
  /-- A canceled task has no unit left to cancel. -/
  canceled : task.record.status = .canceled →
    ∀ unit ∈ task.units.values, unit.status.terminal = true

/-- The units and the record, its revision apart, are as before. -/
def Unchanged (task task' : StoredLongTask) : Prop :=
  task'.units = task.units ∧
    { task'.record with revision := task.record.revision } = task.record

/-- **What one call does to the books**: they stay right; and either nothing changed, or the
revision has risen, and then something changed or the call restates what was there. -/
structure Accounts (restates : Prop) (task task' : StoredLongTask) : Prop where
  accounted : Accounted task'
  revision : (task'.units = task.units ∧ task'.record = task.record) ∨
    (task.record.revision < task'.record.revision ∧ (¬ Unchanged task task' ∨ restates))

theorem not_unchanged_of_status
    (h : task'.record.status ≠ task.record.status) : ¬ Unchanged task task' := by
  intro hsame
  have hstatus := congrArg LongTaskRecord.status hsame.2
  exact h hstatus

theorem not_unchanged_of_unit
    {unit unit' : LongTaskUnitRecord} (hget : task.units.get? k = some unit)
    (hget' : task'.units.get? k = some unit') (h : unit' ≠ unit) : ¬ Unchanged task task' := by
  intro hsame
  rw [hsame.1, hget] at hget'
  cases hget'
  exact h rfl

section

variable {now : Int} {task : StoredLongTask} {R : Prop}

theorem Accounts.stay (h : Accounted task) : Accounts R task task := ⟨h, .inl ⟨rfl, rfl⟩⟩

variable {units : Dict String LongTaskUnitRecord}

variable {status : LongTaskStatus}

/-- A method that writes to the record and the units in one go and leaves how the units count. -/
theorem Accounts.rewrite (h : Accounted task)
    {revision : Nat} {cancellationRequestedAtMs : Option Nat}
    (htallies : tallies units = tallies task.units)
    (hcanceled : status = .canceled → ∀ unit ∈ units.values, unit.status.terminal = true)
    (hrevision : task.record.revision < revision)
    (hchanged : ¬ Unchanged task { task with units, record := { task.record with
      status, revision, cancellationRequestedAtMs } } ∨ R) :
    Accounts R task { task with units, record := { task.record with
      status, revision, cancellationRequestedAtMs } } := by
  refine ⟨⟨?_, ?_, h.booked, hcanceled⟩, .inr ⟨hrevision, hchanged⟩⟩
  · rw [hasRequired_eq, ← h.required, hasRequired_eq]
    show (tallies units).any _ = _
    rw [htallies]
  · exact h.totals.of_tallies htallies rfl rfl rfl

variable {task' : StoredLongTask}

/-- A method that counts the totals afresh. -/
theorem Accounts.refresh (hrequired : task'.hasRequired = true)
    (hbooked : task'.Booked) (hcanceled : task'.record.status ≠ .canceled)
    (hrevision : task.record.revision ≤ task'.record.revision)
    (hchanged : ¬ Unchanged task (TaskAction.refreshTotals.final task') ∨ R) :
    Accounts R task (TaskAction.refreshTotals.final task') := by
  have hfinal : TaskAction.refreshTotals.final task' =
      TaskAction.touch.final { task' with record := task'.recounted } := by
    unfold Action.final
    rw [TaskAction.refreshTotals_apply, if_pos hrequired]
    rfl
  rw [hfinal] at hchanged ⊢
  exact ⟨⟨hrequired, ⟨rfl, rfl, rfl⟩, hbooked, fun h => absurd h hcanceled⟩,
    .inr ⟨Nat.lt_succ_of_le hrevision, hchanged⟩⟩

theorem final_setStatus (status : LongTaskStatus) (task : StoredLongTask) :
    (TaskAction.setStatus status).final task =
      if task.record.status = status then task
      else { task with record := { task.record with
        status, revision := task.record.revision + 1 } } := by
  unfold TaskAction.setStatus
  rw [Action.final_read_bind, Action.final_ite]
  rfl

/-- A method that moves the task after rewriting units without changing how they count. -/
theorem Accounts.setStatus (h : Accounted task) (htallies : tallies units = tallies task.units)
    (hcanceled : status = .canceled → ∀ unit ∈ units.values, unit.status.terminal = true)
    (hstatus : task.record.status ≠ status) :
    Accounts R task ((TaskAction.setStatus status).final { task with units }) := by
  rw [final_setStatus, if_neg hstatus]
  exact Accounts.rewrite h htallies hcanceled (Nat.lt_succ_self _)
    (.inl (not_unchanged_of_status (Ne.symm hstatus)))

theorem hasRequired_map {f : String → LongTaskUnitRecord → LongTaskUnitRecord}
    (hf : ∀ k unit, (f k unit).required = unit.required) (task : StoredLongTask) :
    StoredLongTask.hasRequired { task with units := task.units.map f } = task.hasRequired := by
  unfold StoredLongTask.hasRequired
  rw [Dict.values_map, Dict.values, List.any_map, List.any_map]
  congr 1
  funext p
  exact hf p.1 p.2

/-- A method that closes the task counts its totals afresh and then moves it. -/
theorem Accounts.close {f : String → LongTaskUnitRecord → LongTaskUnitRecord}
    (hf : ∀ k unit, (f k unit).required = unit.required)
    (hrequired : task'.hasRequired = true) (hbooked : task'.Booked)
    (hcanceled : status ≠ .canceled) (hrevision : task.record.revision ≤ task'.record.revision)
    (hchanged : task.record.status ≠ status ∨ R) :
    Accounts R task ((TaskAction.closeWith f status).final task') := by
  have hmapped := (hasRequired_map hf task').trans hrequired
  have hstatus := TaskAction.status_closeWith hf status task'
  rw [if_pos hrequired] at hstatus
  have hchanged' : ¬ Unchanged task ((TaskAction.closeWith f status).final task') ∨ R :=
    hchanged.imp_left fun hne => not_unchanged_of_status fun heq =>
      hne (heq.symm.trans hstatus)
  have hmoved : ((TaskAction.closeWith f status).final task').record.status ≠ .canceled :=
    fun h => hcanceled (hstatus.symm.trans h)
  rw [TaskAction.closeWith_final] at hchanged' hmoved ⊢
  simp only [hmapped, if_true] at hchanged' hmoved ⊢
  rw [final_setStatus] at hchanged' hmoved ⊢
  split_ifs at hchanged' hmoved ⊢
  · exact ⟨⟨hmapped, ⟨rfl, rfl, rfl⟩, hbooked, fun h => absurd h hmoved⟩,
      .inr ⟨Nat.lt_succ_of_le hrevision, hchanged'⟩⟩
  · exact ⟨⟨hmapped, ⟨rfl, rfl, rfl⟩, hbooked, fun h => absurd h hmoved⟩,
      .inr ⟨Nat.lt_succ_of_lt (Nat.lt_succ_of_le hrevision), hchanged'⟩⟩

/-! ### The helpers -/

theorem accounts_expireDeadline (h : Accounted task) (hR : R) :
    Accounts R task (TaskAction.expireDeadline.final task) :=
  Accounts.close (fun _ unit => unit.halted_deadlineFailed.required) h.required h.booked
    (by decide) le_rfl (.inr hR)

theorem accounts_failBudget (hrequired : task'.hasRequired = true)
    (hbooked : task'.Booked) (hrevision : task.record.revision ≤ task'.record.revision) (hR : R)
    (kind : String) : Accounts R task ((TaskAction.failBudget kind).final task') := by
  unfold TaskAction.failBudget
  rw [Action.final_read_bind]
  cases task'.record.budgetExhaustionDisposition with
  | pauseRecoverable =>
    exact Accounts.close (fun _ unit => (unit.halted_budgetBlocked kind).required) hrequired
      hbooked (by decide) hrevision (.inr hR)
  | failPermanent =>
    exact Accounts.close (fun _ unit => (unit.halted_budgetFailed kind).required) hrequired
      hbooked (by decide) hrevision (.inr hR)

theorem accounts_failTask (h : Accounted task)
    (hrequired : StoredLongTask.hasRequired { task with units } = true)
    (hstatus : task.record.status = .running) (failedUnitId : String) :
    Accounts R task ((TaskAction.failTask failedUnitId).final { task with units }) := by
  refine Accounts.close (fun k unit => ?_) hrequired h.booked (by decide) le_rfl (.inl ?_)
  · split
    · rfl
    · exact unit.halted_dependencyFailed.required
  · rw [hstatus]
    decide

theorem mem_values_map {f : LongTaskUnitRecord → LongTaskUnitRecord} {v : LongTaskUnitRecord}
    (h : v ∈ (units.map fun _ unit => f unit).values) : ∃ u ∈ units.values, v = f u := by
  rw [Dict.values_map, List.mem_map] at h
  obtain ⟨p, hp, rfl⟩ := h
  exact ⟨p.2, List.mem_map_of_mem hp, rfl⟩

/-- Canceling a task that is not canceled yet. -/
theorem accounts_cancel_of_ne (h : Accounted task)
    (htallies : tallies units = tallies task.units) (hstatus : task.record.status ≠ .canceled) :
    Accounts R task (TaskAction.cancel.final { task with units }) := by
  unfold TaskAction.cancel
  rw [TaskAction.final_updateUnits_bind]
  refine Accounts.setStatus h ?_ (fun _ unit hunit => ?_) hstatus
  · exact (tallies_map fun _ unit _ => unit.sameTally_canceled).trans htallies
  · obtain ⟨u, -, rfl⟩ := mem_values_map hunit
    exact u.terminal_canceled

/-- Canceling it again changes nothing: its units are all terminal. -/
theorem accounts_cancel (h : Accounted task) :
    Accounts R task (TaskAction.cancel.final task) := by
  by_cases hstatus : task.record.status = .canceled
  · have hunits : (task.units.map fun _ unit => unit.canceled) = task.units := by
      refine Dict.ext ?_
      unfold Dict.map
      refine (List.map_congr_left fun p hp => ?_).trans (List.map_id _)
      have hterminal := h.canceled hstatus p.2 (List.mem_map_of_mem hp)
      show (p.1, p.2.canceled) = p
      rw [LongTaskUnitRecord.canceled_of_terminal hterminal]
    have hfinal : TaskAction.cancel.final task = task := by
      unfold TaskAction.cancel
      rw [TaskAction.final_updateUnits_bind, hunits, final_setStatus, if_pos hstatus]
    rw [hfinal]
    exact Accounts.stay h
  · exact accounts_cancel_of_ne h rfl hstatus

/-- Taking the units from their workers and pausing. -/
theorem accounts_release (h : Accounted task)
    (htallies : tallies units = tallies task.units) (hstatus : task.record.status ≠ .paused)
    (reason : String) :
    Accounts R task ((TaskAction.setStatus .paused).final
      { task with units := units.map fun _ unit => unit.released reason }) := by
  refine Accounts.setStatus h ?_ (by simp) hstatus
  exact (tallies_map fun _ unit _ => unit.sameTally_released reason).trans htallies

variable {workerId : String}

variable {unitId : String} {leaseEpoch : Int} {unit : LongTaskUnitRecord}

theorem accounts_requireUnitClaim {α : Type} (hs : UnitsSound task.units) (h : Accounted task)
    (hR : task.deadlineElapsed now = true → R) {f : String → TaskAction α}
    (hfound : task.lookupUnit unitId = some unit) (hf : ∀ worker, task.deadlineElapsed now = false →
      task.heldBy now unit workerId leaseEpoch = some worker → Holds now task unit →
      Accounts R task ((f worker).final task)) :
    Accounts R task
      ((TaskAction.requireUnitClaim now unit workerId leaseEpoch >>= f).final task) := by
  rw [TaskAction.requireUnitClaim_bind]
  by_cases hd : task.deadlineElapsed now = true
  · rw [if_pos hd]
    exact accounts_expireDeadline h (hR hd)
  · rw [if_neg hd]
    cases hheld : task.heldBy now unit workerId leaseEpoch with
    | none => exact Accounts.stay h
    | some worker =>
      have hclaim := holdsClaim_of_heldBy hheld
      exact hf worker (by simpa using hd) hheld
        ⟨get?_of_lookupUnit hs hfound, running_of_holdsClaim hclaim, live_of_holdsClaim hclaim⟩

theorem accounts_unitOp {α : Type} (hs : UnitsSound task.units) (h : Accounted task)
    (hR : task.deadlineElapsed now = true → R) {f : LongTaskUnitRecord → String → TaskAction α}
    (hf : ∀ unit worker, Holds now task unit → Accounts R task ((f unit worker).final task)) :
    Accounts R task ((TaskAction.requireUnit unitId >>= fun unit =>
      TaskAction.requireUnitClaim now unit workerId leaseEpoch >>= f unit).final task) := by
  rw [TaskAction.requireUnit_bind]
  cases hfound : task.lookupUnit unitId with
  | none => exact Accounts.stay h
  | some unit =>
    exact accounts_requireUnitClaim hs h hR hfound fun worker _ _ hholds => hf unit worker hholds

/-- An accepted write to a held unit that neither completes nor fails it. -/
theorem accounts_hold (h : Accounted task)
    (hholds : Holds now task unit) (unit' : LongTaskUnitRecord) (hid : unit'.id = unit.id)
    (hreq : unit'.required = unit.required)
    (hopen : unit'.status ≠ .completed ∧ unit'.status ≠ .failed) (hchanged : unit' ≠ unit ∨ R) :
    Accounts R task (TaskAction.touch.final
      { task with units := task.units.set unit'.id unit' }) := by
  rw [hid]
  refine Accounts.rewrite h ?_ (fun hstatus => ?_) (Nat.lt_succ_self _) ?_
  · exact tallies_set hholds.stored (LongTaskUnitRecord.sameTally_of_open hreq
      (LongTaskUnitRecord.open_of_active hholds.active) hopen)
  · rw [hholds.running] at hstatus
    cases hstatus
  · exact hchanged.imp_left fun hne =>
      not_unchanged_of_unit hholds.stored (Dict.get?_set_self _ _ _) hne

/-! ### The methods -/

theorem accounts_bindRun (h : Accounted task) {runId : String} {relation : LongTaskRunRelation}
    {action : TaskAction LongTaskRunBinding}
    (haction : LongTaskRepository.bindRun runId relation = .ok action) :
    Accounts R task (action.final task) := by
  unfold LongTaskRepository.bindRun at haction
  split at haction
  · cases haction
  · obtain ⟨run, -, haction⟩ := bind_eq_ok haction
    cases haction
    rw [Action.final_read_bind]
    split
    · rw [Action.final_ite]
      split <;> exact Accounts.stay h
    · exact ⟨⟨h.required, h.totals.of_tallies rfl rfl rfl rfl, h.booked, h.canceled⟩,
        .inl ⟨rfl, rfl⟩⟩

theorem booked_withUsage (task : StoredLongTask) (run : String) (usage : LongTaskUsage) :
    (task.withUsage run usage).Booked := by
  have hne : (task.usageByRun.set run usage).entries ≠ [] := by
    have hmem := Dict.mem_entries_iff.2 (Dict.get?_set_self task.usageByRun run usage)
    exact List.ne_nil_of_mem hmem
  unfold StoredLongTask.Booked StoredLongTask.withUsage
  exact (if_neg hne).symm

theorem accounts_recordUsage (h : Accounted task) (hR : R) {runId : String}
    {usage : LongTaskUsage} {expectedRevision : Int} {action : TaskAction LongTaskRecord}
    (haction : LongTaskRepository.recordUsage runId usage expectedRevision = .ok action) :
    Accounts R task (action.final task) := by
  obtain ⟨run, -, haction⟩ := bind_eq_ok haction
  cases haction
  rw [Action.final_read_bind]
  split
  · rw [Action.final_ite]
    split <;> exact Accounts.stay h
  · rw [TaskAction.requireTaskRevision_bind, Action.final_write_bind, Action.final_read_bind]
    split
    · split
      · rw [TaskAction.final_bind_record]
        have hrequired : (task.withUsage run usage).hasRequired = true := h.required
        have hrevision : task.record.revision ≤ (task.withUsage run usage).record.revision :=
          le_rfl
        exact accounts_failBudget hrequired (booked_withUsage task run usage) hrevision hR _
      · rw [TaskAction.final_bind_record]
        exact ⟨⟨h.required, h.totals.of_tallies rfl rfl rfl rfl, booked_withUsage task run usage,
          h.canceled⟩, .inr ⟨Nat.lt_succ_self _, .inr hR⟩⟩
    · exact Accounts.stay h

theorem accounts_start (h : Accounted task) (hR : task.deadlineElapsed now = true → R)
    (expectedRevision : Int) :
    Accounts R task ((LongTaskRepository.start now expectedRevision).final task) := by
  unfold LongTaskRepository.start
  simp only [Action.final_read_bind, Action.final_ite, TaskAction.final_bind_record,
    TaskAction.requireTaskRevision_bind, TaskAction.final_record, Action.final_raise]
  split_ifs with hd hc hr hp hrev
  · exact accounts_expireDeadline h (hR hd)
  · exact accounts_cancel h
  · exact Accounts.stay h
  · exact Accounts.stay h
  · exact Accounts.setStatus h rfl (by simp) hr
  · exact Accounts.stay h

theorem accounts_expireDeadlineCall (h : Accounted task)
    (hR : task.deadlineElapsed now = true → R) :
    Accounts R task ((LongTaskRepository.expireDeadline now).final task) := by
  unfold LongTaskRepository.expireDeadline
  simp only [Action.final_read_bind, Action.final_ite, TaskAction.final_bind_record,
    TaskAction.final_record, Action.final_raise]
  split_ifs with ht hd
  · exact Accounts.stay h
  · exact Accounts.stay h
  · exact accounts_expireDeadline h (hR (by simpa using hd))

theorem accounts_pause (h : Accounted task) (expectedRevision : Option Int)
    (reasonCode : Option String) :
    Accounts R task ((LongTaskRepository.pause expectedRevision reasonCode).final task) := by
  unfold LongTaskRepository.pause
  simp only [Action.final_read_bind, Action.final_ite, TaskAction.final_record,
    Action.final_raise, TaskAction.final_releaseActiveUnits_bind, TaskAction.final_bind_record]
  split_ifs with hrev hpaused hstatus
  · exact Accounts.stay h
  · exact Accounts.stay h
  · exact Accounts.stay h
  · exact accounts_release h rfl hpaused _

theorem accounts_cancelCall (h : Accounted task) :
    Accounts R task (LongTaskRepository.cancel.final task) := by
  unfold LongTaskRepository.cancel
  simp only [Action.final_read_bind, Action.final_ite, TaskAction.final_bind_record,
    TaskAction.final_record, Action.final_raise]
  split_ifs
  · exact Accounts.stay h
  · exact Accounts.stay h
  · exact accounts_cancel h

theorem accounts_requestCancel (h : Accounted task) (requestedAtMs : Option Int) :
    Accounts R task ((LongTaskRepository.requestCancel now requestedAtMs).final task) := by
  unfold LongTaskRepository.requestCancel
  simp only [Action.final_read_bind, Action.final_ite, TaskAction.final_bind_record,
    TaskAction.final_record, Action.final_raise, Action.final_write_bind]
  split_ifs with hterminal hrequested
  · exact Accounts.stay h
  · exact Accounts.stay h
  · exact Accounts.stay h
  · refine Accounts.rewrite h rfl h.canceled (Nat.lt_succ_self _) (.inl fun hsame => ?_)
    have hnone := congrArg LongTaskRecord.cancellationRequestedAtMs hsame.2
    simp only at hnone
    rw [← hnone] at hrequested
    exact hrequested rfl

theorem accounts_recoverTask (h : Accounted task) (wall : Int) (reason : String) :
    Accounts R task ((LongTaskRepository.recoverTask wall reason).final task) := by
  unfold LongTaskRepository.recoverTask
  simp only [Action.final_read_bind, Action.final_ite, Action.final_pure,
    TaskAction.final_releaseActiveUnits_bind]
  split_ifs with hrunning
  · exact Accounts.stay h
  · exact Accounts.stay h
  · exact accounts_cancel h
  · refine accounts_release h rfl ?_ _
    rw [not_not.1 hrunning]
    decide

theorem LongTaskUnitRecord.tally_retried (extra : Nat) (u : LongTaskUnitRecord) :
    (u.retried extra).tally = (u.tally.1, u.tally.2.1, false) := by
  unfold LongTaskUnitRecord.retried LongTaskUnitRecord.tally
  cases hs : u.status <;> simp [LongTaskUnitStatus.recoverable, hs]

/-- `resume` patches one total: no unit is failed afterwards. -/
theorem accounts_resume (h : Accounted task) {additionalAttempts : Int}
    {action : TaskAction LongTaskRecord}
    (haction : LongTaskRepository.resume additionalAttempts = .ok action) :
    Accounts R task (action.final task) := by
  unfold LongTaskRepository.resume at haction
  split at haction
  · cases haction
  · cases haction
    simp only [Action.final_read_bind, Action.final_ite, TaskAction.final_bind_record,
      TaskAction.final_record, Action.final_raise, TaskAction.final_updateUnits_bind,
      Action.final_write_bind]
    split_ifs with hrunning hstatus htargets hnone
    · exact Accounts.stay h
    · exact Accounts.stay h
    · exact Accounts.stay h
    · exact Accounts.stay h
    · generalize hextra : resumeExtra task additionalAttempts.toNat = extra
      have htallies : tallies (task.units.map fun _ unit => unit.retried extra) =
          (tallies task.units).map fun t => (t.1, t.2.1, false) := by
        unfold tallies
        rw [Dict.values_map, Dict.values, List.map_map, List.map_map, List.map_map]
        exact List.map_congr_left fun p _ => p.2.tally_retried extra
      rw [final_setStatus, if_neg hrunning]
      refine ⟨⟨?_, ⟨?_, ?_, ?_⟩, h.booked, by simp⟩,
        .inr ⟨Nat.lt_succ_self _, .inl (not_unchanged_of_status (Ne.symm hrunning))⟩⟩
      · rw [hasRequired_eq, ← h.required, hasRequired_eq]
        simp only [htallies, List.any_map]
        rfl
      · rw [length_requiredUnits]
        simp only [htallies, List.countP_map]
        rw [h.totals.total, length_requiredUnits]
        rfl
      · rw [countP_requiredUnits_completed]
        simp only [htallies, List.countP_map]
        rw [h.totals.completed, countP_requiredUnits_completed]
        rfl
      · rw [countP_requiredUnits_failed]
        simp only [htallies, List.countP_map]
        exact (List.countP_eq_zero.2 fun t _ => by simp).symm

theorem hasRequired_set (h : Accounted task) {k : String} {unit' : LongTaskUnitRecord}
    (hget : task.units.get? k = some unit) (hreq : unit'.required = unit.required) :
    StoredLongTask.hasRequired { task with units := task.units.set k unit' } = true := by
  have hrel : Dict.Rel (fun u v : LongTaskUnitRecord => v.required = u.required) task.units
      (task.units.set k unit') := Dict.Rel.set hget hreq fun _ => rfl
  rw [← h.required]
  unfold StoredLongTask.hasRequired
  have hmap := hrel.map_values_eq fun _ _ h => h
  have hany := congrArg (List.any · id) hmap
  simpa [List.any_map, Function.comp_def] using hany

theorem accounts_finalizeIfComplete (hs : UnitsSound task.units) (h : Accounted task)
    (hR : task.deadlineElapsed now = true → R) :
    Accounts R task ((LongTaskRepository.finalizeIfComplete now).final task) := by
  unfold LongTaskRepository.finalizeIfComplete
  simp only [Action.final_read_bind, Action.final_ite, TaskAction.final_bind_record,
    TaskAction.final_record]
  split_ifs with hd hc hr hfailed hcompleted hblocked hstuck
  · exact accounts_expireDeadline h (hR hd)
  · exact accounts_cancel h
  · exact Accounts.stay h
  · exact Accounts.setStatus h rfl (by simp) (by rw [not_not.1 hr]; decide)
  · exact Accounts.setStatus h rfl (by simp) (by rw [not_not.1 hr]; decide)
  · exact Accounts.setStatus h rfl (by simp) (by rw [not_not.1 hr]; decide)
  · exact Accounts.stay h
  · split
    · rename_i unit hfind
      rw [TaskAction.final_setUnit_bind, TaskAction.final_bind_record]
      obtain ⟨⟨k, hk⟩, -⟩ := mem_requiredUnits.1 (List.mem_of_find?_eq_some hfind)
      have hget : task.units.get? unit.id = some unit := by
        rw [hs.id_eq k unit hk]
        exact hk
      have hreq : unit.stranded.required = unit.required := rfl
      exact accounts_failTask h (hasRequired_set h hget hreq) (not_not.1 hr) _
    · exact Accounts.stay h

theorem Lapsed.sameTally {u v : LongTaskUnitRecord} (h : Lapsed now u v) : SameTally u v := by
  rcases h with rfl | ⟨h, -, hoptional, -⟩
  · rfl
  · exact LongTaskUnitRecord.sameTally_of_optional hoptional (h.required.trans hoptional)

theorem accounts_grantUnit (hs : UnitsSound task.units) (h : Accounted task)
    (hrel : Dict.Rel (Lapsed now) task.units units)
    (hrunning : task.record.status = .running) {revision : Nat}
    (hrevision : (units = task.units ∧ revision = task.record.revision) ∨
      (task.record.revision < revision ∧ units ≠ task.units))
    (unitId : Option String) (worker : String) (duration : Int) :
    Accounts R task ((grantUnit now unitId worker duration).final
      { task with units, record := { task.record with revision } }) := by
  have hs' : UnitsSound units := sound_of_rel hs (hrel.mono fun _ _ h => h.kept.toSameUnit)
  have htallies : tallies units = tallies task.units :=
    tallies_of_rel (hrel.mono fun _ _ h => h.sameTally)
  have hcanceled : task.record.status ≠ .canceled := by
    rw [hrunning]
    decide
  have hnone : Accounts R task { task with units, record := { task.record with revision } } := by
    rcases hrevision with ⟨rfl, rfl⟩ | ⟨hlt, hchanged⟩
    · exact Accounts.stay h
    · exact Accounts.rewrite h htallies (fun hc => absurd hc hcanceled) hlt
        (.inl fun hsame => hchanged hsame.1)
  have hle : task.record.revision ≤ revision := by
    rcases hrevision with ⟨-, rfl⟩ | ⟨hlt, -⟩
    · exact le_rfl
    · exact hlt.le
  unfold grantUnit
  rw [Action.final_read_bind, Action.final_ite]
  split
  · exact hnone
  · split
    · exact hnone
    · rename_i unit hfind
      have hmem : unit ∈ units.values :=
        (List.mem_insertionSort _).1 (List.mem_of_find?_eq_some hfind)
      obtain ⟨k, hk⟩ := Dict.mem_values_iff.1 hmem
      obtain rfl : unit.id = k := hs'.id_eq k unit hk
      have hopen : unit.status ≠ .completed ∧ unit.status ≠ .failed := by
        have hclaim := List.find?_some hfind
        rw [Bool.and_eq_true] at hclaim
        have hclaimable := hclaim.2
        unfold StoredLongTask.claimable at hclaimable
        constructor <;> intro hstatus <;>
          simp [hstatus, LongTaskUnitStatus.waiting, LongTaskUnitStatus.active] at hclaimable
      obtain ⟨u, hu, hlapsed⟩ := hrel.get?_left hk
      rw [TaskAction.final_setUnit_bind, TaskAction.final_bind_pure]
      refine Accounts.rewrite h ?_ (fun hc => absurd hc hcanceled) (Nat.lt_succ_of_le hle)
        (.inl (not_unchanged_of_unit hu (Dict.get?_set_self _ _ _) fun heq => ?_))
      · have hclaimed : SameTally unit (unit.claimed worker (now + duration)) := by
          refine LongTaskUnitRecord.sameTally_of_open rfl hopen ⟨?_, ?_⟩ <;>
            intro hstatus <;> cases hstatus
        exact (tallies_set hk hclaimed).trans htallies
      · have hepoch := congrArg LongTaskUnitRecord.leaseEpoch heq
        rw [← hlapsed.kept.leaseEpoch] at hepoch
        exact absurd hepoch (Nat.succ_ne_self _)

theorem accounts_claimUnitLocked (hs : UnitsSound task.units) (h : Accounted task)
    (hR : task.deadlineElapsed now = true → R)
    (hbudget : (task.taskBudgetExhaustion false).isSome = true → R) (unitId : Option String)
    (worker : String) (duration : Int) :
    Accounts R task ((claimUnitLocked now unitId worker duration).final task) := by
  unfold claimUnitLocked
  rw [Action.final_read_bind]
  by_cases hd : task.deadlineElapsed now = true
  · rw [if_pos hd, TaskAction.final_bind_pure]
    exact accounts_expireDeadline h (hR hd)
  rw [if_neg hd]
  cases hexhausted : task.taskBudgetExhaustion false with
  | some kind =>
    rw [TaskAction.final_bind_pure]
    exact accounts_failBudget h.required h.booked le_rfl (hbudget (by rw [hexhausted]; rfl)) kind
  | none =>
    simp only
    by_cases hr : task.record.status ≠ .running ∨
        task.record.cancellationRequestedAtMs.isSome = true
    · rw [if_pos hr]
      exact Accounts.stay h
    rw [if_neg hr, TaskAction.final_updateUnits_bind]
    have hrunning : task.record.status = .running := by
      by_contra hne
      exact hr (Or.inl hne)
    cases hfind : task.units.entries.find? fun p => p.2.exhausted now && p.2.required with
    | some p =>
      rw [TaskAction.final_bind_pure]
      refine accounts_failTask h ?_ hrunning _
      rw [← h.required]
      exact hasRequired_of_rel (Dict.Rel.map fun _ unit _ => unit.kept_normalizeExpired now)
    | none =>
      have hrel : Dict.Rel (Lapsed now) task.units
          (task.units.map fun _ unit => unit.normalizeExpired now) := lapsed_of_find?_eq_none hfind
      simp only
      by_cases hany : task.units.values.any (·.exhausted now) = true
      · simp only [hany, if_true]
        refine accounts_grantUnit hs h hrel hrunning (.inr ⟨Nat.lt_succ_self _, fun hsame => ?_⟩)
          unitId worker duration
        -- the unit whose lease lapsed has failed
        obtain ⟨unit, hmem, hex⟩ := List.any_eq_true.1 hany
        obtain ⟨k, hk⟩ := Dict.mem_values_iff.1 hmem
        have hafter := congrArg (fun units => Dict.get? units k) hsame
        simp only [Dict.get?_map, hk, Option.map_some, Option.some.injEq] at hafter
        have hfailed := LongTaskUnitRecord.status_normalizeExpired hex
        rw [hafter] at hfailed
        have hactive := LongTaskUnitRecord.active_of_exhausted hex
        rw [hfailed] at hactive
        cases hactive
      · simp only [hany, Bool.false_eq_true, if_false]
        refine accounts_grantUnit hs h hrel hrunning (.inl ⟨?_, rfl⟩) unitId worker duration
        refine Dict.ext ?_
        unfold Dict.map
        refine (List.map_congr_left fun p hp => ?_).trans (List.map_id _)
        have hfresh : ¬ p.2.exhausted now = true := fun hex =>
          hany (List.any_eq_true.2 ⟨p.2, List.mem_map_of_mem hp, hex⟩)
        show (p.1, p.2.normalizeExpired now) = p
        unfold LongTaskUnitRecord.normalizeExpired
        rw [if_neg hfresh]

theorem accounts_claimUnit (hs : UnitsSound task.units) (h : Accounted task)
    (hR : task.deadlineElapsed now = true → R)
    (hbudget : (task.taskBudgetExhaustion false).isSome = true → R) {unitId : Option String}
    {duration : Int} {action : TaskAction (Option LongTaskUnitRecord)}
    (haction : LongTaskRepository.claimUnit now unitId workerId duration = .ok action) :
    Accounts R task (action.final task) := by
  obtain ⟨id, -, haction⟩ := bind_eq_ok haction
  obtain ⟨worker, -, haction⟩ := bind_eq_ok haction
  split at haction
  · cases haction
  · cases haction
    exact accounts_claimUnitLocked hs h hR hbudget id worker duration

theorem accounts_bindUnitRun (hs : UnitsSound task.units) (h : Accounted task)
    (hR : task.deadlineElapsed now = true → R) (unitId workerId : String) (leaseEpoch : Int)
    (runId : String) :
    Accounts R task
      ((LongTaskRepository.bindUnitRun now unitId workerId leaseEpoch runId).final task) := by
  unfold LongTaskRepository.bindUnitRun
  refine accounts_unitOp hs h hR fun unit worker hholds => ?_
  rw [Action.final_ofExcept_bind]
  cases requiredText runId "long task unit Run id" with
  | error err => exact Accounts.stay h
  | ok run =>
    simp only
    cases hrun : unit.runId with
    | some current =>
      rw [Action.final_ite]
      split <;> exact Accounts.stay h
    | none =>
      rw [Action.final_read_bind, Action.final_ite]
      split
      · exact Accounts.stay h
      · rw [Action.final_ofExcept_bind]
        cases recordRun unit run with
        | error err => exact Accounts.stay h
        | ok metadata =>
          simp only [TaskAction.final_setUnit_bind, TaskAction.final_bind_pure]
          refine accounts_hold h hholds (unit.bound run metadata) rfl rfl ⟨?_, ?_⟩
            (.inl fun heq => ?_)
          · simp [LongTaskUnitRecord.bound]
          · simp [LongTaskUnitRecord.bound]
          · have hbound := congrArg LongTaskUnitRecord.runId heq
            rw [hrun] at hbound
            cases hbound

theorem accounts_renewUnitLease (hs : UnitsSound task.units) (h : Accounted task) (hR : R)
    {leaseDurationMs : Int} {action : TaskAction LongTaskUnitRecord}
    (haction : LongTaskRepository.renewUnitLease now unitId workerId leaseEpoch leaseDurationMs =
      .ok action) : Accounts R task (action.final task) := by
  unfold LongTaskRepository.renewUnitLease at haction
  split at haction
  · cases haction
  · cases haction
    refine accounts_unitOp hs h (fun _ => hR) fun unit worker hholds => ?_
    rw [TaskAction.final_setUnit_bind, TaskAction.final_bind_pure]
    exact accounts_hold h hholds (unit.renewed (now + leaseDurationMs)) rfl rfl
      (LongTaskUnitRecord.open_of_active hholds.active) (.inr hR)

theorem accounts_updateUnitProgress (hs : UnitsSound task.units) (h : Accounted task) (hR : R)
    (unitId workerId : String) (leaseEpoch : Int) (metadata : Json.Object) :
    Accounts R task
      ((LongTaskRepository.updateUnitProgress now unitId workerId leaseEpoch metadata).final
        task) := by
  unfold LongTaskRepository.updateUnitProgress
  refine accounts_unitOp hs h (fun _ => hR) fun unit worker hholds => ?_
  rw [TaskAction.final_setUnit_bind, TaskAction.final_bind_pure]
  exact accounts_hold h hholds (unit.updated metadata) rfl rfl
    (LongTaskUnitRecord.open_of_active hholds.active) (.inr hR)

theorem accounts_completeUnit (hs : UnitsSound task.units) (h : Accounted task)
    (hR : task.deadlineElapsed now = true → R) (unitId workerId : String) (leaseEpoch : Int)
    (result : LongTaskUnitResult) :
    Accounts R task
      ((LongTaskRepository.completeUnit now unitId workerId leaseEpoch result).final task) := by
  unfold LongTaskRepository.completeUnit
  rw [TaskAction.requireUnit_bind]
  cases hfound : task.lookupUnit unitId with
  | none => exact Accounts.stay h
  | some unit =>
    simp only [Action.final_ite]
    split
    · rw [Action.final_ofExcept_bind]
      split
      · rw [Action.final_ite]
        split <;> exact Accounts.stay h
      · exact Accounts.stay h
    · rename_i hopen
      refine accounts_requireUnitClaim hs h hR hfound fun worker _ _ hholds => ?_
      rw [Action.final_read_bind, Action.final_ite, Action.final_ite]
      split
      · exact Accounts.stay h
      · split
        · exact Accounts.stay h
        · rw [TaskAction.final_setUnit_bind, TaskAction.final_bind_record]
          have hreq : (unit.settledBy worker result).required = unit.required := rfl
          refine Accounts.refresh (hasRequired_set h hholds.stored hreq) h.booked ?_ le_rfl (.inl ?_)
          · show task.record.status ≠ .canceled
            rw [hholds.running]
            decide
          · have hset : (TaskAction.refreshTotals.final { task with
                units := task.units.set unit.id (unit.settledBy worker result) }).units.get?
                  unit.id = some (unit.settledBy worker result) := by
              rw [TaskAction.units_refreshTotals]
              exact Dict.get?_set_self _ _ _
            refine not_unchanged_of_unit hholds.stored hset fun heq => hopen ?_
            rw [← heq]
            rfl

theorem accounts_settleUnitFailure (hs : UnitsSound task.units) (h : Accounted task)
    (hR : task.deadlineElapsed now = true → R) (unitId workerId : String) (leaseEpoch : Int)
    (decision : FailureDecision) :
    Accounts R task
      ((LongTaskRepository.settleUnitFailure now unitId workerId leaseEpoch decision).final
        task) := by
  unfold LongTaskRepository.settleUnitFailure
  refine accounts_unitOp hs h hR fun unit worker hholds => ?_
  rw [TaskAction.final_setUnit_bind]
  have hactive := hholds.active
  have hopen := LongTaskUnitRecord.open_of_active hactive
  have hinactive := LongTaskUnitRecord.targetStatus_not_active decision.disposition
  have hchanged : unit.failedBy decision ≠ unit := by
    intro heq
    have hstatus : (unit.failedBy decision).status.active = false := hinactive
    rw [heq, hactive] at hstatus
    cases hstatus
  have hsame : (unit.failedBy decision).status ≠ .completed ∧
      (unit.failedBy decision).status ≠ .failed → SameTally unit (unit.failedBy decision) :=
    fun hafter => LongTaskUnitRecord.sameTally_of_open rfl hopen hafter
  have htarget : (unit.failedBy decision).status =
      LongTaskUnitRecord.targetStatus decision.disposition := rfl
  cases hd : decision.disposition with
  | cancel =>
    simp only [LongTaskUnitRecord.targetStatus, TaskAction.final_bind_record]
    refine accounts_cancel_of_ne h (tallies_set hholds.stored (hsame ?_)) ?_
    · rw [htarget, hd]
      decide
    · rw [hholds.running]
      decide
  | failPermanent =>
    simp only [LongTaskUnitRecord.targetStatus, TaskAction.final_bind_record]
    have hreq : (unit.failedBy decision).required = unit.required := rfl
    exact accounts_failTask h (hasRequired_set h hholds.stored hreq) hholds.running _
  | pauseRecoverable =>
    have hsame' := hsame (by rw [htarget, hd]; decide)
    simp only [LongTaskUnitRecord.targetStatus, Action.final_read_bind, Action.final_ite,
      TaskAction.final_releaseActiveUnits_bind, TaskAction.final_bind_record]
    split
    · refine accounts_release h (tallies_set hholds.stored hsame') ?_ _
      rw [hholds.running]
      decide
    · exact accounts_hold h hholds _ rfl rfl (by rw [htarget, hd]; decide) (.inl hchanged)
  | retryAttempt | resumeCheckpoint | splitPart =>
    simp only [LongTaskUnitRecord.targetStatus, TaskAction.final_bind_record]
    exact accounts_hold h hholds _ rfl rfl (by rw [htarget, hd]; decide) (.inl hchanged)

theorem accounts_interruptUnit (hs : UnitsSound task.units) (h : Accounted task)
    (hR : task.deadlineElapsed now = true → R) (unitId workerId : String) (leaseEpoch : Int)
    (reasonCode : String) :
    Accounts R task
      ((LongTaskRepository.interruptUnit now unitId workerId leaseEpoch reasonCode).final
        task) := by
  unfold LongTaskRepository.interruptUnit
  refine accounts_unitOp hs h hR fun unit worker hholds => ?_
  rw [Action.final_ofExcept_bind]
  cases requiredText reasonCode "interruption reason" with
  | error err => exact Accounts.stay h
  | ok reason =>
    simp only [TaskAction.final_setUnit_bind, TaskAction.final_bind_record]
    have hsame : SameTally unit (unit.interrupted reason) := by
      refine LongTaskUnitRecord.sameTally_of_open rfl
        (LongTaskUnitRecord.open_of_active hholds.active) ⟨?_, ?_⟩ <;>
          intro hstatus <;> cases hstatus
    refine Accounts.setStatus h (tallies_set hholds.stored hsame) (by simp) ?_
    rw [hholds.running]
    decide

end

/-! ## Expansions that leave a required unit -/

/-- If the event is an expansion that is accepted, some other unit or a child is required. -/
def KeepsRequired (now : Int) (e : TaskEvent) (task : StoredLongTask) : Prop :=
  match e with
  | .call (.expandUnit unitId workerId leaseEpoch split decision) =>
    ∀ parent worker units, Accepts now task unitId workerId leaseEpoch split decision parent
      worker units →
      (∃ unit ∈ task.units.values, unit.id ≠ parent.id ∧ unit.required = true) ∨
        ∃ child ∈ split.children, child.required = true
  | _ => True

section

variable {now : Int} {task : StoredLongTask} {R : Prop}

/-- The manifest a split leaves has a required unit if and only if a unit other than the parent or
a child is required. -/
theorem Split.hasRequired_iff {parent : LongTaskUnitRecord} {split : LongTaskSplitResult}
    {units : Dict String LongTaskUnitRecord} (h : Split task parent split units)
    (hs : UnitsSound task.units) (hparent : task.units.get? parent.id = some parent)
    (worker : String) (decision : FailureDecision) :
    StoredLongTask.hasRequired { task with
        units := units.set parent.id (parent.expandedBy worker decision) } = true ↔
      (∃ unit ∈ task.units.values, unit.id ≠ parent.id ∧ unit.required = true) ∨
        ∃ child ∈ split.children, child.required = true := by
  unfold StoredLongTask.hasRequired
  simp only [List.any_eq_true, Dict.mem_values_iff, Dict.get?_set]
  constructor
  · rintro ⟨v, ⟨k, hk⟩, hreq⟩
    split at hk
    · cases hk
      cases hreq
    · rename_i hne
      obtain ⟨u, hu | ⟨child, hchild, -, rfl⟩, rfl⟩ := h.get?_iff.1 hk
      · exact .inl ⟨u, ⟨k, hu⟩, by rwa [hs.id_eq k u hu], hreq⟩
      · exact .inr ⟨child, hchild, hreq⟩
  · rintro (⟨u, ⟨k, hk⟩, hne, hreq⟩ | ⟨child, hchild, hreq⟩)
    · refine ⟨redirect parent.id split.replacementDependencyIds k u, ⟨k, ?_⟩, hreq⟩
      rw [if_neg (by rwa [hs.id_eq k u hk] at hne)]
      exact h.get?_iff.2 ⟨u, .inl hk, rfl⟩
    · have hne : child.id ≠ parent.id := fun heq => h.new_ids child hchild
        (heq ▸ Dict.mem_keys_iff.2 ⟨parent, hparent⟩)
      refine ⟨redirect parent.id split.replacementDependencyIds child.id
        (childUnit task.record.id parent child), ⟨child.id, ?_⟩, hreq⟩
      rw [if_neg hne]
      exact h.get?_iff.2 ⟨_, .inr ⟨child, hchild, rfl, rfl⟩, rfl⟩

theorem accounts_expandUnit (hs : UnitsSound task.units) (h : Accounted task)
    (hR : task.deadlineElapsed now = true → R) {unitId workerId : String} {leaseEpoch : Int}
    {split : LongTaskSplitResult} {decision : FailureDecision}
    (hkeeps : KeepsRequired now (.call (.expandUnit unitId workerId leaseEpoch split decision)) task)
    {action : TaskAction LongTaskRecord}
    (haction : LongTaskRepository.expandUnit now unitId workerId leaseEpoch split decision =
      .ok action) : Accounts R task (action.final task) := by
  unfold LongTaskRepository.expandUnit at haction
  split_ifs at haction with hdisposition hchildren
  cases haction
  rw [TaskAction.requireUnit_bind]
  cases hfound : task.lookupUnit unitId with
  | none => exact Accounts.stay h
  | some parent =>
    simp only [Action.final_ite]
    split
    · rw [Action.final_ofExcept_bind]
      split
      · rw [Action.final_ite]
        split <;> exact Accounts.stay h
      · exact Accounts.stay h
    · rename_i hopen
      refine accounts_requireUnitClaim hs h hR hfound fun worker hd hheld hholds => ?_
      rw [Action.final_read_bind, Action.final_ofExcept_bind]
      cases hchecked : checkChildren task split with
      | error err => exact Accounts.stay h
      | ok _ =>
        simp only [Action.final_ofExcept_bind]
        cases hprospective : prospective task parent split with
        | error err => exact Accounts.stay h
        | ok units =>
          simp only [Action.final_write_bind, TaskAction.final_bind_record]
          have hsplit := split_of_prospective hchecked hprospective
          have haccepts : Accepts now task unitId workerId leaseEpoch split decision parent worker
              units := ⟨not_not.1 hdisposition, by simpa using hchildren, hd, hfound, hheld, hchecked,
            hprospective⟩
          have hrequired := (hsplit.hasRequired_iff hs hholds.stored worker decision).2
            (hkeeps _ _ _ haccepts)
          refine Accounts.refresh hrequired h.booked ?_ le_rfl (.inl ?_)
          · show task.record.status ≠ .canceled
            rw [hholds.running]
            decide
          · have hset : (TaskAction.refreshTotals.final { task with
                units := units.set parent.id (parent.expandedBy worker decision) }).units.get?
                  parent.id = some (parent.expandedBy worker decision) := by
              rw [TaskAction.units_refreshTotals]
              exact Dict.get?_set_self _ _ _
            refine not_unchanged_of_unit hholds.stored hset fun heq => hopen ?_
            rw [← heq]
            rfl

end

/-! ## Every event -/

/-- The events that may raise the revision and change nothing else: a lease renewal, a progress
report and a usage report are stored whatever they say, and a stopped task meets its deadline or
its spent budget again. -/
def Restates (now : Int) (e : TaskEvent) (task : StoredLongTask) : Prop :=
  task.deadlineElapsed now = true ∨
    match e with
    | .call (.renewUnitLease ..) | .call (.updateUnitProgress ..) | .call (.recordUsage ..) => True
    | .call (.claimUnit ..) => (task.taskBudgetExhaustion false).isSome = true
    | _ => False

section

variable {now : Int} {task : StoredLongTask}

theorem accounts_call {R : Prop} {α : Type} {op : TaskOp} {x : Except PyError (TaskAction α)}
    {g : α → LongTaskReply} (hop : op.method now = x.map (g <$> ·)) (h : Accounted task)
    (hm : ∀ m, x = .ok m → Accounts R task (m.final task)) :
    Accounts R task ((TaskEvent.call op).apply now task) := by
  unfold TaskEvent.apply TaskOp.apply
  simp only [hop]
  cases x with
  | error err => exact Accounts.stay h
  | ok m =>
    simp only [Except.map, Action.final_map]
    exact hm m rfl

theorem accounts_okCall {R : Prop} {α : Type} {op : TaskOp} {m : TaskAction α}
    {g : α → LongTaskReply} (hop : op.method now = .ok (g <$> m))
    (hm : Accounts R task (m.final task)) :
    Accounts R task ((TaskEvent.call op).apply now task) := by
  unfold TaskEvent.apply TaskOp.apply
  simp only [hop, Action.final_map]
  exact hm

/-- **Every event keeps the books** and raises the revision if it changes anything. -/
theorem TaskEvent.accounts_apply (hs : UnitsSound task.units) (h : Accounted task)
    (e : TaskEvent) (hkeeps : KeepsRequired now e task) :
    Accounts (Restates now e task) task (e.apply now task) := by
  have hdeadline : task.deadlineElapsed now = true → Restates now e task := Or.inl
  cases e with
  | recover wall reason => exact accounts_recoverTask h wall reason
  | call op =>
    cases op with
    | bindRun runId relation => exact accounts_call rfl h fun m hm => accounts_bindRun h hm
    | recordUsage runId usage revision =>
      exact accounts_call rfl h fun m hm => accounts_recordUsage h (.inr trivial) hm
    | start revision => exact accounts_okCall rfl (accounts_start h hdeadline revision)
    | expireDeadline => exact accounts_okCall rfl (accounts_expireDeadlineCall h hdeadline)
    | pause revision reason => exact accounts_okCall rfl (accounts_pause h revision reason)
    | resume extra => exact accounts_call rfl h fun m hm => accounts_resume h hm
    | cancel => exact accounts_okCall rfl (accounts_cancelCall h)
    | requestCancel requestedAt => exact accounts_okCall rfl (accounts_requestCancel h requestedAt)
    | finalizeIfComplete => exact accounts_okCall rfl (accounts_finalizeIfComplete hs h hdeadline)
    | claimUnit unitId workerId duration =>
      exact accounts_call rfl h fun m hm => accounts_claimUnit hs h hdeadline .inr hm
    | bindUnitRun id worker epoch run =>
      exact accounts_okCall rfl (accounts_bindUnitRun hs h hdeadline id worker epoch run)
    | renewUnitLease =>
      exact accounts_call rfl h fun m hm => accounts_renewUnitLease hs h (.inr trivial) hm
    | updateUnitProgress id worker epoch metadata =>
      exact accounts_okCall rfl (accounts_updateUnitProgress hs h (.inr trivial) id worker epoch metadata)
    | completeUnit id worker epoch result =>
      exact accounts_okCall rfl (accounts_completeUnit hs h hdeadline id worker epoch result)
    | settleUnitFailure id worker epoch decision =>
      exact accounts_okCall rfl (accounts_settleUnitFailure hs h hdeadline id worker epoch decision)
    | expandUnit =>
      exact accounts_call rfl h fun m hm => accounts_expandUnit hs h hdeadline hkeeps hm
    | interruptUnit id worker epoch reason =>
      exact accounts_okCall rfl (accounts_interruptUnit hs h hdeadline id worker epoch reason)

end

/-! ## Every run -/

variable {pyStr : Json → String}

theorem accounted_newTask (id : String) (command : LongTaskCreateCommand) :
    Accounted (newTask id command) := by
  have hpending : ∀ unit ∈ (newTask id command).units.values, unit.status = .pending := by
    intro unit hunit
    obtain ⟨k, hk⟩ := Dict.mem_values_iff.1 hunit
    obtain ⟨spec, -, -, rfl⟩ := get?_newTask.1 hk
    rfl
  have hnone : ∀ status : LongTaskUnitStatus, status ≠ .pending →
      (newTask id command).requiredUnits.countP (·.status = status) = 0 := by
    intro status hstatus
    refine List.countP_eq_zero.2 fun unit hunit => ?_
    rw [hpending unit (List.mem_of_mem_filter hunit)]
    simpa using hstatus.symm
  refine ⟨?_, ⟨?_, (hnone _ (by decide)).symm, (hnone _ (by decide)).symm⟩, rfl, fun h => by cases h⟩
  · obtain ⟨spec, hspec, hreq⟩ := command.some_required
    refine List.any_eq_true.2 ⟨unitFromSpec id spec, Dict.mem_values_iff.2 ⟨spec.id, ?_⟩, hreq⟩
    exact get?_newTask.2 ⟨spec, hspec, rfl, rfl⟩
  · unfold StoredLongTask.requiredUnits
    rw [values_newTask, ← List.countP_eq_length_filter, List.countP_map]
    rfl

theorem accounted_reachable {run : List (Int × LongTaskOp)}
    (hrun : Along (LongTaskState.step pyStr) (Meets KeepsRequired) .empty run) :
    (exec (LongTaskState.step pyStr) .empty run).All fun task =>
      UnitsSound task.units ∧ Accounted task :=
  forall_task_exec (fun k command => ⟨unitsSound_newTask k command, accounted_newTask k command⟩)
    (fun _ e _ hkeeps h => ⟨unitsSound_apply _ e _ h.1,
      (e.accounts_apply h.1 h.2 hkeeps).accounted⟩) (all_empty _) hrun

/-- **Long-task accounting.**  In every run whose accepted expansions leave a required unit, the
totals of every task are those of its required units and its usage, once a Run has reported one, is
the sum over the Runs; and the next call raises the revision whenever it changes the record or a
unit, and otherwise only if it restates what was there. -/
theorem reached_accounted {run : List (Int × LongTaskOp)}
    (hrun : Along (LongTaskState.step pyStr) (Meets KeepsRequired) .empty run) {k : String}
    {task : StoredLongTask}
    (hget : (exec (LongTaskState.step pyStr) .empty run).tasks.get? k = some task) :
    task.Totals ∧
      (task.usageByRun.entries ≠ [] →
        task.record.usage = aggregateUsage task.usageByRun.values) ∧
      ∀ call : Int × LongTaskOp,
        (∀ e, call.2.event k = some e → KeepsRequired call.1 e task) →
        ∃ task', ((exec (LongTaskState.step pyStr) .empty run).step pyStr call).tasks.get? k =
            some task' ∧
          Accounts (∃ e, call.2.event k = some e ∧ Restates call.1 e task) task task' := by
  obtain ⟨hs, h⟩ := accounted_reachable hrun k task hget
  refine ⟨h.totals, fun hne => ?_, fun call hkeeps => ⟨_, get?_step_of_some hget call, ?_⟩⟩
  · have hbooked := h.booked
    unfold StoredLongTask.Booked at hbooked
    rwa [if_neg hne] at hbooked
  · unfold LongTaskOp.leaves
    cases he : call.2.event k with
    | none => exact Accounts.stay h
    | some e =>
      have haccounts := e.accounts_apply hs h (hkeeps e he)
      exact ⟨haccounts.accounted, haccounts.revision.imp_right fun ⟨hlt, hchanged⟩ =>
        ⟨hlt, hchanged.imp_right fun hrestates => ⟨e, rfl, hrestates⟩⟩⟩

/-- The unit `u` is claimed at 2 until 52. -/
def heldRun : List (Int × LongTaskOp) :=
  [(0, .create "t" (soloCommand none)), (1, .onTask "t" (.start 1)),
    (2, .onTask "t" (.claimUnit none "w" 50))]

theorem meets_heldRun :
    Along (LongTaskState.step noStr) (Meets KeepsRequired) .empty heldRun := by
  refine ⟨?_, ?_, ?_, trivial⟩ <;> intro k task e _ he <;> simp only [LongTaskOp.event] at he
  · cases he
  all_goals
    split at he
    · cases he
      trivial
    · cases he

theorem reached_accounted_heldRun :
    ∃ task, (exec (LongTaskState.step noStr) .empty heldRun).tasks.get? "t" = some task ∧
      task.Totals := by
  have hstored : ((exec (LongTaskState.step noStr) .empty heldRun).tasks.get? "t").isSome =
      true := by decide
  obtain ⟨task, hget⟩ := Option.isSome_iff_exists.1 hstored
  exact ⟨task, hget, (reached_accounted meets_heldRun hget).1⟩

/-- A lease renewed to the moment it already ends raises the revision and changes nothing. -/
theorem renewal_raises_revision :
    ¬ ∀ (pyStr : Json → String) (run : List (Int × LongTaskOp)) (k : String)
        (task task' : StoredLongTask) (call : Int × LongTaskOp),
      (exec (LongTaskState.step pyStr) .empty run).tasks.get? k = some task →
      ((exec (LongTaskState.step pyStr) .empty run).step pyStr call).tasks.get? k = some task' →
      (¬ Unchanged task task' ∧ task.record.revision < task'.record.revision) ∨
        (Unchanged task task' ∧ task'.record.revision = task.record.revision) := by
  intro h
  rcases h noStr heldRun "t" _ _ (2, .onTask "t" (.renewUnitLease "u" "w" 1 50)) rfl rfl with
    ⟨hchanged, -⟩ | ⟨-, hrevision⟩
  · exact hchanged ⟨rfl, rfl⟩
  · exact absurd hrevision (by decide)

end Purra
