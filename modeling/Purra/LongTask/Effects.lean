import Purra.LongTask.Store

/-!
# The state the long-task helpers leave

Equations for the state each helper of the repository leaves, and what a rewrite
of a unit keeps of it.  They are what a method's change is computed from in
`Purra.LongTask.Moves`.

* `TaskAction.units_closeWith`, `status_closeWith` — a task is closed by rewriting its
  units; it only changes status when a required unit is left to count.
* `TaskAction.requireUnit_bind`, `requireUnitClaim_bind` — an operation on a unit
  stops at a missing unit, expires an elapsed deadline, or goes on with the claim.
* `SameUnit`, `Kept`, `Halted`, `Retried`, `Lapsed` — what a change leaves alone in a
  unit; one lemma for each helper that rewrites units.
-/

namespace Purra

/-! ## The state the helpers leave -/

/-- Each unit is stored under its own id, and no split unit is still required. -/
structure UnitsSound (units : Dict String LongTaskUnitRecord) : Prop where
  id_eq : ∀ k unit, units.get? k = some unit → unit.id = k
  not_required : ∀ k unit, units.get? k = some unit → unit.status = .expanded →
    unit.required = false

namespace StoredLongTask

/-- Some unit is required. -/
def hasRequired (task : StoredLongTask) : Bool := task.units.values.any (·.required)

/-- The unit a unit id names. -/
def lookupUnit (task : StoredLongTask) (unitId : String) : Option LongTaskUnitRecord :=
  match requiredText unitId "long task unit id" with
  | .ok id => task.units.get? id
  | .error _ => none

/-- The worker, stripped, when it holds the unit at this epoch. -/
def heldBy (task : StoredLongTask) (now : Int) (unit : LongTaskUnitRecord) (workerId : String)
    (leaseEpoch : Int) : Option String :=
  match requiredText workerId "long task worker id" with
  | .ok worker => if task.holdsClaim now unit worker leaseEpoch then some worker else none
  | .error _ => none

theorem mem_requiredUnits {task : StoredLongTask} {unit : LongTaskUnitRecord} :
    unit ∈ task.requiredUnits ↔ (∃ k, task.units.get? k = some unit) ∧ unit.required = true := by
  unfold requiredUnits
  rw [List.mem_filter, Dict.mem_values_iff]

end StoredLongTask

namespace TaskAction

variable {α : Type}

@[simp] theorem final_record (task : StoredLongTask) : record.final task = task := rfl

@[simp] theorem final_bind_record (m : TaskAction α) (task : StoredLongTask) :
    (m >>= fun _ => record).final task = m.final task :=
  Action.final_bind_of_silent m (fun _ _ => rfl) task

@[simp] theorem final_bind_pure {β : Type} (m : TaskAction α) (b : β) (task : StoredLongTask) :
    (m >>= fun _ => (pure b : TaskAction β)).final task = m.final task :=
  Action.final_bind_of_silent m (fun _ _ => rfl) task

@[simp] theorem final_bind_raise {β : Type} (m : TaskAction α) (e : PyError)
    (task : StoredLongTask) :
    (m >>= fun _ => (Action.raise e : TaskAction β)).final task = m.final task :=
  Action.final_bind_of_silent m (fun _ _ => rfl) task

@[simp] theorem units_touch (task : StoredLongTask) : (touch.final task).units = task.units := rfl

@[simp] theorem status_touch (task : StoredLongTask) :
    (touch.final task).record.status = task.record.status := rfl

@[simp] theorem units_setStatus (status : LongTaskStatus) (task : StoredLongTask) :
    ((setStatus status).final task).units = task.units := by
  unfold setStatus
  rw [Action.final_read_bind, Action.final_ite]
  split <;> rfl

@[simp] theorem status_setStatus (status : LongTaskStatus) (task : StoredLongTask) :
    ((setStatus status).final task).record.status = status := by
  unfold setStatus
  rw [Action.final_read_bind, Action.final_ite]
  split
  · assumption
  · rfl

theorem final_setUnit_bind (unit : LongTaskUnitRecord) (f : Unit → TaskAction α)
    (task : StoredLongTask) :
    (setUnit unit >>= f).final task =
      (f ()).final { task with units := task.units.set unit.id unit } := rfl

theorem final_updateUnits_bind (g : String → LongTaskUnitRecord → LongTaskUnitRecord)
    (f : Unit → TaskAction α) (task : StoredLongTask) :
    (updateUnits g >>= f).final task = (f ()).final { task with units := task.units.map g } := rfl

theorem final_releaseActiveUnits_bind (reasonCode : String) (f : Unit → TaskAction α)
    (task : StoredLongTask) :
    (releaseActiveUnits reasonCode >>= f).final task =
      (f ()).final { task with units := task.units.map fun _ unit => unit.released reasonCode } :=
  rfl

theorem requireTaskRevision_bind (expected : Int) (f : Unit → TaskAction α)
    (task : StoredLongTask) :
    (requireTaskRevision expected >>= f).final task =
      if (task.record.revision : Int) = expected then (f ()).final task else task := by
  unfold requireTaskRevision Action.final
  simp only [Action.bind_apply, Action.read]
  split <;> rename_i h <;> split at h <;> simp_all

/-- The totals counted afresh are consistent unless no unit is required. -/
theorem checkTotals_recounted (task : StoredLongTask) :
    task.recounted.checkTotals =
      if task.hasRequired then .ok task.recounted
      else .error (.valueError "long task record total_units must be positive") := by
  have hsum : ∀ l : List LongTaskUnitRecord,
      l.countP (·.status = .completed) + l.countP (·.status = .failed) ≤ l.length := by
    intro l
    induction l with
    | nil => simp
    | cons unit l ih =>
      simp only [List.countP_cons, List.length_cons, decide_eq_true_eq]
      cases hs : unit.status <;> simp <;> omega
  have hempty : task.requiredUnits.length = 0 ↔ task.hasRequired = false := by
    unfold StoredLongTask.requiredUnits StoredLongTask.hasRequired
    rw [List.length_eq_zero_iff, List.filter_eq_nil_iff, List.any_eq_false]
  unfold LongTaskRecord.checkTotals
  by_cases h : task.requiredUnits.length = 0
  · rw [if_pos (show task.recounted.totalUnits = 0 from h), hempty.1 h]
    rfl
  · have hle : ¬ task.recounted.totalUnits <
        task.recounted.completedUnits + task.recounted.failedUnits := by
      have := hsum task.requiredUnits
      simp only [StoredLongTask.recounted]
      omega
    rw [if_neg (show ¬ task.recounted.totalUnits = 0 from h), if_neg hle,
      if_pos (by simpa using (not_congr hempty).1 h)]

theorem refreshTotals_apply (task : StoredLongTask) :
    refreshTotals task =
      if task.hasRequired then (.ok (), touch.final { task with record := task.recounted })
      else (.error (.valueError "long task record total_units must be positive"), task) := by
  unfold refreshTotals
  rw [Action.read_bind_apply, checkTotals_recounted]
  split <;> rfl

@[simp] theorem units_refreshTotals (task : StoredLongTask) :
    (refreshTotals.final task).units = task.units := by
  unfold Action.final
  rw [refreshTotals_apply]
  split <;> rfl

@[simp] theorem status_refreshTotals (task : StoredLongTask) :
    (refreshTotals.final task).record.status = task.record.status := by
  unfold Action.final
  rw [refreshTotals_apply]
  split <;> rfl

theorem closeWith_final (f : String → LongTaskUnitRecord → LongTaskUnitRecord)
    (status : LongTaskStatus) (task : StoredLongTask) :
    (closeWith f status).final task =
      let mapped := { task with units := task.units.map f }
      if mapped.hasRequired then
        (setStatus status).final (touch.final { mapped with record := mapped.recounted })
      else mapped := by
  unfold closeWith
  rw [final_updateUnits_bind]
  generalize { task with units := task.units.map f } = mapped
  unfold Action.final
  rw [Action.bind_apply, refreshTotals_apply]
  by_cases h : mapped.hasRequired = true
  · simp only [h, if_true]
    rfl
  · simp only [h, if_false, Bool.false_eq_true]

@[simp] theorem units_closeWith (f : String → LongTaskUnitRecord → LongTaskUnitRecord)
    (status : LongTaskStatus) (task : StoredLongTask) :
    ((closeWith f status).final task).units = task.units.map f := by
  rw [closeWith_final]
  simp only
  split
  · rw [units_setStatus, units_touch]
  · rfl

/-- Closing a task moves it only when a required unit is left to count. -/
theorem status_closeWith {f : String → LongTaskUnitRecord → LongTaskUnitRecord}
    (hf : ∀ k unit, (f k unit).required = unit.required) (status : LongTaskStatus)
    (task : StoredLongTask) :
    ((closeWith f status).final task).record.status =
      if task.hasRequired then status else task.record.status := by
  have hreq : StoredLongTask.hasRequired { task with units := task.units.map f } =
      task.hasRequired := by
    unfold StoredLongTask.hasRequired
    rw [Dict.values_map, Dict.values, List.any_map, List.any_map]
    congr 1
    funext p
    exact hf p.1 p.2
  rw [closeWith_final]
  simp only [hreq]
  split
  · rw [status_setStatus]
  · rfl

theorem status_failTask (failedUnitId : String) (task : StoredLongTask) :
    ((failTask failedUnitId).final task).record.status =
      if task.hasRequired then .failed else task.record.status := by
  refine status_closeWith (fun k unit => ?_) _ _
  split
  · rfl
  · unfold LongTaskUnitRecord.dependencyFailed
    split <;> rfl

theorem requireUnit_bind (unitId : String) (f : LongTaskUnitRecord → TaskAction α)
    (task : StoredLongTask) :
    (requireUnit unitId >>= f).final task =
      match task.lookupUnit unitId with
      | some unit => (f unit).final task
      | none => task := by
  unfold requireUnit StoredLongTask.lookupUnit Action.final
  cases requiredText unitId "long task unit id" with
  | error e => rfl
  | ok id =>
    simp only [Action.bind_apply, Action.ofExcept, Action.read]
    cases task.units.get? id <;> rfl

theorem requireUnitClaim_bind (now : Int) (unit : LongTaskUnitRecord) (workerId : String)
    (leaseEpoch : Int) (f : String → TaskAction α) (task : StoredLongTask) :
    (requireUnitClaim now unit workerId leaseEpoch >>= f).final task =
      if task.deadlineElapsed now then expireDeadline.final task
      else match task.heldBy now unit workerId leaseEpoch with
        | some worker => (f worker).final task
        | none => task := by
  unfold requireUnitClaim StoredLongTask.heldBy
  by_cases hd : task.deadlineElapsed now = true
  · rw [if_pos hd]
    unfold Action.final
    simp only [Action.bind_apply, Action.read, hd, if_true]
    rcases h : expireDeadline task with ⟨r, task'⟩
    cases r <;> rfl
  · rw [if_neg hd]
    unfold Action.final
    simp only [Action.bind_apply, Action.read, hd]
    cases requiredText workerId "long task worker id" with
    | error e => rfl
    | ok worker =>
      by_cases hh : task.holdsClaim now unit worker leaseEpoch = true
      · simp [hh]
      · simp [hh]

end TaskAction

/-! ## What a change leaves alone in a unit -/

/-- The same unit, with its place in the manifest, its attempt and its epoch. -/
structure SameUnit (u v : LongTaskUnitRecord) : Prop where
  id : v.id = u.id
  position : v.position = u.position
  semanticKey : v.semanticKey = u.semanticKey
  dependencies : v.dependencies = u.dependencies
  required : v.required = u.required
  attempt : v.attempt = u.attempt
  maxAttempts : u.maxAttempts ≤ v.maxAttempts
  leaseEpoch : v.leaseEpoch = u.leaseEpoch
  expanded : v.status = .expanded ↔ u.status = .expanded

/-- The same unit with the same Run. -/
structure Kept (u v : LongTaskUnitRecord) : Prop extends SameUnit u v where
  runId : v.runId = u.runId

/-- The same unit, out of the hands of any worker. -/
structure Halted (u v : LongTaskUnitRecord) : Prop extends Kept u v where
  inactive : v.status.active = false

/-- What an explicit resume does to a unit. -/
structure Retried (u v : LongTaskUnitRecord) : Prop extends Kept u v where
  unfailed : v.status ≠ .failed
  inactive : v = u ∨ v.status.active = false

/-- What a claim does to the units it does not hand out: an optional unit that lost its lease with
no attempt left fails. -/
def Lapsed (now : Int) (u v : LongTaskUnitRecord) : Prop :=
  v = u ∨ (Halted u v ∧ u.exhausted now = true ∧ u.required = false ∧ v.status = .failed)

namespace SameUnit

theorem refl (u : LongTaskUnitRecord) : SameUnit u u :=
  ⟨rfl, rfl, rfl, rfl, rfl, rfl, le_rfl, rfl, Iff.rfl⟩

theorem trans {u v w : LongTaskUnitRecord} (h : SameUnit u v) (h' : SameUnit v w) :
    SameUnit u w where
  id := h'.id.trans h.id
  position := h'.position.trans h.position
  semanticKey := h'.semanticKey.trans h.semanticKey
  dependencies := h'.dependencies.trans h.dependencies
  required := h'.required.trans h.required
  attempt := h'.attempt.trans h.attempt
  maxAttempts := h.maxAttempts.trans h'.maxAttempts
  leaseEpoch := h'.leaseEpoch.trans h.leaseEpoch
  expanded := h'.expanded.trans h.expanded

end SameUnit

theorem Kept.refl (u : LongTaskUnitRecord) : Kept u u := ⟨SameUnit.refl u, rfl⟩

variable {u : LongTaskUnitRecord}

theorem Kept.trans {v w : LongTaskUnitRecord} (h : Kept u v) (h' : Kept v w) : Kept u w :=
  ⟨h.toSameUnit.trans h'.toSameUnit, h'.runId.trans h.runId⟩

theorem Kept.trans_halted {v w : LongTaskUnitRecord} (h : Kept u v) (h' : Halted v w) :
    Halted u w := ⟨h.trans h'.toKept, h'.inactive⟩

theorem LongTaskUnitStatus.not_active_of_terminal {s : LongTaskUnitStatus}
    (h : s.terminal = true) : s.active = false := by
  cases s <;> simp_all [terminal, active]

theorem LongTaskUnitStatus.ne_expanded_of_not_terminal {s : LongTaskUnitStatus}
    (h : ¬ s.terminal = true) : s ≠ .expanded := by
  rintro rfl
  exact h rfl

theorem LongTaskUnitStatus.ne_expanded_of_active {s : LongTaskUnitStatus}
    (h : s.active = true) : s ≠ .expanded := by
  rintro rfl
  cases h

theorem Halted.of_terminal (h : u.status.terminal = true) : Halted u u :=
  ⟨Kept.refl u, LongTaskUnitStatus.not_active_of_terminal h⟩

/-- The rewrites the helpers make: a new status without a worker or a lease, with any bookkeeping
of the failure, and attempts only added. -/
theorem Halted.rewrite {status : LongTaskUnitStatus} {maxAttempts : Nat}
    {settledByWorkerId errorCode outputRef artifactDigest : Option String}
    {validationReceipt failure metadata : Json.Object} {disposition : Option FailureDisposition}
    (hu : u.status ≠ .expanded) (hs : status ≠ .expanded) (hactive : status.active = false)
    (hmax : u.maxAttempts ≤ maxAttempts) :
    Halted u { u with
      status, maxAttempts, workerId := none, leaseExpiresAtMs := none, settledByWorkerId,
      errorCode, outputRef, artifactDigest, validationReceipt, failure, metadata, disposition } :=
  ⟨⟨⟨rfl, rfl, rfl, rfl, rfl, rfl, hmax, rfl, iff_of_false hs hu⟩, rfl⟩, hactive⟩

namespace LongTaskUnitRecord

theorem halted_canceled (u : LongTaskUnitRecord) : Halted u u.canceled := by
  unfold canceled
  split
  · exact Halted.of_terminal ‹_›
  · exact Halted.rewrite (LongTaskUnitStatus.ne_expanded_of_not_terminal ‹_›) (by decide) rfl le_rfl

theorem halted_dependencyFailed (u : LongTaskUnitRecord) : Halted u u.dependencyFailed := by
  unfold dependencyFailed
  split
  · exact Halted.of_terminal ‹_›
  · exact Halted.rewrite (LongTaskUnitStatus.ne_expanded_of_not_terminal ‹_›) (by decide) rfl le_rfl

theorem halted_deadlineFailed (u : LongTaskUnitRecord) : Halted u u.deadlineFailed := by
  unfold deadlineFailed
  split
  · exact Halted.of_terminal ‹_›
  · exact Halted.rewrite (LongTaskUnitStatus.ne_expanded_of_not_terminal ‹_›) (by decide) rfl le_rfl

theorem halted_budgetBlocked (kind : String) (u : LongTaskUnitRecord) :
    Halted u (u.budgetBlocked kind) := by
  unfold budgetBlocked
  split
  · exact Halted.of_terminal ‹_›
  · exact Halted.rewrite (LongTaskUnitStatus.ne_expanded_of_not_terminal ‹_›) (by decide) rfl le_rfl

theorem halted_budgetFailed (kind : String) (u : LongTaskUnitRecord) :
    Halted u (u.budgetFailed kind) := by
  unfold budgetFailed
  split
  · exact Halted.of_terminal ‹_›
  · exact Halted.rewrite (LongTaskUnitStatus.ne_expanded_of_not_terminal ‹_›) (by decide) rfl le_rfl

theorem halted_released (reason : String) (u : LongTaskUnitRecord) :
    Halted u (u.released reason) := by
  unfold released
  split
  · exact Halted.rewrite (LongTaskUnitStatus.ne_expanded_of_active ‹_›) (by decide) rfl
      (Nat.le_succ _)
  · exact ⟨Kept.refl u, by simpa using ‹¬ u.status.active = true›⟩

variable {u : LongTaskUnitRecord}

theorem active_of_exhausted {now : Int} (h : u.exhausted now = true) :
    u.status.active = true := by
  simp only [exhausted, Bool.and_eq_true] at h
  exact h.1.1

theorem halted_normalizeExpired {now : Int}
    (h : u.exhausted now = true) : Halted u (u.normalizeExpired now) := by
  unfold normalizeExpired
  rw [if_pos h]
  exact Halted.rewrite (LongTaskUnitStatus.ne_expanded_of_active (active_of_exhausted h))
    (by decide) rfl le_rfl

theorem status_normalizeExpired {now : Int}
    (h : u.exhausted now = true) : (u.normalizeExpired now).status = .failed := by
  unfold normalizeExpired
  rw [if_pos h]

theorem kept_normalizeExpired (u : LongTaskUnitRecord) (now : Int) :
    Kept u (u.normalizeExpired now) := by
  by_cases h : u.exhausted now = true
  · exact (halted_normalizeExpired h).toKept
  · unfold normalizeExpired
    rw [if_neg h]
    exact Kept.refl u

theorem retried_retried (extra : Nat) (u : LongTaskUnitRecord) :
    Retried u (u.retried extra) := by
  unfold retried
  split
  · rename_i h
    have hu : u.status ≠ .expanded := by
      intro he
      rw [he] at h
      cases h
    have hh : Halted u { u with
        status := .pending, maxAttempts := u.maxAttempts + extra, workerId := none
        leaseExpiresAtMs := none } := Halted.rewrite hu (by decide) rfl (Nat.le_add_right _ _)
    exact ⟨hh.toKept, by simp, Or.inr rfl⟩
  · rename_i h
    refine ⟨Kept.refl u, fun hf => h ?_, Or.inl rfl⟩
    rw [hf]
    rfl

theorem targetStatus_ne_expanded (d : FailureDisposition) : targetStatus d ≠ .expanded := by
  cases d <;> decide

theorem targetStatus_not_active (d : FailureDisposition) : (targetStatus d).active = false := by
  cases d <;> rfl

theorem halted_failedBy (h : u.status.active = true)
    (decision : FailureDecision) : Halted u (u.failedBy decision) := by
  refine Halted.rewrite (LongTaskUnitStatus.ne_expanded_of_active h)
    (targetStatus_ne_expanded _) (targetStatus_not_active _) ?_
  split
  · exact Nat.le_succ _
  · exact le_rfl

theorem halted_interrupted (h : u.status.active = true)
    (reason : String) : Halted u (u.interrupted reason) :=
  Halted.rewrite (LongTaskUnitStatus.ne_expanded_of_active h) (by decide) rfl (Nat.le_succ _)

theorem halted_stranded (h : u.status ≠ .expanded) :
    Halted u u.stranded := Halted.rewrite h (by decide) rfl le_rfl

end LongTaskUnitRecord

end Purra
