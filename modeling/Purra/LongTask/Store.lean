import Mathlib.Algebra.Order.BigOperators.Group.List
import Mathlib.Algebra.Order.Ring.Nat
import Purra.LongTask.Contracts
import Purra.Lib.Action
import Purra.Lib.Run

/-!
# The long-task repository

`InMemoryLongTaskRepository` of `purra/adapters/durable_memory.py` with the two
mixins of `purra/adapters/_long_task_mixins.py`.

Every public method takes the repository lock, looks its task up, and then reads
and writes that one task; only `create` and `recover_after_restart` see more.
So a method is its argument checks (`Except`, before the lock) followed by a
`TaskAction` on the stored task.  A method that raises half way leaves what it
already wrote, as the source does.

* `namespace StoredLongTask` — what a method reads off a task.
* `namespace TaskAction` — the helpers with a leading underscore.
* `namespace LongTaskRepository` — the public methods.
* `LongTaskOp`, `step` — one call of a public method at a clock reading; a run is a
  list of them.
-/

namespace Purra

/-! ## Reading a stored task -/

namespace LongTaskUnitRecord

/-- `(unit.lease_expires_at_ms or 0) <= now`. -/
def leaseLapsed (unit : LongTaskUnitRecord) (now : Int) : Bool :=
  unit.leaseExpiresAtMs.getD 0 ≤ now

/-- Claimed or running under a lease that has not expired. -/
def live (unit : LongTaskUnitRecord) (now : Int) : Bool :=
  unit.status.active && !unit.leaseLapsed now

/-- Claimed or running under a lease that has expired, with no attempt left. -/
def exhausted (unit : LongTaskUnitRecord) (now : Int) : Bool :=
  unit.status.active && unit.leaseLapsed now && unit.maxAttempts ≤ unit.attempt

end LongTaskUnitRecord

namespace StoredLongTask

/-- `_deadline_elapsed`. -/
def deadlineElapsed (task : StoredLongTask) (now : Int) : Bool :=
  match task.record.deadlineAtMs with
  | none => false
  | some deadline => (deadline : Int) ≤ now

/-- The units a task cannot complete without. -/
def requiredUnits (task : StoredLongTask) : List LongTaskUnitRecord :=
  task.units.values.filter (·.required)

/-- The record with its totals counted afresh. -/
def recounted (task : StoredLongTask) : LongTaskRecord :=
  { task.record with
    totalUnits := task.requiredUnits.length
    completedUnits := task.requiredUnits.countP (·.status = .completed)
    failedUnits := task.requiredUnits.countP (·.status = .failed) }

/-- The ids of the completed units. -/
def completed (task : StoredLongTask) : List String :=
  (task.units.values.filter (·.status = .completed)).map (·.id)

/-- `set(unit.dependencies).issubset(completed)`. -/
def dependenciesCompleted (task : StoredLongTask) (unit : LongTaskUnitRecord) : Bool :=
  unit.dependencies.all (· ∈ task.completed)

/-- What `_has_runnable_work` asks of one unit. -/
def runnable (task : StoredLongTask) (now : Int) (unit : LongTaskUnitRecord) : Bool :=
  unit.live now ||
    (unit.status.waiting && unit.attempt < unit.maxAttempts && task.dependenciesCompleted unit)

/-- `_has_runnable_work`. -/
def hasRunnableWork (task : StoredLongTask) (now : Int) : Bool :=
  task.units.values.any (task.runnable now)

/-- The test `_claim_unit` puts to each candidate. -/
def claimable (task : StoredLongTask) (now : Int) (unit : LongTaskUnitRecord) : Bool :=
  (unit.status.waiting || (unit.status.active && unit.leaseLapsed now)) &&
    unit.attempt < unit.maxAttempts && task.dependenciesCompleted unit

/-- The state test of `_require_unit_claim`: the task runs and `worker` holds the unit at this
epoch under a lease that has not expired. -/
def holdsClaim (task : StoredLongTask) (now : Int) (unit : LongTaskUnitRecord) (worker : String)
    (leaseEpoch : Int) : Bool :=
  task.record.status = .running && unit.status.active && unit.workerId = some worker &&
    (unit.leaseEpoch : Int) = leaseEpoch &&
    match unit.leaseExpiresAtMs with
    | none => false
    | some expires => now < expires

/-- Whether `value` is over its limit, or, unless `exceededOnly`, has used it up. -/
def limitReached (exceededOnly : Bool) (value limit : Option Nat) : Bool :=
  match value, limit with
  | some value, some limit => limit < value || (!exceededOnly && limit ≤ value)
  | _, _ => false

/-- `_task_budget_exhaustion` on a usage and its limits: the kind of allowance that is gone. -/
def budgetExhaustion (exceededOnly : Bool) (usage : LongTaskUsage)
    (limits : LongTaskBudgetLimits) : Option String :=
  if usage.unreportedUsageAttempts ≠ 0 ∧ (limits.maxInputTokens.isSome ∨
      limits.maxRunGenerationTokens.isSome ∨ limits.maxReasoningTokens.isSome) then
    some "provider_usage_unreported"
  else if limits.maxReasoningTokens.isSome ∧ usage.reasoningTokens = none then
    some "reasoning_tokens_unreported"
  else if limitReached exceededOnly (some usage.invocationCount) limits.maxInvocationAttempts then
    some "model_attempts"
  else if limitReached exceededOnly (some usage.inputTokens) limits.maxInputTokens then
    some "input_tokens"
  else if limitReached exceededOnly (some usage.generationTokens)
      limits.maxRunGenerationTokens then
    some "generation_tokens"
  else if limitReached exceededOnly usage.reasoningTokens limits.maxReasoningTokens then
    some "reasoning_tokens"
  else none

/-- `_task_budget_exhaustion`. -/
def taskBudgetExhaustion (task : StoredLongTask) (exceededOnly : Bool) : Option String :=
  budgetExhaustion exceededOnly task.record.usage task.record.budgetLimits

end StoredLongTask

/-- `_aggregate_usage`: the sum over all Runs; reasoning tokens are unknown as soon as one Run did
not report them. -/
def aggregateUsage (values : List LongTaskUsage) : LongTaskUsage where
  invocationCount := (values.map (·.invocationCount)).sum
  unreportedUsageAttempts := (values.map (·.unreportedUsageAttempts)).sum
  inputTokens := (values.map (·.inputTokens)).sum
  generationTokens := (values.map (·.generationTokens)).sum
  reasoningTokens :=
    if values.any (·.reasoningTokens = none) then none
    else some (values.map (·.reasoningTokens.getD 0)).sum
  unreported_le := List.sum_le_sum fun value _ => value.unreported_le

/-- The task once the usage of `run` is recorded. -/
def StoredLongTask.withUsage (task : StoredLongTask) (run : String) (usage : LongTaskUsage) :
    StoredLongTask :=
  { task with
    usageByRun := task.usageByRun.set run usage
    record := { task.record with
      usage := aggregateUsage (task.usageByRun.set run usage).values } }

/-- `_failure_payload`. -/
def failurePayload (decision : FailureDecision) : Json.Object :=
  [("category", .str decision.category.value), ("code", .str decision.code),
    ("disposition", .str decision.disposition.value),
    ("effectState", .str decision.effectState.value), ("scope", .str decision.scope.value)]

/-- `_matches_result`. -/
def matchesResult (unit : LongTaskUnitRecord) (result : LongTaskUnitResult) : Bool :=
  unit.outputRef = some result.outputRef &&
    (result.runId = none || unit.runId = result.runId) &&
    unit.artifactDigest = result.artifactDigest &&
    Json.objectEq unit.validationReceipt result.validationReceipt

/-- `_unit_from_spec`. -/
def unitFromSpec (taskId : String) (spec : LongTaskUnitSpec) : LongTaskUnitRecord where
  taskId := taskId
  id := spec.id
  position := spec.position
  status := .pending
  semanticKey := spec.semanticKey
  dependencies := spec.dependencies
  parentUnitId := spec.parentUnitId
  required := spec.required
  attempt := 0
  maxAttempts := spec.maxAttempts
  workerId := none
  leaseEpoch := 0
  leaseExpiresAtMs := none
  settledByWorkerId := none
  runId := none
  inputRef := spec.inputRef
  outputRef := none
  artifactDigest := none
  validationReceipt := []
  failure := []
  disposition := none
  errorCode := none
  metadata := spec.metadata

/-- `_raise_lease_lost`. -/
def leaseLost (unit : LongTaskUnitRecord) : PyError :=
  .contractViolation "long task unit lease authority was lost" "long_task_unit_lease_lost"
    [("taskId", unit.taskId), ("unitId", unit.id)]

/-- The error of an operation that met an elapsed deadline. -/
def deadlineExceeded (task : StoredLongTask) : PyError :=
  .contractViolation "long task deadline was exceeded" "long_task_deadline_exceeded"
    [("taskId", task.record.id)]

/-! ## What the helpers do to one unit -/

namespace LongTaskUnitRecord

/-- `_cancel` on one unit. -/
def canceled (unit : LongTaskUnitRecord) : LongTaskUnitRecord :=
  if unit.status.terminal then unit
  else { unit with status := .canceled, workerId := none, leaseExpiresAtMs := none }

/-- `_fail_task` on one unit other than the failed one. -/
def dependencyFailed (unit : LongTaskUnitRecord) : LongTaskUnitRecord :=
  if unit.status.terminal then unit
  else { unit with
    status := .canceled, workerId := none, leaseExpiresAtMs := none
    errorCode := unit.errorCode.getD "task_failed_dependency" }

/-- `_release_active_units` on one unit: the attempt is given back. -/
def released (reasonCode : String) (unit : LongTaskUnitRecord) : LongTaskUnitRecord :=
  if unit.status.active then { unit with
    status := .pending, maxAttempts := unit.maxAttempts + 1, workerId := none
    leaseExpiresAtMs := none, errorCode := some reasonCode }
  else unit

/-- `_expire_deadline` on one unit. -/
def deadlineFailed (unit : LongTaskUnitRecord) : LongTaskUnitRecord :=
  if unit.status.terminal then unit
  else { unit with
    status := .failed, workerId := none, leaseExpiresAtMs := none
    errorCode := some "long_task_deadline_exceeded" }

/-- `_fail_budget` on one unit when the task pauses. -/
def budgetBlocked (budgetKind : String) (unit : LongTaskUnitRecord) : LongTaskUnitRecord :=
  if unit.status.terminal then unit
  else { unit with
    status := .blocked, workerId := none, leaseExpiresAtMs := none
    disposition := some .pauseRecoverable, errorCode := some "runtime_budget_exceeded"
    metadata := Json.setField "budgetKind" (.str budgetKind) unit.metadata }

/-- `_fail_budget` on one unit when the task fails. -/
def budgetFailed (budgetKind : String) (unit : LongTaskUnitRecord) : LongTaskUnitRecord :=
  if unit.status.terminal then unit
  else { unit with
    status := .failed, workerId := none, leaseExpiresAtMs := none
    errorCode := some "runtime_budget_exceeded"
    metadata := Json.setField "budgetKind" (.str budgetKind) unit.metadata }

/-- The first loop of `_claim_unit` on one unit: a lapsed lease with no attempt left fails it. -/
def normalizeExpired (now : Int) (unit : LongTaskUnitRecord) : LongTaskUnitRecord :=
  if unit.exhausted now then { unit with
    status := .failed, workerId := none, leaseExpiresAtMs := none
    errorCode := some "lease_expired_attempts_exhausted" }
  else unit

/-- `resume` on one unit. -/
def retried (extra : Nat) (unit : LongTaskUnitRecord) : LongTaskUnitRecord :=
  if unit.status.recoverable then { unit with
    status := .pending, maxAttempts := unit.maxAttempts + extra, workerId := none
    leaseExpiresAtMs := none }
  else unit

/-- The unit `_claim_unit` hands out. -/
def claimed (unit : LongTaskUnitRecord) (worker : String) (expires : Int) :
    LongTaskUnitRecord :=
  { unit with
    status := .claimed, attempt := unit.attempt + 1, workerId := some worker
    leaseEpoch := unit.leaseEpoch + 1, leaseExpiresAtMs := some expires
    settledByWorkerId := none, runId := none }

/-- The unit `bind_unit_run` stores. -/
def bound (unit : LongTaskUnitRecord) (run : String) (metadata : Json.Object) :
    LongTaskUnitRecord :=
  { unit with status := .running, runId := some run, metadata }

/-- The unit `renew_unit_lease` stores. -/
def renewed (unit : LongTaskUnitRecord) (expires : Int) : LongTaskUnitRecord :=
  { unit with leaseExpiresAtMs := some expires }

/-- The unit `update_unit_progress` stores. -/
def updated (unit : LongTaskUnitRecord) (metadata : Json.Object) : LongTaskUnitRecord :=
  { unit with metadata := Json.merge unit.metadata metadata }

/-- The unit `finalize_if_complete` finds stranded. -/
def stranded (unit : LongTaskUnitRecord) : LongTaskUnitRecord :=
  { unit with
    status := .failed, workerId := none, leaseExpiresAtMs := none
    errorCode := unit.errorCode.getD "long_task_no_runnable_work" }

/-- The unit `complete_unit` stores. -/
def settledBy (unit : LongTaskUnitRecord) (worker : String) (result : LongTaskUnitResult) :
    LongTaskUnitRecord :=
  { unit with
    status := .completed, workerId := none, leaseExpiresAtMs := none
    settledByWorkerId := some worker
    runId := result.runId.or unit.runId, outputRef := some result.outputRef
    artifactDigest := result.artifactDigest, validationReceipt := result.validationReceipt
    failure := [], disposition := none, errorCode := none
    metadata := Json.merge unit.metadata result.metadata }

/-- The status a failure decision gives its unit. -/
def targetStatus : FailureDisposition → LongTaskUnitStatus
  | .retryAttempt | .resumeCheckpoint => .waitingRetry
  | .pauseRecoverable => .blocked
  | .splitPart => .needsSplit
  | .cancel => .canceled
  | .failPermanent => .failed

/-- The unit `settle_unit_failure` stores. -/
def failedBy (unit : LongTaskUnitRecord) (decision : FailureDecision) : LongTaskUnitRecord :=
  { unit with
    status := targetStatus decision.disposition, workerId := none, leaseExpiresAtMs := none
    errorCode := some decision.code, disposition := some decision.disposition
    failure := failurePayload decision
    maxAttempts :=
      if decision.disposition = .resumeCheckpoint ∧ unit.maxAttempts ≤ unit.attempt then
        unit.maxAttempts + 1
      else unit.maxAttempts }

/-- The unit `interrupt_unit` stores. -/
def interrupted (unit : LongTaskUnitRecord) (reason : String) : LongTaskUnitRecord :=
  { unit with
    status := .pending, maxAttempts := unit.maxAttempts + 1, workerId := none
    leaseExpiresAtMs := none, errorCode := some reason }

/-- The parent `expand_unit` stores. -/
def expandedBy (unit : LongTaskUnitRecord) (worker : String) (decision : FailureDecision) :
    LongTaskUnitRecord :=
  { unit with
    status := .expanded, required := false, workerId := none, leaseExpiresAtMs := none
    settledByWorkerId := some worker, errorCode := some decision.code
    disposition := some decision.disposition, failure := failurePayload decision }

end LongTaskUnitRecord

/-! ## The helpers -/

/-- A computation on one stored task. -/
abbrev TaskAction (α : Type) := Action StoredLongTask PyError α

namespace TaskAction

/-- `_touch`. -/
def touch : TaskAction Unit :=
  Action.write fun task => { task with
    record := { task.record with revision := task.record.revision + 1 } }

/-- `_set_status`. -/
def setStatus (status : LongTaskStatus) : TaskAction Unit := do
  let task ← Action.read
  if task.record.status = status then pure ()
  else do
    Action.write fun task => { task with record := { task.record with status } }
    touch

/-- A loop that rewrites every unit. -/
def updateUnits (f : String → LongTaskUnitRecord → LongTaskUnitRecord) : TaskAction Unit :=
  Action.write fun task => { task with units := task.units.map f }

/-- `state.units[unit.id] = unit`. -/
def setUnit (unit : LongTaskUnitRecord) : TaskAction Unit :=
  Action.write fun task => { task with units := task.units.set unit.id unit }

/-- `_refresh_totals`.  The record is rebuilt, so its own checks run: a task left without a
required unit raises here. -/
def refreshTotals : TaskAction Unit := do
  let task ← Action.read
  let record ← Action.ofExcept task.recounted.checkTotals
  Action.write fun task => { task with record }
  touch

/-- `_cancel`. -/
def cancel : TaskAction Unit := do
  updateUnits fun _ unit => unit.canceled
  setStatus .canceled

/-- Rewrite the units, recount them, and only then move the task: the shape of `_fail_task`,
`_expire_deadline` and `_fail_budget`. -/
def closeWith (f : String → LongTaskUnitRecord → LongTaskUnitRecord) (status : LongTaskStatus) :
    TaskAction Unit := do
  updateUnits f
  refreshTotals
  setStatus status

/-- `_fail_task`. -/
def failTask (failedUnitId : String) : TaskAction Unit :=
  closeWith (fun id unit => if id = failedUnitId then unit else unit.dependencyFailed) .failed

/-- `_release_active_units`. -/
def releaseActiveUnits (reasonCode : String) : TaskAction Unit :=
  updateUnits fun _ unit => unit.released reasonCode

/-- `_expire_deadline`. -/
def expireDeadline : TaskAction Unit := closeWith (fun _ unit => unit.deadlineFailed) .failed

/-- `_fail_budget`. -/
def failBudget (budgetKind : String) : TaskAction Unit := do
  let task ← Action.read
  match task.record.budgetExhaustionDisposition with
  | .pauseRecoverable => closeWith (fun _ unit => unit.budgetBlocked budgetKind) .paused
  | .failPermanent => closeWith (fun _ unit => unit.budgetFailed budgetKind) .failed

/-- `return state.record`. -/
def record : TaskAction LongTaskRecord := do
  let task ← Action.read
  pure task.record

/-- `_require_unit`. -/
def requireUnit (unitId : String) : TaskAction LongTaskUnitRecord := do
  let id ← Action.ofExcept (requiredText unitId "long task unit id")
  let task ← Action.read
  match task.units.get? id with
  | none => Action.raise (.lookupError "long task unit does not exist")
  | some unit => pure unit

/-- `_require_unit_claim`: the worker, stripped, when it holds the unit. -/
def requireUnitClaim (now : Int) (unit : LongTaskUnitRecord) (workerId : String)
    (leaseEpoch : Int) : TaskAction String := do
  let task ← Action.read
  if task.deadlineElapsed now then do
    expireDeadline
    Action.raise (deadlineExceeded task)
  else do
    let worker ← Action.ofExcept (requiredText workerId "long task worker id")
    if task.holdsClaim now unit worker leaseEpoch then pure worker
    else Action.raise (leaseLost unit)

/-- `_require_task_revision`. -/
def requireTaskRevision (expected : Int) : TaskAction Unit := do
  let task ← Action.read
  if (task.record.revision : Int) = expected then pure ()
  else Action.raise (.valueError "long task revision conflicts")

end TaskAction

/-! ## The public methods -/

namespace LongTaskRepository

open TaskAction

/-- `bind_run`. -/
def bindRun (runId : String) (relation : LongTaskRunRelation) :
    Except PyError (TaskAction LongTaskRunBinding) :=
  if relation = .created then
    .error (.valueError "creator Run binding is immutable after creation")
  else do
    let run ← requiredText runId "long task Run id"
    pure do
      let task ← Action.read
      match task.bindings.get? run with
      | some existing =>
        if existing.relation = relation then pure existing
        else Action.raise (.valueError "long task Run binding conflicts")
      | none => do
        let binding : LongTaskRunBinding := ⟨task.record.id, run, relation⟩
        Action.write fun task => { task with bindings := task.bindings.set run binding }
        pure binding

/-- `record_usage`. -/
def recordUsage (runId : String) (usage : LongTaskUsage) (expectedRevision : Int) :
    Except PyError (TaskAction LongTaskRecord) := do
  let run ← requiredText runId "long task usage Run id"
  pure do
    let task ← Action.read
    match task.usageByRun.get? run with
    | some existing =>
      if existing = usage then record
      else Action.raise (.valueError "long task Run usage conflicts")
    | none => do
      requireTaskRevision expectedRevision
      Action.write fun task => task.withUsage run usage
      let task ← Action.read
      match task.taskBudgetExhaustion true with
      | some kind => do
        failBudget kind
        record
      | none => do
        touch
        record

/-- `start`. -/
def start (now : Int) (expectedRevision : Int) : TaskAction LongTaskRecord := do
  let task ← Action.read
  if task.deadlineElapsed now then do
    TaskAction.expireDeadline
    record
  else if task.record.cancellationRequestedAtMs.isSome then do
    TaskAction.cancel
    record
  else if task.record.status = .running then record
  else if task.record.status ≠ .pending then
    Action.raise (.valueError "only a pending long task can start")
  else do
    requireTaskRevision expectedRevision
    setStatus .running
    record

/-- `expire_deadline`. -/
def expireDeadline (now : Int) : TaskAction LongTaskRecord := do
  let task ← Action.read
  if task.record.status.terminal then record
  else if !task.deadlineElapsed now then
    Action.raise (.contractViolation "long task deadline has not elapsed"
      "long_task_deadline_not_elapsed" [])
  else do
    TaskAction.expireDeadline
    record

/-- `pause`. -/
def pause (expectedRevision : Option Int) (reasonCode : Option String) :
    TaskAction LongTaskRecord := do
  let task ← Action.read
  if expectedRevision.any (· ≠ (task.record.revision : Int)) then
    Action.raise (.valueError "long task revision conflict")
  else if task.record.status = .paused then record
  else if task.record.status ≠ .pending ∧ task.record.status ≠ .running then
    Action.raise (.valueError "long task cannot pause")
  else do
    releaseActiveUnits ((optionalText reasonCode).getD "execution_paused")
    setStatus .paused
    record

/-- The attempts `resume` adds: a task stopped by blocked units only gets one without asking. -/
def resumeExtra (task : StoredLongTask) (additionalAttempts : Nat) : Nat :=
  let targets := task.units.values.filter (·.status.recoverable)
  if !targets.isEmpty ∧ targets.all (·.status = .blocked) ∧ additionalAttempts = 0 then 1
  else additionalAttempts

/-- `resume`. -/
def resume (additionalAttempts : Int) : Except PyError (TaskAction LongTaskRecord) :=
  if additionalAttempts < 0 then
    .error (.valueError "additional attempts cannot be negative")
  else .ok do
    let task ← Action.read
    if task.record.status = .running then record
    else if task.record.status ≠ .paused ∧ task.record.status ≠ .failed then
      Action.raise (.valueError "long task cannot resume")
    else
      let extra := resumeExtra task additionalAttempts.toNat
      let targets := task.units.values.any (·.status.recoverable)
      if targets ∧ extra = 0 then
        Action.raise (.valueError "durable retry requires additional attempts")
      else if ¬ targets ∧ extra ≠ 0 then
        Action.raise (.valueError "long task has no unit requiring attempts")
      else do
        updateUnits fun _ unit => unit.retried extra
        Action.write fun task => { task with record := { task.record with failedUnits := 0 } }
        setStatus .running
        record

/-- `cancel`. -/
def cancel : TaskAction LongTaskRecord := do
  let task ← Action.read
  if task.record.status = .canceled then record
  else if task.record.status.terminal then
    Action.raise (.valueError "terminal long task cannot be canceled")
  else do
    TaskAction.cancel
    record

/-- `request_cancel`. -/
def requestCancel (now : Int) (requestedAtMs : Option Int) : TaskAction LongTaskRecord := do
  let task ← Action.read
  if task.record.status.terminal then record
  else if task.record.cancellationRequestedAtMs.isSome then record
  else if requestedAtMs.getD now < 0 then
    Action.raise (.valueError "long task cancellation timestamp is invalid")
  else do
    Action.write fun task => { task with record := { task.record with
      cancellationRequestedAtMs := some (requestedAtMs.getD now).toNat } }
    touch
    record

/-- `finalize_if_complete`. -/
def finalizeIfComplete (now : Int) : TaskAction LongTaskRecord := do
  let task ← Action.read
  if task.deadlineElapsed now then do
    TaskAction.expireDeadline
    record
  else if task.record.cancellationRequestedAtMs.isSome then do
    TaskAction.cancel
    record
  else if task.record.status ≠ .running then record
  else if task.requiredUnits.any (·.status = .failed) then do
    setStatus .failed
    record
  else if task.requiredUnits.all (·.status = .completed) then do
    setStatus .completed
    record
  else if task.requiredUnits.any (·.status = .blocked) ∧ ¬ task.hasRunnableWork now then do
    -- a retryable exhausted unit is a checkpoint: it stays blocked so that `resume` can go on
    setStatus .paused
    record
  else if ¬ task.hasRunnableWork now then
    match task.requiredUnits.find? (·.status ≠ .completed) with
    | some unit => do
      setUnit unit.stranded
      failTask unit.id
      record
    | none => record
  else record

/-- The units of a task in the order of their positions. -/
def candidates (task : StoredLongTask) : List LongTaskUnitRecord :=
  task.units.values.insertionSort fun a b => a.position ≤ b.position

/-- The second half of `_claim_unit`: the parallelism bound and the first claimable unit. -/
def grantUnit (now : Int) (unitId : Option String) (worker : String) (duration : Int) :
    TaskAction (Option LongTaskUnitRecord) := do
  let task ← Action.read
  if task.record.maxParallelism ≤ task.units.values.countP (·.live now) then pure none
  else
    match (candidates task).find? fun unit =>
        unitId.all (unit.id = ·) && task.claimable now unit with
    | none => pure none
    | some unit => do
      let claimed := unit.claimed worker (now + duration)
      setUnit claimed
      touch
      pure (some claimed)

/-- `_claim_unit` under the lock. -/
def claimUnitLocked (now : Int) (unitId : Option String) (worker : String) (duration : Int) :
    TaskAction (Option LongTaskUnitRecord) := do
  let task ← Action.read
  if task.deadlineElapsed now then do
    TaskAction.expireDeadline
    pure none
  else
    match task.taskBudgetExhaustion false with
    | some kind => do
      failBudget kind
      pure none
    | none =>
      if task.record.status ≠ .running ∨ task.record.cancellationRequestedAtMs.isSome then
        pure none
      else do
        updateUnits fun _ unit => unit.normalizeExpired now
        -- the first required unit the loop failed takes the whole task with it
        match task.units.entries.find? fun p => p.2.exhausted now && p.2.required with
        | some p => do
          failTask p.1
          pure none
        | none => do
          if task.units.values.any (·.exhausted now) then touch else pure ()
          grantUnit now unitId worker duration

/-- `_claim_unit`: `claim_ready_unit` without a unit, `claim_unit` with one. -/
def claimUnit (now : Int) (unitId : Option String) (workerId : String) (leaseDurationMs : Int) :
    Except PyError (TaskAction (Option LongTaskUnitRecord)) := do
  let unitId ← unitId.mapM (requiredText · "long task unit id")
  let worker ← requiredText workerId "long task worker id"
  if leaseDurationMs ≤ 0 then .error (.valueError "long task lease duration must be positive")
  else .ok (claimUnitLocked now unitId worker leaseDurationMs)

/-- `list(metadata.get("runHistory") or ())`. -/
def runHistory (metadata : Json.Object) : Except PyError (List Json) :=
  match Json.field? metadata "runHistory" with
  | none => .ok []
  | some value =>
    if ¬ value.truthy then .ok []
    else match value with
      | .arr items => .ok items
      | .obj fields => .ok (fields.map fun p => .str p.1)
      | .str s => .ok (s.toList.map fun c => .str (String.singleton c))
      | .bool _ => .error (.typeError "'bool' object is not iterable")
      | .int _ => .error (.typeError "'int' object is not iterable")
      | .float _ _ => .error (.typeError "'float' object is not iterable")
      | .null => .ok []

/-- `any(item.get("runId") == run for item in history)`: an entry that is no object raises. -/
def historyHasRun (run : String) : List Json → Except PyError Bool
  | [] => .ok false
  | .obj fields :: rest =>
    match Json.field? fields "runId" with
    | some (.str s) => if s = run then .ok true else historyHasRun run rest
    | _ => historyHasRun run rest
  | .str _ :: _ => .error (.attributeError "'str' object has no attribute 'get'")
  | .arr _ :: _ => .error (.attributeError "'list' object has no attribute 'get'")
  | .bool _ :: _ => .error (.attributeError "'bool' object has no attribute 'get'")
  | .int _ :: _ => .error (.attributeError "'int' object has no attribute 'get'")
  | .float _ _ :: _ => .error (.attributeError "'float' object has no attribute 'get'")
  | .null :: _ => .error (.attributeError "'NoneType' object has no attribute 'get'")

/-- The metadata `bind_unit_run` stores: at most the eight newest Runs of the unit. -/
def recordRun (unit : LongTaskUnitRecord) (run : String) : Except PyError Json.Object := do
  let history ← runHistory unit.metadata
  let known ← historyHasRun run history
  let history :=
    if known then history
    else history ++ [.obj [("attempt", .int unit.attempt), ("runId", .str run)]]
  pure (Json.setField "runHistory" (.arr (history.drop (history.length - 8))) unit.metadata)

/-- Another unit of the task already carries this Run. -/
def runTaken (task : StoredLongTask) (unit : LongTaskUnitRecord) (run : String) : Bool :=
  task.units.values.any fun other => other.id ≠ unit.id && other.runId = some run

/-- `bind_unit_run`. -/
def bindUnitRun (now : Int) (unitId workerId : String) (leaseEpoch : Int) (runId : String) :
    TaskAction LongTaskUnitRecord := do
  let unit ← requireUnit unitId
  let _ ← requireUnitClaim now unit workerId leaseEpoch
  let run ← Action.ofExcept (requiredText runId "long task unit Run id")
  match unit.runId with
  | some current =>
    if current = run then pure unit
    else Action.raise (.contractViolation "A Unit attempt cannot change its Run"
      "long_task_unit_run_conflict" [])
  | none => do
    let task ← Action.read
    if runTaken task unit run then
      Action.raise (.contractViolation "A Run cannot belong to two task Units"
        "long_task_unit_run_conflict" [])
    else do
      let metadata ← Action.ofExcept (recordRun unit run)
      setUnit (unit.bound run metadata)
      touch
      pure (unit.bound run metadata)

/-- `renew_unit_lease`. -/
def renewUnitLease (now : Int) (unitId workerId : String) (leaseEpoch leaseDurationMs : Int) :
    Except PyError (TaskAction LongTaskUnitRecord) :=
  if leaseDurationMs ≤ 0 then .error (.valueError "long task lease duration must be positive")
  else .ok do
    let unit ← requireUnit unitId
    let _ ← requireUnitClaim now unit workerId leaseEpoch
    setUnit (unit.renewed (now + leaseDurationMs))
    touch
    pure (unit.renewed (now + leaseDurationMs))

/-- `update_unit_progress`. -/
def updateUnitProgress (now : Int) (unitId workerId : String) (leaseEpoch : Int)
    (metadata : Json.Object) : TaskAction LongTaskUnitRecord := do
  let unit ← requireUnit unitId
  let _ ← requireUnitClaim now unit workerId leaseEpoch
  setUnit (unit.updated metadata)
  touch
  pure (unit.updated metadata)

/-- The replay test of a settled unit: the epoch and the worker that settled it. -/
def settledReplay (unit : LongTaskUnitRecord) (workerId : String) (leaseEpoch : Int) :
    Except PyError Bool :=
  if (unit.leaseEpoch : Int) = leaseEpoch then do
    let worker ← requiredText workerId "long task worker id"
    pure (unit.settledByWorkerId = some worker)
  else .ok false

/-- `complete_unit`. -/
def completeUnit (now : Int) (unitId workerId : String) (leaseEpoch : Int)
    (result : LongTaskUnitResult) : TaskAction LongTaskRecord := do
  let unit ← requireUnit unitId
  if unit.status = .completed then do
    let replay ← Action.ofExcept (settledReplay unit workerId leaseEpoch)
    if replay && matchesResult unit result then record
    else Action.raise (leaseLost unit)
  else do
    let worker ← requireUnitClaim now unit workerId leaseEpoch
    let task ← Action.read
    if unit.runId.isSome ∧ result.runId.isSome ∧ result.runId ≠ unit.runId then
      Action.raise (.contractViolation "Unit result belongs to a different Run"
        "long_task_unit_run_conflict" [])
    else if (result.runId.or unit.runId).any (runTaken task unit) then
      Action.raise (.contractViolation "A Run cannot belong to two task Units"
        "long_task_unit_run_conflict" [])
    else do
      setUnit (unit.settledBy worker result)
      refreshTotals
      record

/-- `settle_unit_failure`. -/
def settleUnitFailure (now : Int) (unitId workerId : String) (leaseEpoch : Int)
    (decision : FailureDecision) : TaskAction LongTaskRecord := do
  let unit ← requireUnit unitId
  let _ ← requireUnitClaim now unit workerId leaseEpoch
  setUnit (unit.failedBy decision)
  match LongTaskUnitRecord.targetStatus decision.disposition with
  | .canceled => do
    TaskAction.cancel
    record
  | .failed => do
    failTask unit.id
    record
  | .blocked => do
    let task ← Action.read
    if decision.scope = .systemic ∨ ¬ task.hasRunnableWork now then do
      releaseActiveUnits decision.code
      setStatus .paused
      record
    else do
      touch
      record
  | _ => do
    touch
    record

/-- The record `expand_unit` stores for one child: it inherits the parent's dependencies. -/
def childRecord (taskId : String) (parent : LongTaskUnitRecord) (child : LongTaskUnitSpec) :
    Except PyError (String × LongTaskUnitRecord) := do
  let dependencies := Dict.fromKeys (parent.dependencies ++ child.dependencies)
  if parent.id ∈ dependencies then
    .error (.valueError "split child cannot depend on parent")
  else
    let spec ← child.replaceDependencies dependencies (child.parentUnitId.or (some parent.id))
    pure (child.id, unitFromSpec taskId spec)

/-- The dependencies of a downstream unit once `parent` is replaced. -/
def replaceDependency (parent : String) (replacement dependencies : List String) : List String :=
  Dict.fromKeys (dependencies.flatMap fun current =>
    if current = parent then replacement else [current])

/-- A unit of the prospective manifest that waits for `parent`. -/
def downstream (parent id : String) (unit : LongTaskUnitRecord) : Bool :=
  id ≠ parent && parent ∈ unit.dependencies

/-- The second loop of `expand_unit` on one unit: whoever waits for the parent waits for its
replacements. -/
def redirect (parent : String) (replacement : List String) (id : String)
    (unit : LongTaskUnitRecord) : LongTaskUnitRecord :=
  { unit with
    dependencies :=
      if downstream parent id unit then replaceDependency parent replacement unit.dependencies
      else unit.dependencies }

/-- The manifest `expand_unit` would store, the parent apart. -/
def prospective (task : StoredLongTask) (parent : LongTaskUnitRecord)
    (split : LongTaskSplitResult) : Except PyError (Dict String LongTaskUnitRecord) := do
  let children ← split.children.mapM (childRecord task.record.id parent)
  let units := task.units.extend children
  if split.replacementDependencyIds = [] ∧
      units.entries.any (fun p => downstream parent.id p.1 p.2) then
    .error (.valueError "split must replace downstream dependencies")
  else
    let units := units.map (redirect parent.id split.replacementDependencyIds)
    if Topology.acyclic (units.values.map fun unit => (unit.id, unit.dependencies)) then .ok units
    else .error (.valueError "long task dependencies contain a cycle")

/-- The conflicts of split children with the manifest as it stands. -/
def checkChildren (task : StoredLongTask) (split : LongTaskSplitResult) : Except PyError Unit :=
  if split.children.any fun child => child.id ∈ task.units.keys then
    .error (.valueError "split child id conflicts")
  else if split.children.any fun child =>
      child.semanticKey ∈ task.units.values.map (·.semanticKey) then
    .error (.valueError "split child semantic key conflicts")
  else if split.children.any fun child => child.position ∈ task.units.values.map (·.position) then
    .error (.valueError "split child position conflicts")
  else .ok ()

/-- `expand_unit`. -/
def expandUnit (now : Int) (unitId workerId : String) (leaseEpoch : Int)
    (split : LongTaskSplitResult) (decision : FailureDecision) :
    Except PyError (TaskAction LongTaskRecord) :=
  if decision.disposition ≠ .splitPart then
    .error (.valueError "long task expansion requires split decision")
  else if split.children.isEmpty then
    .error (.valueError "long task expansion requires children")
  else .ok do
    let parent ← requireUnit unitId
    if parent.status = .expanded then do
      let replay ← Action.ofExcept (settledReplay parent workerId leaseEpoch)
      if replay then record else Action.raise (leaseLost parent)
    else do
      let worker ← requireUnitClaim now parent workerId leaseEpoch
      let task ← Action.read
      Action.ofExcept (checkChildren task split)
      let units ← Action.ofExcept (prospective task parent split)
      Action.write fun task => { task with
        units := units.set parent.id (parent.expandedBy worker decision) }
      refreshTotals
      record

/-- `interrupt_unit`. -/
def interruptUnit (now : Int) (unitId workerId : String) (leaseEpoch : Int)
    (reasonCode : String) : TaskAction LongTaskRecord := do
  let unit ← requireUnit unitId
  let _ ← requireUnitClaim now unit workerId leaseEpoch
  let reason ← Action.ofExcept (requiredText reasonCode "interruption reason")
  setUnit (unit.interrupted reason)
  setStatus .paused
  record

/-- A unit of the store agrees with a spec of the command, as `_matches_create` compares them. -/
def matchesSpec (unit : LongTaskUnitRecord) (spec : LongTaskUnitSpec) : Bool :=
  unit.id = spec.id && unit.position = spec.position && unit.semanticKey = spec.semanticKey &&
    unit.dependencies = spec.dependencies && unit.required = spec.required &&
    unit.inputRef = spec.inputRef && unit.maxAttempts = spec.maxAttempts &&
    Json.objectEq unit.metadata spec.metadata

/-- `_matches_create`. -/
def matchesCreate (task : StoredLongTask) (command : LongTaskCreateCommand) : Bool :=
  let specs := command.units.insertionSort fun a b => a.position ≤ b.position
  task.record.namespace_ = command.namespace_ && task.record.kind = command.kind &&
    task.record.ownerId = command.ownerId &&
    task.record.createdByRunId = command.createdByRunId &&
    task.record.maxParallelism = command.maxParallelism &&
    task.record.deadlineAtMs = command.deadlineAtMs &&
    task.record.budgetLimits = command.budgetLimits &&
    Json.objectEq task.record.metadata command.metadata &&
    (candidates task).length = specs.length &&
    ((candidates task).zip specs).all fun p => matchesSpec p.1 p.2

/-- The task `create` stores. -/
def newTask (id : String) (command : LongTaskCreateCommand) : StoredLongTask where
  record := {
    id := id
    namespace_ := command.namespace_
    kind := command.kind
    ownerId := command.ownerId
    createdByRunId := command.createdByRunId
    status := .pending
    revision := 1
    totalUnits := command.units.countP (·.required)
    completedUnits := 0
    failedUnits := 0
    maxParallelism := command.maxParallelism
    deadlineAtMs := command.deadlineAtMs
    budgetLimits := command.budgetLimits
    budgetExhaustionDisposition := command.budgetExhaustionDisposition
    cancellationRequestedAtMs := none
    usage := .zero
    metadata := command.metadata }
  units := Dict.empty.extend (command.units.map fun spec => (spec.id, unitFromSpec id spec))
  bindings := Dict.empty.set command.createdByRunId ⟨id, command.createdByRunId, .created⟩
  usageByRun := Dict.empty

/-- What `recover_after_restart` does to one task: `wall` is the wall clock it reads, which is not
the repository's own clock. -/
def recoverTask (wall : Int) (reason : String) : TaskAction Unit := do
  let task ← Action.read
  if task.record.status ≠ .running then pure ()
  else if task.units.values.any fun unit => unit.status.active && unit.leaseExpiresAtMs.any (wall < ·)
    then pure ()
  else if task.record.cancellationRequestedAtMs.isSome then TaskAction.cancel
  else do
    releaseActiveUnits reason
    setStatus .paused

section

/-! `create` compares session ids as text, so it needs Python's `str` on a JSON value. -/

variable (pyStr : Json → String)

/-- `str(record.metadata.get("sessionId") or "")`. -/
def storedSession (metadata : Json.Object) : String :=
  match Json.field? metadata "sessionId" with
  | none => ""
  | some value => if value.truthy then pyStr value else ""

/-- `"" if session_id is None else str(session_id)`. -/
def expectedSession (sessionId : Option Json) : String :=
  match sessionId with
  | none | some .null => ""
  | some value => pyStr value

/-- `_find_active_state` with `match_session`, as `create` calls it: the newest open task of the
same owner, kind and session. -/
def findActiveState (state : LongTaskState) (namespace_ ownerId kind : String)
    (sessionId : Option Json) : Option StoredLongTask :=
  state.tasks.values.reverse.find? fun task =>
    task.record.namespace_ = namespace_ && task.record.ownerId = ownerId &&
      task.record.kind = kind && !task.record.status.terminal &&
      storedSession pyStr task.record.metadata = expectedSession pyStr sessionId

/-- `create`. -/
def create (taskId : String) (command : LongTaskCreateCommand) :
    Action LongTaskState PyError LongTaskRecord := do
  let id ← Action.ofExcept (requiredText taskId "long task id")
  let state ← Action.read
  match state.tasks.get? id with
  | some existing =>
    if matchesCreate existing command then pure existing.record
    else Action.raise (.valueError "long task id conflicts")
  | none =>
    match findActiveState pyStr state command.namespace_ command.ownerId command.kind
        (Json.field? command.metadata "sessionId") with
    | some active => pure active.record
    | none => do
      Action.write fun state => { state with tasks := state.tasks.set id (newTask id command) }
      pure (newTask id command).record

end

/-- `recover_after_restart`. -/
def recoverAfterRestart (wall : Int) (reasonCode : String) :
    Action LongTaskState PyError Unit := do
  let reason ← Action.ofExcept (requiredText reasonCode "restart recovery reason")
  Action.write fun state => { state with
    tasks := state.tasks.map fun _ task => (recoverTask wall reason).final task }

/-- `_require_state`, then the method on the task found. -/
def onTask {α : Type} (taskId : String) (method : Except PyError (TaskAction α)) :
    Action LongTaskState PyError α := do
  let action ← Action.ofExcept method
  let id ← Action.ofExcept (requiredText taskId "long task id")
  let state ← Action.read
  match state.tasks.get? id with
  | none => Action.raise (.lookupError "long task does not exist")
  | some task => do
    Action.write fun state => { state with tasks := state.tasks.set id (action task).2 }
    Action.ofExcept (action task).1

end LongTaskRepository

/-! ## Calls -/

/-- A call of a method that acts on one task, with its arguments. -/
inductive TaskOp where
  | bindRun (runId : String) (relation : LongTaskRunRelation)
  | recordUsage (runId : String) (usage : LongTaskUsage) (expectedRevision : Int)
  | start (expectedRevision : Int)
  | expireDeadline
  | pause (expectedRevision : Option Int) (reasonCode : Option String)
  | resume (additionalAttempts : Int)
  | cancel
  | requestCancel (requestedAtMs : Option Int)
  | finalizeIfComplete
  /-- `claim_ready_unit` without a unit id, `claim_unit` with one. -/
  | claimUnit (unitId : Option String) (workerId : String) (leaseDurationMs : Int)
  | bindUnitRun (unitId workerId : String) (leaseEpoch : Int) (runId : String)
  | renewUnitLease (unitId workerId : String) (leaseEpoch leaseDurationMs : Int)
  | updateUnitProgress (unitId workerId : String) (leaseEpoch : Int) (metadata : Json.Object)
  | completeUnit (unitId workerId : String) (leaseEpoch : Int) (result : LongTaskUnitResult)
  | settleUnitFailure (unitId workerId : String) (leaseEpoch : Int) (decision : FailureDecision)
  | expandUnit (unitId workerId : String) (leaseEpoch : Int) (split : LongTaskSplitResult)
      (decision : FailureDecision)
  | interruptUnit (unitId workerId : String) (leaseEpoch : Int) (reasonCode : String)

/-- What a method returns. -/
inductive LongTaskReply where
  | done
  | record (record : LongTaskRecord)
  | unit (unit : LongTaskUnitRecord)
  | claimed (unit : Option LongTaskUnitRecord)
  | binding (binding : LongTaskRunBinding)

namespace TaskOp

open LongTaskRepository LongTaskReply

/-- The method a call runs, at the clock reading `now`. -/
def method (now : Int) : TaskOp → Except PyError (TaskAction LongTaskReply)
  | .bindRun runId relation => (LongTaskRepository.bindRun runId relation).map (binding <$> ·)
  | .recordUsage runId usage revision =>
    (LongTaskRepository.recordUsage runId usage revision).map (record <$> ·)
  | .start revision => .ok (record <$> LongTaskRepository.start now revision)
  | .expireDeadline => .ok (record <$> LongTaskRepository.expireDeadline now)
  | .pause revision reason => .ok (record <$> LongTaskRepository.pause revision reason)
  | .resume extra => (LongTaskRepository.resume extra).map (record <$> ·)
  | .cancel => .ok (record <$> LongTaskRepository.cancel)
  | .requestCancel requestedAt => .ok (record <$> LongTaskRepository.requestCancel now requestedAt)
  | .finalizeIfComplete => .ok (record <$> LongTaskRepository.finalizeIfComplete now)
  | .claimUnit unitId worker duration =>
    (LongTaskRepository.claimUnit now unitId worker duration).map (claimed <$> ·)
  | .bindUnitRun id worker epoch run =>
    .ok (unit <$> LongTaskRepository.bindUnitRun now id worker epoch run)
  | .renewUnitLease id worker epoch duration =>
    (LongTaskRepository.renewUnitLease now id worker epoch duration).map (unit <$> ·)
  | .updateUnitProgress id worker epoch metadata =>
    .ok (unit <$> LongTaskRepository.updateUnitProgress now id worker epoch metadata)
  | .completeUnit id worker epoch result =>
    .ok (record <$> LongTaskRepository.completeUnit now id worker epoch result)
  | .settleUnitFailure id worker epoch decision =>
    .ok (record <$> LongTaskRepository.settleUnitFailure now id worker epoch decision)
  | .expandUnit id worker epoch split decision =>
    (LongTaskRepository.expandUnit now id worker epoch split decision).map (record <$> ·)
  | .interruptUnit id worker epoch reason =>
    .ok (record <$> LongTaskRepository.interruptUnit now id worker epoch reason)

/-- The task a call leaves, whether it returns or raises. -/
def apply (op : TaskOp) (now : Int) (task : StoredLongTask) : StoredLongTask :=
  match op.method now with
  | .error _ => task
  | .ok action => action.final task

end TaskOp

/-- A call of a public method. -/
inductive LongTaskOp where
  | create (taskId : String) (command : LongTaskCreateCommand)
  | onTask (taskId : String) (op : TaskOp)
  | recoverAfterRestart (wall : Int) (reasonCode : String)

/-- The repository after one call at the clock reading `call.1`. -/
def LongTaskState.step (pyStr : Json → String) (state : LongTaskState) (call : Int × LongTaskOp) :
    LongTaskState :=
  match call.2 with
  | .create taskId command => (LongTaskRepository.create pyStr taskId command).final state
  | .onTask taskId op => (LongTaskRepository.onTask taskId (op.method call.1)).final state
  | .recoverAfterRestart wall reason =>
    (LongTaskRepository.recoverAfterRestart wall reason).final state

/-- `LongTaskState()`. -/
def LongTaskState.empty : LongTaskState := ⟨Dict.empty⟩

end Purra
