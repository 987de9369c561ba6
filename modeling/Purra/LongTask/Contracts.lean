import Purra.Core.JsonValues
import Purra.Core.Normalization
import Purra.Lib.Topology

/-!
# Long tasks: the value contracts

The dataclasses of `purra/long_tasks/contracts.py` that the long-task store
reads and writes, together with the failure decisions of `purra/recovery`.

A command is checked when it is built.  `LongTaskUnitSpec`,
`LongTaskCreateCommand`, `LongTaskSplitResult` and `LongTaskUsage` carry what
their `__post_init__` established as fields.
-/

namespace Purra

/-! ## Enumerations -/

/-- `LongTaskStatus`. -/
inductive LongTaskStatus where
  | pending | running | paused | completed | failed | canceled
  deriving DecidableEq, Repr

/-- `LongTaskStatus.terminal`. -/
def LongTaskStatus.terminal : LongTaskStatus → Bool
  | .completed | .failed | .canceled => true
  | .pending | .running | .paused => false

/-- `BudgetExhaustionDisposition`: the action once a task's budget has no allowance left. -/
inductive BudgetExhaustionDisposition where
  | pauseRecoverable | failPermanent
  deriving DecidableEq, Repr

/-- `LongTaskRunRelation`: why a Run is linked to a task. -/
inductive LongTaskRunRelation where
  | created | continuation | reference
  deriving DecidableEq, Repr

/-- `LongTaskUnitStatus`. -/
inductive LongTaskUnitStatus where
  | pending | waitingRetry | claimed | running | needsSplit | blocked | expanded | completed
  | failed | canceled
  deriving DecidableEq, Repr

namespace LongTaskUnitStatus

/-- `LongTaskUnitStatus.terminal`. -/
def terminal : LongTaskUnitStatus → Bool
  | .completed | .expanded | .failed | .canceled => true
  | _ => false

/-- Status in `{CLAIMED, RUNNING}`: a worker holds the unit. -/
def active : LongTaskUnitStatus → Bool
  | .claimed | .running => true
  | _ => false

/-- Status in `{PENDING, WAITING_RETRY}`: the unit waits for a worker. -/
def waiting : LongTaskUnitStatus → Bool
  | .pending | .waitingRetry => true
  | _ => false

/-- Status in `{BLOCKED, FAILED, CANCELED}`: what an explicit resume retries. -/
def recoverable : LongTaskUnitStatus → Bool
  | .blocked | .failed | .canceled => true
  | _ => false

end LongTaskUnitStatus

/-- `FailureCategory`. -/
inductive FailureCategory where
  | canceled | transientProvider | permanentExternal | protocolIncompatible | modelOutputInvalid
  | toolInputInvalid | toolExecution | businessInvariant
  deriving DecidableEq, Repr

/-- `FailureCategory.value`. -/
def FailureCategory.value : FailureCategory → String
  | .canceled => "canceled"
  | .transientProvider => "transient_provider"
  | .permanentExternal => "permanent_external"
  | .protocolIncompatible => "protocol_incompatible"
  | .modelOutputInvalid => "model_output_invalid"
  | .toolInputInvalid => "tool_input_invalid"
  | .toolExecution => "tool_execution"
  | .businessInvariant => "business_invariant"

/-- `FailureDisposition`: the owner's action after an attempt fails. -/
inductive FailureDisposition where
  | retryAttempt | resumeCheckpoint | pauseRecoverable | splitPart | failPermanent | cancel
  deriving DecidableEq, Repr

/-- `FailureDisposition.value`. -/
def FailureDisposition.value : FailureDisposition → String
  | .retryAttempt => "retry_attempt"
  | .resumeCheckpoint => "resume_checkpoint"
  | .pauseRecoverable => "pause_recoverable"
  | .splitPart => "split_part"
  | .failPermanent => "fail_permanent"
  | .cancel => "cancel"

/-- `FailureScope`. -/
inductive FailureScope where
  | «local» | systemic
  deriving DecidableEq, Repr

/-- `FailureScope.value`. -/
def FailureScope.value : FailureScope → String
  | .local => "local"
  | .systemic => "systemic"

/-- `RecoveryEffectState`. -/
inductive RecoveryEffectState where
  | notStarted | committed | unknown
  deriving DecidableEq, Repr

/-- `RecoveryEffectState.value`. -/
def RecoveryEffectState.value : RecoveryEffectState → String
  | .notStarted => "not_started"
  | .committed => "committed"
  | .unknown => "unknown"

/-! ## Usage and budgets -/

/-- `LongTaskUsage`: what one linked Run spent, or the sum over all of them. -/
structure LongTaskUsage where
  invocationCount : Nat
  unreportedUsageAttempts : Nat
  inputTokens : Nat
  generationTokens : Nat
  /-- `none` when a Run did not report its reasoning tokens. -/
  reasoningTokens : Option Nat
  unreported_le : unreportedUsageAttempts ≤ invocationCount
  deriving DecidableEq, Repr

namespace LongTaskUsage

/-- The default `LongTaskUsage()`. -/
def zero : LongTaskUsage := ⟨0, 0, 0, 0, none, le_rfl⟩

end LongTaskUsage

/-- `LongTaskBudgetLimits`: `none` is the unlimited value. -/
structure LongTaskBudgetLimits where
  maxInvocationAttempts : Option Nat := none
  maxInputTokens : Option Nat := none
  maxRunGenerationTokens : Option Nat := none
  maxReasoningTokens : Option Nat := none
  deriving DecidableEq, Repr

/-! ## Units -/

/-- `LongTaskUnitSpec`: a unit as the host declares it. -/
structure LongTaskUnitSpec where
  id : String
  position : Nat
  semanticKey : String
  dependencies : List String
  parentUnitId : Option String
  required : Bool
  inputRef : Option String
  maxAttempts : Nat
  metadata : Json.Object
  max_attempts_pos : 0 < maxAttempts
  not_self : id ∉ dependencies

/-- The dependency table a topological sorter is given for a list of units. -/
def LongTaskUnitSpec.table (units : List LongTaskUnitSpec) : List (String × List String) :=
  units.map fun unit => (unit.id, unit.dependencies)

/-- `dataclasses.replace(child, dependencies=..., parent_unit_id=...)`: the constructor runs
again, and of its checks only the one on the new dependencies can fail. -/
def LongTaskUnitSpec.replaceDependencies (child : LongTaskUnitSpec) (dependencies : List String)
    (parentUnitId : Option String) : Except PyError LongTaskUnitSpec :=
  if hself : child.id ∈ dependencies then
    .error (.valueError "long task unit cannot depend on itself")
  else
    .ok { child with dependencies, parentUnitId, not_self := hself }

/-- `LongTaskUnitRecord`: a unit as the store keeps it. -/
structure LongTaskUnitRecord where
  taskId : String
  id : String
  position : Nat
  status : LongTaskUnitStatus
  semanticKey : String
  dependencies : List String
  parentUnitId : Option String
  required : Bool
  attempt : Nat
  maxAttempts : Nat
  workerId : Option String
  /-- Raised by one with every claim; a write must present the current value. -/
  leaseEpoch : Nat
  leaseExpiresAtMs : Option Int
  settledByWorkerId : Option String
  runId : Option String
  inputRef : Option String
  outputRef : Option String
  artifactDigest : Option String
  validationReceipt : Json.Object
  failure : Json.Object
  disposition : Option FailureDisposition
  errorCode : Option String
  metadata : Json.Object

/-! ## Commands -/

/-- `LongTaskCreateCommand`: a validated manifest. -/
structure LongTaskCreateCommand where
  namespace_ : String
  kind : String
  ownerId : String
  createdByRunId : String
  units : List LongTaskUnitSpec
  maxParallelism : Nat
  deadlineAtMs : Option Nat
  budgetLimits : LongTaskBudgetLimits
  budgetExhaustionDisposition : BudgetExhaustionDisposition
  metadata : Json.Object
  some_required : ∃ unit ∈ units, unit.required = true
  nodup_ids : (units.map LongTaskUnitSpec.id).Nodup
  nodup_semanticKeys : (units.map LongTaskUnitSpec.semanticKey).Nodup
  nodup_positions : (units.map LongTaskUnitSpec.position).Nodup
  known : ∀ unit ∈ units, ∀ dependency ∈ unit.dependencies,
    dependency ∈ units.map LongTaskUnitSpec.id
  acyclic : Topology.acyclic (LongTaskUnitSpec.table units) = true
  max_parallelism_pos : 0 < maxParallelism

/-- `LongTaskSplitResult`.  The constructor checks the children's ids and semantic keys against
each other and the replacements against the children; it looks neither at the children's
positions nor at whom their dependencies name. -/
structure LongTaskSplitResult where
  children : List LongTaskUnitSpec
  replacementDependencyIds : List String
  nodup_ids : (children.map LongTaskUnitSpec.id).Nodup
  nodup_semanticKeys : (children.map LongTaskUnitSpec.semanticKey).Nodup
  replacement_subset : ∀ id ∈ replacementDependencyIds, id ∈ children.map LongTaskUnitSpec.id

/-- `LongTaskUnitResult`. -/
structure LongTaskUnitResult where
  outputRef : String
  runId : Option String
  artifactDigest : Option String
  validationReceipt : Json.Object
  metadata : Json.Object

/-- `FailureDecision`, with the fields a settlement reads. -/
structure FailureDecision where
  category : FailureCategory
  code : String
  disposition : FailureDisposition
  effectState : RecoveryEffectState
  scope : FailureScope
  deriving DecidableEq, Repr

/-! ## Records -/

/-- `LongTaskRunBinding`. -/
structure LongTaskRunBinding where
  taskId : String
  runId : String
  relation : LongTaskRunRelation
  deriving DecidableEq, Repr

/-- `LongTaskRecord`. -/
structure LongTaskRecord where
  id : String
  namespace_ : String
  kind : String
  ownerId : String
  createdByRunId : String
  status : LongTaskStatus
  revision : Nat
  totalUnits : Nat
  completedUnits : Nat
  failedUnits : Nat
  maxParallelism : Nat
  deadlineAtMs : Option Nat
  budgetLimits : LongTaskBudgetLimits
  budgetExhaustionDisposition : BudgetExhaustionDisposition
  cancellationRequestedAtMs : Option Nat
  usage : LongTaskUsage
  metadata : Json.Object

/-- `LongTaskRecord.__post_init__` on a record that replaces a valid one: of its checks, those on
the totals can fail. -/
def LongTaskRecord.checkTotals (record : LongTaskRecord) : Except PyError LongTaskRecord :=
  if record.totalUnits = 0 then
    .error (.valueError "long task record total_units must be positive")
  else if record.totalUnits < record.completedUnits + record.failedUnits then
    .error (.valueError "long task progress exceeds total units")
  else
    .ok record

/-- `StoredLongTask` of `purra/adapter_records.py`. -/
structure StoredLongTask where
  record : LongTaskRecord
  units : Dict String LongTaskUnitRecord
  bindings : Dict String LongTaskRunBinding
  usageByRun : Dict String LongTaskUsage

/-- `LongTaskState` of `purra/adapter_state.py`. -/
structure LongTaskState where
  tasks : Dict String StoredLongTask

end Purra
