import Purra.Approvals.Records
import Purra.Lib.Transaction
import Purra.Core.Enums

/-!
# The SQLite storage session

What one scope of `SqliteAgentAdapters` keeps (`purra_sqlite/__init__.py` over
`purra/storage/session.py`): the rows of Runs, tool receipts and tool claims, the
execution leases, the approval records, and the two extensions that the approval
code uses.  A method of the adapter is one or two transactions on this state; a
transaction that raises is rolled back.

Rows that only other ports read (events, traces, plans, artifacts, the Run tree)
are not part of the state.  What the ports of Runs and outputs do to the rows that
are is left open: any transaction of theirs may rewrite them.
-/

namespace Purra

/-- The functions of Python's library that no property depends on: the hash digests are made with,
and the reader of JSON texts. -/
structure PythonLibrary where
  sha256 : String → String
  jsonLoads : String → Except PyError Json

/-! ## Rows -/

/-- `ToolCall`. -/
structure ToolCall where
  id : String
  name : String
  argumentsJson : String
  deriving DecidableEq, Repr

/-- `ToolEffectState`. -/
inductive ToolEffectState where
  | notStarted | committed | unknown
  deriving DecidableEq, Repr

/-- `ToolHandlerResult`, with the fields the storage code reads. -/
structure ToolHandlerResult where
  content : String
  fromCache : Bool
  errorCode : Option String
  effectState : ToolEffectState
  deriving DecidableEq, Repr

/-- What `AgentToolExecutionCheckpoint` adds to a checkpoint: the one call of its assistant message,
and the model invocation that produced it. -/
structure PendingTool where
  call : ToolCall
  invocationId : String
  modelBudgetKey : String
  deriving DecidableEq, Repr

/-- `AgentExecutionCheckpoint`, tool-ready when `pending` is set.  Messages and the remaining fields
are kept as mappings: the storage code only compares them. -/
structure ExecutionCheckpoint where
  runId : String
  nextRound : Nat
  messages : List Json
  content : Json.Object
  pending : Option PendingTool

/-- `==` on checkpoints. -/
def ExecutionCheckpoint.same (a b : ExecutionCheckpoint) : Bool :=
  a.runId = b.runId && a.nextRound = b.nextRound && Json.pyEqItems a.messages b.messages &&
    Json.objectEq a.content b.content && a.pending = b.pending

/-- `StoredRun`, with the parameters that are read here.  `rootRunId` is
`params.root_run_id or run_id`. -/
structure StoredRun where
  rootRunId : String
  status : RunStatus
  deadlineAtMs : Option Int
  agentPresetSnapshot : Json.Object
  executionCheckpoint : Option ExecutionCheckpoint
  modelAttemptIds : List String
  modelUsageByInvocation : List String
  checkpointAttemptCount : Nat

/-- `StoredStream`. -/
structure StoredStream where
  runId : String
  committed : Bool
  finishedWithToolCalls : Bool

/-- `RunExecutionLease`, without the identity and status of its Run. -/
structure RunExecutionLease where
  ownerId : Option String := none
  expiresAtMs : Option Int := none
  heartbeatAtMs : Option Int := none
  attempt : Nat := 0
  cancellationRequestedAtMs : Option Int := none

namespace RunExecutionLease

/-- `lease.expires_at_ms or 0`. -/
def expiry (lease : RunExecutionLease) : Int := lease.expiresAtMs.getD 0

/-- Somebody holds the lease at `now`. -/
def held (lease : RunExecutionLease) (now : Int) : Bool :=
  lease.ownerId.isSome && now < lease.expiry

end RunExecutionLease

/-- The state of an approved execution. -/
inductive ExecutionState where
  | claimed | complete
  deriving DecidableEq, Repr

/-- A value of `extra["approvalExecutions"]`: which claim a dispatch was made under. -/
structure ApprovalExecution where
  intentDigest : String
  state : ExecutionState
  effectState : ToolEffectState
  approvalRevision : Int
  leaseOwnerId : String
  leaseEpoch : Nat
  deriving DecidableEq, Repr

/-- A row of `purra_approvals`; the body is the record's mapping, which `json.dumps` writes and
`json.loads` reads back. -/
structure ApprovalRow where
  runId : String
  callId : String
  body : Json.Object

/-- A value of `extra["recoverySchedule"]`. -/
structure ScheduleRow where
  revision : Int
  failures : Int
  notBeforeMs : Int

/-- The rows the ports of Runs and outputs write. -/
structure RunRows where
  runs : Dict String StoredRun
  streams : Dict String StoredStream
  streamByInvocation : Dict String String

/-- The state of one scope. -/
structure SqliteState extends RunRows where
  version : Nat
  toolReceipts : Dict (String × String) (ToolCall × ToolHandlerResult)
  claims : Dict (String × String) ToolCall
  leases : Dict String RunExecutionLease
  approvalExecutions : Dict String ApprovalExecution
  recoverySchedule : Dict String ScheduleRow
  recoveryScheduleRevision : Int
  approvals : Dict String ApprovalRow

/-- A computation inside one transaction. -/
abbrev Tx (α : Type) : Type := Transaction PyError SqliteState α

/-- The two context variables of `purra/execution/ownership.py`. -/
structure ExecutionContext where
  executionOwner : Option String
  executionClaim : Option (String × String × Nat)

/-! ## The session's methods -/

namespace StorageSession

open Transaction

/-- Raise a `ContractViolationError`. -/
def violation {α : Type} (message code : String) : Tx α :=
  raise (.contractViolation message code [])

/-- `runs.get`. -/
def getRun (runId : String) : Tx StoredRun := do
  let state ← read
  match state.runs.get? runId with
  | some run => pure run
  | none => violation ("run " ++ runId ++ " does not exist") "run_not_found"

/-- `has_settled_tool_invocation`. -/
def hasSettledToolInvocation (state : SqliteState) (runId : String) (pending : PendingTool) : Bool :=
  (state.runs.get? runId).any (fun run =>
      pending.modelBudgetKey ∈ run.modelUsageByInvocation &&
        run.modelAttemptIds.all (· ∈ run.modelUsageByInvocation) &&
        run.modelUsageByInvocation.all (· ∈ run.modelAttemptIds)) &&
    ((state.streamByInvocation.get? pending.invocationId).bind state.streams.get?).any
      fun stream => stream.runId = runId && stream.committed && stream.finishedWithToolCalls

/-- `has_tool_ready_checkpoint`. -/
def hasToolReadyCheckpoint (state : SqliteState) : Bool :=
  state.runs.values.any fun run => (run.executionCheckpoint.bind (·.pending)).isSome

/-- `save_tool_receipt`. -/
def saveToolReceipt (key : String × String) (call : ToolCall) (result : ToolHandlerResult) :
    Tx Unit := do
  let state ← read
  match state.toolReceipts.get? key with
  | some previous =>
    if previous ≠ (call, result) then
      violation "tool receipt conflicts" "tool_idempotency_conflict"
    else write fun state => { state with toolReceipts := state.toolReceipts.set key (call, result) }
  | none => write fun state => { state with toolReceipts := state.toolReceipts.set key (call, result) }

/-- What `_transaction` checks before it commits: tool-ready checkpoints need the approval format. -/
def transaction {α : Type} (body : Tx α) : Tx α := do
  let a ← body
  let state ← read
  if state.version = 4 ∧ hasToolReadyCheckpoint state = true then
    raise (.valueError "approval_storage_not_enabled")
  else pure a

end StorageSession

/-! ## Recovery hints -/

namespace RecoverySchedule

open Transaction

/-- `_integer` of `recovery_schedule.py`. -/
def checkInteger (value : Int) : Except PyError Unit :=
  if 0 ≤ value ∧ value < safeInteger then .ok ()
  else .error (.valueError "invalid recovery schedule integer")

/-- `_row`. -/
def row (state : SqliteState) (runId : String) : Except PyError ScheduleRow := do
  if strip runId = "" then .error (.valueError "run id required")
  else
    checkInteger state.recoveryScheduleRevision
    let row := (state.recoverySchedule.get? runId).getD ⟨state.recoveryScheduleRevision, 0, 0⟩
    checkInteger row.revision
    checkInteger row.failures
    checkInteger row.notBeforeMs
    .ok row

/-- `wake_recovery_schedule` with `existing_only`. -/
def wake (runId : String) : Tx Unit := do
  let state ← read
  let row ← ofExcept (row state runId)
  if runId ∉ state.recoverySchedule.keys then pure ()
  else
    let revision := max state.recoveryScheduleRevision row.revision + 1
    ofExcept (checkInteger revision)
    write fun state => { state with
      recoverySchedule := state.recoverySchedule.set runId ⟨revision, 0, 0⟩
      recoveryScheduleRevision := revision }

end RecoverySchedule

end Purra
