import Purra.Approvals.Leases

/-!
# The approval store

`SqliteApprovalStore` of `purra_sqlite/approvals.py`.  A record is created pending,
decided by a command, and closed by expiry or cancellation; `_dispatch_record` is
what a dispatch must find.

`clock` is the reading of the store's own clock, `wall` that of `time.time`, which
only the ownership check uses.  The authorizer runs between the read and the
transaction of `decide`, so its answer is an argument here.
-/

namespace Purra

/-- `_receipt`: what an accepted command is answered with. -/
structure ApprovalReceipt where
  approvalId : String
  intentDigest : String
  commandKey : String
  status : ApprovalStatus
  revision : Int
  decidedAtMs : Int
  deriving DecidableEq, Repr

namespace SqliteApprovalStore

open Transaction StorageSession

/-- `_fail`. -/
def fail {α : Type} (code : String) : Tx α := violation "Approval operation was rejected" code

/-- `_enabled`. -/
def enabled : Tx Unit := do
  let state ← read
  if state.version ≠ 5 then fail "approval_storage_not_enabled" else pure ()

/-- `_now`. -/
def now (clock : Int) : Tx Int := do
  ofExcept (checkInteger clock "clock")
  pure clock

variable (lib : PythonLibrary)

/-- The identifier of the record of a tool call. -/
def identifier (runId callId : String) : Except PyError String :=
  jsonIdentityDigest lib.sha256 (.obj [("profile", .str "purra.approval-key/v1"),
    ("runId", .str runId), ("toolCallId", .str callId)])

/-- `_decode`. -/
def decode (approvalId : String) (row : ApprovalRow) : Tx (ApprovalRecord lib.sha256) := do
  let record ← ofExcept (ApprovalRecord.fromMapping lib.sha256 row.body)
  if record.approvalId ≠ approvalId ∨
      (record.intent.runId, record.intent.toolCallId) ≠ (row.runId, row.callId) then
    fail "approval_record_conflict"
  else pure record

/-- `_load`. -/
def load (approvalId : String) : Tx (ApprovalRecord lib.sha256) := do
  ofExcept (checkText approvalId "id")
  enabled
  let state ← read
  match state.approvals.get? approvalId with
  | none => fail "approval_not_found"
  | some row => decode lib approvalId row

/-- `_save`: an upsert on the identifier; a Run and call have one row. -/
def save (record : ApprovalRecord lib.sha256) : Tx Unit := do
  let body ← ofExcept record.toMapping
  let state ← read
  match state.approvals.get? record.approvalId with
  | some row =>
    write fun state => { state with
      approvals := state.approvals.set record.approvalId { row with body } }
  | none =>
    if state.approvals.values.any fun row =>
        row.runId = record.intent.runId && row.callId = record.intent.toolCallId then
      raise (.integrityError "UNIQUE constraint failed")
    else write fun state => { state with
      approvals := state.approvals.set record.approvalId
        ⟨record.intent.runId, record.intent.toolCallId, body⟩ }

/-- The earlier of two deadlines. -/
def earliest : Option Int → Option Int → Option Int
  | some a, some b => some (min a b)
  | some a, none => some a
  | none, b => b

/-- A cancellation of the Run is requested. -/
def cancellationRequested (state : SqliteState) (runId : String) : Bool :=
  (state.leases.get? runId).any fun lease => lease.cancellationRequestedAtMs.isSome

/-- What `_run_state` returns. -/
structure RunState where
  canceled : Bool
  deadline : Option Int
  fingerprint : String

/-- `_run_state`. -/
def runState (intent : ApprovalIntent) : Tx RunState := do
  let state ← read
  if ¬ (state.runs.get? intent.runId).any (fun run => run.rootRunId = intent.rootRunId) = true then
    fail "approval_run_conflict"
  else
    let run ← getRun intent.runId
    let root ← getRun intent.rootRunId
    let fingerprint ← ofExcept (jsonIdentityDigest lib.sha256 (.obj run.agentPresetSnapshot))
    pure {
      canceled := run.status ≠ .running || root.status ≠ .running ||
        cancellationRequested state intent.runId || cancellationRequested state intent.rootRunId
      deadline := earliest run.deadlineAtMs root.deadlineAtMs
      fingerprint }

/-- `min(expires_at_ms, deadline)`. -/
def effectiveExpiry (expiresAtMs : Int) (deadline : Option Int) : Int :=
  match deadline with
  | some deadline => min expiresAtMs deadline
  | none => expiresAtMs

/-- `_create`. -/
def createRecord (clock : Int) (intent : ApprovalIntent) (expiresAtMs : Int)
    (approvalId : String) : Tx (ApprovalRecord lib.sha256) := do
  enabled
  let run ← runState lib intent
  if run.canceled then fail "approval_run_terminal"
  else if run.fingerprint ≠ intent.presetFingerprint then fail "approval_configuration_mismatch"
  else
    let expiry := effectiveExpiry expiresAtMs run.deadline
    let state ← read
    match state.approvals.get? approvalId with
    | some _ => do
      let record ← load lib approvalId
      let stored ← ofExcept (record.intent.digest lib.sha256)
      let asked ← ofExcept (intent.digest lib.sha256)
      if stored ≠ asked ∨ record.expiresAtMs ≠ expiry then fail "approval_intent_conflict"
      else pure record
    | none => do
      let now ← now clock
      if expiry ≤ now then fail "approval_expired"
      else do
        let record ← ofExcept (ApprovalRecord.new lib.sha256 approvalId intent 1 .pending now expiry)
        save lib record
        pure record

/-- `create`. -/
def create (clock : Int) (intent : ApprovalIntent) (expiresAtMs : Int) :
    Tx (ApprovalRecord lib.sha256) := do
  ofExcept (checkInteger expiresAtMs "expiry")
  let approvalId ← ofExcept (identifier lib intent.runId intent.toolCallId)
  transaction (createRecord lib clock intent expiresAtMs approvalId)

/-- The status `_refresh` moves an open record to: the Run's cancellation, or the expiry. -/
def refreshedStatus (run : RunState) (expiresAtMs clock : Int) : Option ApprovalStatus :=
  if run.canceled then some .canceled
  else if effectiveExpiry expiresAtMs run.deadline ≤ clock then some .expired
  else none

/-- `_refresh`. -/
def refreshRecord (record : ApprovalRecord lib.sha256) (clock : Int) :
    Tx (ApprovalRecord lib.sha256 × String) := do
  let run ← runState lib record.intent
  match refreshedStatus run record.expiresAtMs clock with
  | some status =>
    if record.status.openToRefresh then do
      let record ← ofExcept (ApprovalRecord.new lib.sha256 record.approvalId record.intent
        (record.revision + 1) status record.createdAtMs record.expiresAtMs record.decisionAudit)
      save lib record
      pure (record, run.fingerprint)
    else pure (record, run.fingerprint)
  | none => pure (record, run.fingerprint)

/-- `refresh`. -/
def refresh (clock : Int) (approvalId : String) : Tx (ApprovalRecord lib.sha256) :=
  transaction do
    let record ← load lib approvalId
    let now ← now clock
    let (record, _) ← refreshRecord lib record now
    pure record

/-- `_receipt`. -/
def receipt (record : ApprovalRecord lib.sha256) : Except PyError ApprovalReceipt :=
  match record.decisionAudit with
  | none => .error (.keyError "command")
  | some audit => do
    let intentDigest ← record.intent.digest lib.sha256
    .ok ⟨record.approvalId, intentDigest, audit.command.commandKey,
      .ofDecision audit.command.decision, audit.revision, audit.decidedAtMs⟩

/-- The record an accepted command leaves. -/
def decided (record : ApprovalRecord lib.sha256) (command : ApprovalDecisionCommand)
    (principalId : String) (now : Int) : Except PyError (ApprovalRecord lib.sha256) :=
  ApprovalRecord.new lib.sha256 record.approvalId record.intent (record.revision + 1)
    (.ofDecision command.decision) record.createdAtMs record.expiresAtMs
    (some ⟨command, principalId, now, record.revision + 1⟩)

/-- The part of `decide` after the comparison with the stored audit.  A decision that comes too
late commits the expiry or the cancellation it met and fails afterwards. -/
def decideRecord (clock : Int) (command : ApprovalDecisionCommand) (principalId : String)
    (record : ApprovalRecord lib.sha256) : Tx (Except PyError ApprovalReceipt) := do
  let digest ← ofExcept (record.intent.digest lib.sha256)
  if record.revision ≠ command.expectedRevision ∨ digest ≠ command.intentDigest ∨
      record.status ≠ .pending then
    fail "approval_revision_conflict"
  else
    let now ← now clock
    let (record, fingerprint) ← refreshRecord lib record now
    let late (code : String) : Tx (Except PyError ApprovalReceipt) :=
      pure (.error (.contractViolation "Approval operation was rejected" code []))
    if record.status = .expired ∨ record.status = .canceled then
      late ("approval_" ++ record.status.value)
    else if fingerprint ≠ record.intent.presetFingerprint then
      late "approval_configuration_mismatch"
    else do
      let record ← ofExcept (decided lib record command principalId now)
      save lib record
      RecoverySchedule.wake record.intent.runId
      pure (receipt lib record)

/-- The transaction of `decide`. -/
def decideTransaction (clock : Int) (command : ApprovalDecisionCommand) (principalId : String) :
    Tx (Except PyError ApprovalReceipt) :=
  transaction do
    let record ← load lib command.approvalId
    match record.decisionAudit with
    | some audit =>
      if audit.command.commandKey = command.commandKey then
        if audit.principalId ≠ principalId ∨ audit.command ≠ command then
          fail "approval_command_conflict"
        else pure (receipt lib record)
      else decideRecord lib clock command principalId record
    | none => decideRecord lib clock command principalId record

/-- `decide`, with the answer the authorizer gave to an earlier read of the record; `none` is an
authorizer that raised. -/
def decide (clock : Int) (command : ApprovalDecisionCommand) (principalId : String)
    (allowed : Option Bool) : Tx (Except PyError ApprovalReceipt) := do
  ofExcept (checkText principalId "principal")
  match allowed with
  | none => fail "approval_authorization_failed"
  | some false => fail "approval_authorization_denied"
  | some true => decideTransaction lib clock command principalId

/-! ## Dispatch -/

/-- `_require_owner`. -/
def requireOwner (context : ExecutionContext) (wall : Int) (runId : String) :
    Tx (String × Nat) := do
  let state ← read
  match context.executionClaim, state.leases.get? runId, context.executionOwner with
  | some (run, _, attempt), some lease, some owner =>
    if run ≠ runId ∨ lease.ownerId ≠ some owner ∨ attempt ≠ lease.attempt ∨ lease.expiry ≤ wall then
      fail "agent_run_lease_lost"
    else pure (owner, attempt)
  | _, _, _ => fail "agent_run_lease_lost"

/-- The arguments of a call are those of an intent. -/
def sameArguments (call : ToolCall) (intent : ApprovalIntent) : Except PyError Bool := do
  let called ← lib.jsonLoads call.argumentsJson
  let calledDigest ← jsonIdentityDigest lib.sha256 called
  let intended ← jsonIdentityDigest lib.sha256 (.obj intent.arguments)
  .ok (calledDigest = intended)

/-- What `_completed_receipt` asks of the receipt and of the execution it was stored with. -/
def completes (record : ApprovalRecord lib.sha256) (call : ToolCall)
    (receipt : ToolCall × ToolHandlerResult) (execution : ApprovalExecution) (digest : String) :
    Bool :=
  receipt.1 = call && receipt.2.effectState ≠ .unknown && execution.intentDigest = digest &&
    execution.state = .complete && execution.effectState = receipt.2.effectState &&
    some execution.approvalRevision = record.decisionAudit.map (·.revision) &&
    execution.leaseOwnerId ≠ "" && 1 ≤ execution.leaseEpoch

/-- `_completed_receipt`. -/
def completedReceipt (record : ApprovalRecord lib.sha256) (call : ToolCall) : Tx Bool := do
  let state ← read
  match state.toolReceipts.get? (record.intent.runId, call.id) with
  | none => pure false
  | some receipt =>
    match state.approvalExecutions.get? record.approvalId with
    | none => fail "approval_claim_conflict"
    | some execution => do
      let digest ← ofExcept (record.intent.digest lib.sha256)
      if completes lib record call receipt execution digest then pure true
      else fail "approval_claim_conflict"

/-- The checkpoint's one call is this call, and it is the call the intent is about. -/
def checkCheckpoint (checkpoint : Option ExecutionCheckpoint) (call : ToolCall)
    (intent : ApprovalIntent) : Tx PendingTool := do
  match checkpoint.bind (·.pending) with
  | none => fail "approval_checkpoint_conflict"
  | some pending =>
    if pending.call ≠ call ∨ call.name ≠ intent.toolName then fail "approval_checkpoint_conflict"
    else
      let same ← ofExcept (sameArguments lib call intent)
      if ¬ same = true then fail "approval_checkpoint_conflict" else pure pending

/-- `_dispatch_record`. -/
def dispatchRecord (context : ExecutionContext) (wall clock : Int) (runId : String)
    (call : ToolCall) : Tx (ApprovalRecord lib.sha256) := do
  enabled
  let _ ← requireOwner context wall runId
  let approvalId ← ofExcept (identifier lib runId call.id)
  let record ← load lib approvalId
  let run ← getRun runId
  let pending ← checkCheckpoint lib run.executionCheckpoint call record.intent
  let state ← read
  if ¬ hasSettledToolInvocation state runId pending = true then
    fail "approval_invocation_unsettled"
  else
    let completed ← completedReceipt lib record call
    if completed then pure record
    else
      let run ← runState lib record.intent
      if run.canceled then fail "approval_canceled"
      else if record.status ≠ .approved then fail ("approval_" ++ record.status.value)
      else
        let now ← now clock
        if effectiveExpiry record.expiresAtMs run.deadline ≤ now then fail "approval_expired"
        else if run.fingerprint ≠ record.intent.presetFingerprint then
          fail "approval_configuration_mismatch"
        else pure record

/-- The fields of a binding agree with the intent's. -/
def checkBinding (intent : Json.Object) : Json.Object → Tx Unit
  | [] => pure ()
  | (key, value) :: binding =>
    match Json.field? intent key with
    | none => raise (.keyError key)
    | some stored =>
      if stored.pyEq value then checkBinding intent binding else fail "approval_intent_conflict"

/-- The binding of the requested approval, when it has one. -/
def checkRequested (intent : ApprovalIntent) : Option Json.Object → Tx Unit
  | some binding => checkBinding intent.toMapping binding
  | none => pure ()

/-- `_DurableApprovalGateway.request`, when the run is not being stopped. -/
def request (context : ExecutionContext) (wall clock : Int) (runId : String) (call : ToolCall)
    (binding : Option Json.Object) : Tx String :=
  transaction do
    let record ← dispatchRecord lib context wall clock runId call
    checkRequested record.intent binding
    pure record.approvalId

/-! ## Preparing -/

/-- A later tool-ready checkpoint may follow at the same round when it extends the messages of a
model-ready one. -/
def followsCheckpoint (current checkpoint : ExecutionCheckpoint) : Bool :=
  current.nextRound < checkpoint.nextRound ||
    (current.nextRound = checkpoint.nextRound &&
      (checkpoint.same current ||
        (current.pending.isNone && checkpoint.pending.isSome &&
          Json.pyEqItems (checkpoint.messages.take current.messages.length) current.messages)))

/-- `runs.commit` of a tool-ready checkpoint. -/
def commitCheckpoint (runId : String) (checkpoint : ExecutionCheckpoint) : Tx Unit := do
  if checkpoint.runId ≠ runId then
    violation "Agent execution checkpoint belongs to another Run"
      "agent_execution_checkpoint_conflict"
  else
    let run ← getRun runId
    if run.status ≠ .running then
      violation "terminal run cannot accept another commit" "contract_violation"
    else if ¬ run.executionCheckpoint.all (followsCheckpoint · checkpoint) = true then
      violation "Agent execution checkpoint content conflicts" "agent_execution_checkpoint_conflict"
    else write fun state => { state with
      runs := state.runs.set runId { run with
        executionCheckpoint := some checkpoint
        checkpointAttemptCount := run.modelAttemptIds.length } }

/-- `prepare` commits its checkpoint unless the Run has it already. -/
def commitNewCheckpoint (intent : ApprovalIntent) (checkpoint : ExecutionCheckpoint) : Tx Unit := do
  let run ← getRun intent.runId
  if run.executionCheckpoint.any (·.same checkpoint) then pure ()
  else commitCheckpoint intent.runId checkpoint

/-- The transaction of `prepare`: the record, and whether its call has a complete receipt.  It reads
the store's clock twice, for a new record and for the refresh. -/
def prepareTransaction (context : ExecutionContext) (wall clock later : Int)
    (checkpoint : ExecutionCheckpoint) (pending : PendingTool) (intent : ApprovalIntent)
    (expiresAtMs : Int) (approvalId : String) : Tx (ApprovalRecord lib.sha256 × Bool) :=
  transaction do
    let _ ← requireOwner context wall intent.runId
    let state ← read
    if ¬ hasSettledToolInvocation state intent.runId pending = true then
      fail "approval_invocation_unsettled"
    else
      let record ← createRecord lib clock intent expiresAtMs approvalId
      commitNewCheckpoint intent checkpoint
      let now ← now later
      let (record, _) ← refreshRecord lib record now
      let completed ← completedReceipt lib record pending.call
      pure (record, completed)

/-- How `prepare` ends once its transaction has committed. -/
inductive Prepared where
  | ready (approvalId : String)
  /-- `ApprovalRequired`. -/
  | required (approvalId : String)
  | refused (code : String)

/-- `prepare`. -/
def prepare (context : ExecutionContext) (wall clock later : Int)
    (checkpoint : ExecutionCheckpoint) (intent : ApprovalIntent) (expiresAtMs : Int) :
    Tx Prepared := do
  match checkpoint.pending with
  | none => raise (.typeError "tool-ready checkpoint and intent required")
  | some pending =>
    ofExcept (checkInteger expiresAtMs "expiry")
    if checkpoint.runId ≠ intent.runId ∨ pending.call.id ≠ intent.toolCallId ∨
        pending.call.name ≠ intent.toolName then
      fail "approval_checkpoint_conflict"
    else
      let same ← ofExcept (sameArguments lib pending.call intent)
      if ¬ same = true then fail "approval_checkpoint_conflict"
      else
        let approvalId ← ofExcept (identifier lib intent.runId intent.toolCallId)
        let (record, completed) ← prepareTransaction lib context wall clock later checkpoint
          pending intent expiresAtMs approvalId
        if completed then pure (.ready record.approvalId)
        else match record.status with
          | .pending => pure (.required record.approvalId)
          | .approved => pure (.ready record.approvalId)
          | status => pure (.refused ("approval_" ++ status.value))

end SqliteApprovalStore

end Purra
