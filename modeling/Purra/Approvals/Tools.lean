import Purra.Approvals.Store

/-!
# Tool calls and the system

`_Idempotency.execute_once` is three separate things: a transaction that claims the
call (or replays its receipt), the external operation, and a transaction that stores
the receipt.  Between them anything can happen, on any host: a crash, a takeover of
the lease, a reconciliation, a cancellation.  `SystemState` is the storage together
with the executions that have claimed and not ended; `SystemOp` is one atomic thing
that happens.

* `executeBegin`, `executeComplete`, `reconcileTool` — the transactions.
* `Flight` — an execution in flight, with the claim it was let through on.
* `SystemState.step` — one event.
-/

namespace Purra

namespace ToolIdempotency

open Transaction StorageSession SqliteApprovalStore

variable (lib : PythonLibrary)

/-- The approval record of a Run and call, by its row. -/
def approvalOf (state : SqliteState) (runId callId : String) : Option String :=
  if state.version = 5 then
    (state.approvals.entries.find? fun p => p.2.runId = runId && p.2.callId = callId).map Prod.fst
  else none

/-- What the first transaction of `execute_once` decides. -/
inductive Begun where
  | replay (result : ToolHandlerResult)
  /-- The call is claimed; under an approval, with this execution entry. -/
  | started (approval : Option (String × ApprovalExecution))

/-- The execution entry of a claim under an approval. -/
def claimEntry (record : ApprovalRecord lib.sha256) (owner : String) (attempt : Nat) :
    Except PyError ApprovalExecution := do
  let intentDigest ← record.intent.digest lib.sha256
  match record.decisionAudit with
  | none => .error (.keyError "revision")
  | some audit => .ok ⟨intentDigest, .claimed, .unknown, audit.revision, owner, attempt⟩

/-- Claim a call, under its approval record if it has one. -/
def claimCall (runId : String) (call : ToolCall) : Option (ApprovalRecord lib.sha256) → Tx Begun
  | none => do
    write fun state => { state with claims := state.claims.set (runId, call.id) call }
    pure (.started none)
  | some record => do
    let state ← read
    match state.leases.get? runId with
    | none => raise (.keyError runId)
    | some lease => do
      let entry ← ofExcept (claimEntry lib record (lease.ownerId.getD "") lease.attempt)
      write fun state => { state with
        claims := state.claims.set (runId, call.id) call
        approvalExecutions := state.approvalExecutions.set record.approvalId entry }
      pure (.started (some (record.approvalId, entry)))

/-- The dispatch checks, for a call that has an approval record. -/
def dispatchApproval (context : ExecutionContext) (wall clock : Int) (runId : String)
    (call : ToolCall) : Option String → Tx (Option (ApprovalRecord lib.sha256))
  | some _ => some <$> dispatchRecord lib context wall clock runId call
  | none => pure none

/-- The first transaction of `execute_once`. -/
def executeBegin (context : ExecutionContext) (wall clock : Int) (runId : String)
    (call : ToolCall) : Tx Begun :=
  transaction do
    let state ← read
    let record ← dispatchApproval lib context wall clock runId call
      (approvalOf state runId call.id)
    match state.toolReceipts.get? (runId, call.id) with
    | some receipt =>
      if receipt.1 ≠ call then raise (.valueError "tool_idempotency_conflict")
      else pure (.replay { receipt.2 with fromCache := true })
    | none =>
      if (state.claims.get? (runId, call.id)).isSome then
        violation "Reconcile the previous tool attempt before retrying" "tool_effect_unknown"
      else
        claimCall lib runId call record

/-- The association of a completed call with its approval: the execution must still own its claim. -/
def completeEntry (context : ExecutionContext) (wall : Int) (runId : String)
    (result : ToolHandlerResult) : Option (String × ApprovalExecution) → Tx Unit
  | none => pure ()
  | some (approvalId, entry) => do
    let _ ← requireOwner context wall runId
    let state ← read
    if state.approvalExecutions.get? approvalId ≠ some entry then
      violation "Approval claim conflicts" "approval_claim_conflict"
    else write fun state => { state with
      approvalExecutions := state.approvalExecutions.set approvalId
        { entry with state := .complete, effectState := result.effectState } }

/-- `del self.store._claims[key]`. -/
def dropClaim (key : String × String) : Tx Unit := do
  let state ← read
  if (state.claims.get? key).isNone then raise (.keyError key.2)
  else write fun state => { state with claims := state.claims.erase key }

/-- The second transaction of `execute_once`, and the check before it: an approved call whose
effect is unknown keeps its claim. -/
def executeComplete (context : ExecutionContext) (wall : Int) (runId : String) (call : ToolCall)
    (approval : Option (String × ApprovalExecution)) (result : ToolHandlerResult) : Tx Unit := do
  if approval.isSome ∧ result.effectState = .unknown then
    violation "The approved tool effect is unknown" "tool_effect_unknown"
  else transaction do
    completeEntry context wall runId result approval
    saveToolReceipt (runId, call.id) call result
    dropClaim (runId, call.id)

/-- What the host supplies to `reconcile_tool`. -/
inductive Evidence where
  | result (result : ToolHandlerResult)
  | notExecuted
  deriving DecidableEq, Repr

/-- The evidence leaves no doubt about the effect. -/
def Evidence.known : Evidence → Bool
  | .result r => r.effectState ≠ .unknown
  | .notExecuted => true

/-- The checks of `reconcile_tool` under an approval: the Run is idle, the effect is known, and the
execution entry is an open claim of this record. -/
def reconcileEntry (wall : Int) (runId : String) (evidence : Evidence) (approvalId : String) :
    Tx ApprovalExecution := do
  let record ← load lib approvalId
  let state ← read
  if (state.leases.get? runId).any (·.held wall) = true then
    raise (.valueError "approval_reconciliation_requires_idle_run")
  else if ¬ evidence.known = true then
    raise (.valueError "approval_reconciliation_requires_known_effect")
  else
    match state.approvalExecutions.get? approvalId with
    | none => raise (.valueError "approval_claim_conflict")
    | some entry => do
      let digest ← ofExcept (record.intent.digest lib.sha256)
      if entry.intentDigest ≠ digest ∨ entry.state ≠ .claimed ∨ entry.effectState ≠ .unknown ∨
          some entry.approvalRevision ≠ record.decisionAudit.map (·.revision) then
        raise (.valueError "approval_claim_conflict")
      else pure entry

/-- The approval of the reconciled call, if it has one, with its checked execution entry. -/
def reconcileApproval (wall : Int) (runId : String) (evidence : Evidence) :
    Option String → Tx (Option (String × ApprovalExecution))
  | some approvalId => do
    let entry ← reconcileEntry lib wall runId evidence approvalId
    pure (some (approvalId, entry))
  | none => pure none

/-- A result becomes the receipt of the call. -/
def storeEvidence (runId : String) (call : ToolCall) : Evidence → Tx Unit
  | .result result => saveToolReceipt (runId, call.id) call result
  | .notExecuted => pure ()

/-- What `reconcile_tool` does to the execution entry of an approved call. -/
def settleEntry (evidence : Evidence) : Option (String × ApprovalExecution) → Tx Unit
  | none => pure ()
  | some (approvalId, entry) => write fun state => { state with
      approvalExecutions := match evidence with
        | .result result => state.approvalExecutions.set approvalId
            { entry with state := .complete, effectState := result.effectState }
        | .notExecuted => state.approvalExecutions.erase approvalId }

/-- `reconcile_tool`. -/
def reconcileTool (wall : Int) (runId : String) (call : ToolCall) (evidence : Evidence) : Tx Unit :=
  transaction do
    let state ← read
    if state.claims.get? (runId, call.id) ≠ some call then
      raise (.valueError "tool_claim_conflict")
    else
      let approval ← reconcileApproval lib wall runId evidence (approvalOf state runId call.id)
      storeEvidence runId call evidence
      settleEntry evidence approval
      write fun state => { state with claims := state.claims.erase (runId, call.id) }
      RecoverySchedule.wake runId

end ToolIdempotency

/-! ## The system -/

open ToolIdempotency

/-- How far an execution has come. -/
inductive FlightPhase where
  | claimed
  | started
  /-- Ended, crashed or cut off: nothing more comes of it. -/
  | ended
  deriving DecidableEq, Repr

/-- An `execute_once` that has claimed its call. -/
structure Flight where
  context : ExecutionContext
  runId : String
  call : ToolCall
  approval : Option (String × ApprovalExecution)
  phase : FlightPhase

/-- The storage, and every execution that ever claimed a call. -/
structure SystemState where
  storage : SqliteState
  flights : List Flight

/-- The transactions that are one storage access each, by any worker or host. -/
inductive StoreOp where
  | create (clock : Int) (intent : ApprovalIntent) (expiresAtMs : Int)
  | prepare (context : ExecutionContext) (clock later : Int) (checkpoint : ExecutionCheckpoint)
      (intent : ApprovalIntent) (expiresAtMs : Int)
  | decide (clock : Int) (command : ApprovalDecisionCommand) (principalId : String)
      (allowed : Option Bool)
  | refresh (clock : Int) (approvalId : String)
  | request (context : ExecutionContext) (clock : Int) (runId : String) (call : ToolCall)
      (binding : Option Json.Object)
  | claimLease (runId ownerId : String) (leaseDurationMs : Int)
  | renewLease (context : ExecutionContext) (runId ownerId : String) (leaseDurationMs : Int)
  | releaseLease (context : ExecutionContext) (runId ownerId : String)
  | requestCancellation (runId : String)
  | portWrite (context : ExecutionContext) (guarded : Option String)
      (update : RunRows → Except PyError RunRows)
  | reconcileTool (runId : String) (call : ToolCall) (evidence : Evidence)

/-- The storage an operation leaves, at a reading of `time.time`. -/
def StoreOp.apply (lib : PythonLibrary) (wall : Int) (state : SqliteState) : StoreOp → SqliteState
  | .create clock intent expires => (SqliteApprovalStore.create lib clock intent expires).left state
  | .prepare context clock later checkpoint intent expires =>
    (SqliteApprovalStore.prepare lib context wall clock later checkpoint intent expires).left state
  | .decide clock command principal allowed =>
    (SqliteApprovalStore.decide lib clock command principal allowed).left state
  | .refresh clock approvalId => (SqliteApprovalStore.refresh lib clock approvalId).left state
  | .request context clock runId call binding =>
    (SqliteApprovalStore.request lib context wall clock runId call binding).left state
  | .claimLease runId owner duration => (LeaseStore.claim wall runId owner duration).left state
  | .renewLease context runId owner duration =>
    (LeaseStore.renew context wall runId owner duration).left state
  | .releaseLease context runId owner => (LeaseStore.release context runId owner).left state
  | .requestCancellation runId => (LeaseStore.requestCancellation wall runId).left state
  | .portWrite context guarded update =>
    (LeaseStore.portWrite context wall guarded update).left state
  | .reconcileTool runId call evidence =>
    (ToolIdempotency.reconcileTool lib wall runId call evidence).left state

/-- One atomic event of the system. -/
inductive SystemOp where
  | store (op : StoreOp)
  /-- The first transaction of `execute_once`. -/
  | begin (context : ExecutionContext) (clock : Int) (runId : String) (call : ToolCall)
  /-- Execution `flight` awaits its operation. -/
  | start (flight : Nat)
  /-- The operation of `flight` returned, and its second transaction runs. -/
  | complete (flight : Nat) (result : ToolHandlerResult)
  /-- `flight` crashes, is cut off, or its operation raises. -/
  | crash (flight : Nat)

namespace SystemState

/-- The execution at an index, if it is in the given phase. -/
def flightIn (state : SystemState) (flight : Nat) (phase : FlightPhase) : Option Flight :=
  (state.flights[flight]?).filter fun f => f.phase = phase

/-- Move an execution to a phase. -/
def setPhase (state : SystemState) (flight : Nat) (phase : FlightPhase) : SystemState :=
  { state with flights := state.flights.modify flight fun f => { f with phase } }

/-- The state after an event, at a reading of `time.time`. -/
def step (lib : PythonLibrary) (state : SystemState) (event : Int × SystemOp) : SystemState :=
  match event.2 with
  | .store op => { state with storage := op.apply lib event.1 state.storage }
  | .begin context clock runId call =>
    match executeBegin lib context event.1 clock runId call state.storage with
    | .ok (.started approval, storage) =>
      ⟨storage, state.flights ++ [⟨context, runId, call, approval, .claimed⟩]⟩
    | .ok (.replay _, storage) => { state with storage }
    | .error _ => state
  | .start flight =>
    match state.flightIn flight .claimed with
    | some _ => state.setPhase flight .started
    | none => state
  | .complete flight result =>
    match state.flightIn flight .started with
    | some f =>
      { state.setPhase flight .ended with
        storage := (executeComplete f.context event.1 f.runId f.call f.approval result).left
          state.storage }
    | none => state
  | .crash flight => state.setPhase flight .ended

/-- A scope with Runs and their rows, and no lease, claim, receipt or approval yet. -/
def initial (version : Nat) (rows : RunRows) : SystemState where
  storage := {
    toRunRows := rows
    version
    toolReceipts := .empty
    claims := .empty
    leases := .empty
    approvalExecutions := .empty
    recoverySchedule := .empty
    recoveryScheduleRevision := 0
    approvals := .empty }
  flights := []

end SystemState

end Purra
