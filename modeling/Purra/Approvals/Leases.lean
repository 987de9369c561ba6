import Purra.Approvals.Session

/-!
# Execution leases

`_Leases` of `purra_sqlite/__init__.py`, and `_guard`, the check the ports of Runs
and outputs make before a write.  An execution is bound to an owner and the attempt
its claim started; both travel in context variables, so the same owner can come back
under a later attempt and still be told apart from its former self.

`wall` is the reading of `time.time` a transaction makes.
-/

namespace Purra

/-- The context belongs to another attempt of this owner at this Run. -/
def ExecutionContext.stale (context : ExecutionContext) (runId ownerId : String) (attempt : Nat) :
    Bool :=
  match context.executionClaim with
  | some (run, owner, claimed) => run = runId && owner = ownerId && claimed ≠ attempt
  | none => false

namespace LeaseStore

open Transaction StorageSession

/-- The lease of a Run; one that was never claimed has a fresh one. -/
def current (state : SqliteState) (runId : String) : RunExecutionLease :=
  (state.leases.get? runId).getD {}

/-- Store a lease. -/
def put (runId : String) (lease : RunExecutionLease) : Tx Unit :=
  write fun state => { state with leases := state.leases.set runId lease }

/-- A tool-ready Run has an unsettled tool claim. -/
def toolEffectUnknown (state : SqliteState) (runId : String) (run : StoredRun) : Bool :=
  (run.executionCheckpoint.bind (·.pending)).isSome && state.claims.keys.any (·.1 = runId)

/-- Model attempts were made after the checkpoint. -/
def attemptsAfterCheckpoint (run : StoredRun) : Bool :=
  run.executionCheckpoint.isSome && run.modelAttemptIds.length ≠ run.checkpointAttemptCount

/-- `claim`. -/
def claim (wall : Int) (runId ownerId : String) (leaseDurationMs : Int) : Tx Bool :=
  if ownerId = "" ∨ leaseDurationMs ≤ 0 then raise (.valueError "invalid lease")
  else transaction do
    let state ← read
    match state.runs.get? runId with
    | none => raise (.attributeError "'NoneType' object has no attribute 'status'")
    | some run =>
      let old := current state runId
      if run.status ≠ .running ∨ old.cancellationRequestedAtMs.isSome then pure false
      else if old.held wall then pure false
      else if toolEffectUnknown state runId run then
        violation "Reconcile the approved tool effect before recovery" "tool_effect_unknown"
      else if attemptsAfterCheckpoint run then
        violation "The last model/tool attempt needs reconciliation"
          "run_recovery_requires_reconciliation"
      else do
        put runId { old with
          ownerId := optionalText (some ownerId)
          expiresAtMs := some (wall + leaseDurationMs)
          heartbeatAtMs := some wall
          attempt := old.attempt + 1 }
        pure true

/-- `renew`. -/
def renew (context : ExecutionContext) (wall : Int) (runId ownerId : String)
    (leaseDurationMs : Int) : Tx Bool :=
  transaction do
    let state ← read
    match state.leases.get? runId with
    | none => pure false
    | some old =>
      if old.ownerId ≠ some ownerId ∨ old.expiry ≤ wall then pure false
      else if context.stale runId ownerId old.attempt then pure false
      else do
        put runId { old with
          expiresAtMs := some (wall + leaseDurationMs), heartbeatAtMs := some wall }
        pure true

/-- `release`. -/
def release (context : ExecutionContext) (runId ownerId : String) : Tx Bool :=
  transaction do
    let state ← read
    match state.leases.get? runId with
    | none => pure false
    | some old =>
      if old.ownerId ≠ some ownerId then pure false
      else if context.stale runId ownerId old.attempt then pure false
      else do
        put runId { old with ownerId := none, expiresAtMs := none }
        pure true

/-- `request_cancellation`. -/
def requestCancellation (wall : Int) (runId : String) : Tx Bool :=
  transaction do
    let state ← read
    match state.runs.get? runId with
    | none => pure false
    | some run =>
      if run.status ≠ .running then pure false
      else
        let old := current state runId
        if old.cancellationRequestedAtMs.isSome then pure false
        else do
          put runId { old with cancellationRequestedAtMs := some wall }
          pure true

/-- The lease is not this context's: another owner's, expired, or from another attempt. -/
def lost (context : ExecutionContext) (wall : Int) (runId owner : String)
    (lease : RunExecutionLease) : Bool :=
  lease.ownerId ≠ some owner || lease.expiry ≤ wall ||
    match context.executionClaim with
    | some (run, _, attempt) => run = runId && attempt ≠ lease.attempt
    | none => false

/-- `_guard`. -/
def guard (context : ExecutionContext) (wall : Int) (runId : String) : Tx Unit := do
  let state ← read
  match state.leases.get? runId, context.executionOwner with
  | some lease, some owner =>
    if lost context wall runId owner lease then
      violation "Execution lease was lost" "run_lease_lost"
    else pure ()
  | _, _ => pure ()

/-- The guard of the Run a port method is about, when it knows one. -/
def guardRun (context : ExecutionContext) (wall : Int) : Option String → Tx Unit
  | some runId => guard context wall runId
  | none => pure ()

/-- A transaction of a port of Runs or outputs: `update` is whatever the port does to the rows. -/
def portWrite (context : ExecutionContext) (wall : Int) (guarded : Option String)
    (update : RunRows → Except PyError RunRows) : Tx Unit :=
  transaction do
    guardRun context wall guarded
    let state ← read
    let rows ← ofExcept (update state.toRunRows)
    write fun state => { state with toRunRows := rows }

end LeaseStore

end Purra
