import Purra.Approvals.Tools

/-!
# What each method leaves alone

The storage has four kinds of rows that matter to dispatch: leases, approvals, tool
claims with their receipts and execution entries, and the rows of Runs.  Each group
of methods writes its own kind and reads the others.

* `dispatchRows` — what the approval store never writes.
* `besideLeases` — what the lease methods never write.
* `besideRuns` — what the ports of Runs and outputs never write.
* `grantRows` — what the tool methods never write.
-/

namespace Purra

open Transaction StorageSession

/-- Receipts, claims, execution entries and leases. -/
def dispatchRows (s : SqliteState) :=
  (s.version, s.toolReceipts, s.claims, s.leases, s.approvalExecutions)

/-- Everything but the leases. -/
def besideLeases (s : SqliteState) : SqliteState := { s with leases := .empty }

/-- Everything but the rows of Runs. -/
def besideRuns (s : SqliteState) : SqliteState :=
  { s with toRunRows := ⟨.empty, .empty, .empty⟩ }

/-- Runs, leases and approvals. -/
def grantRows (s : SqliteState) := (s.version, s.toRunRows, s.leases, s.approvals)

section

variable {γ : Type} {f : SqliteState → γ} {α : Type}

theorem keeps_transaction {m : Tx α} (h : Keeps f m) : Keeps f (transaction m) :=
  keeps_bind h fun _ => keeps_read_bind fun _ => keeps_ite (keeps_raise _) (keeps_pure _)

theorem keeps_violation (message code : String) : Keeps f (violation message code : Tx α) :=
  keeps_raise _

theorem keeps_getRun (runId : String) : Keeps f (getRun runId) := by
  refine keeps_read_bind fun state => ?_
  cases state.runs.get? runId with
  | some run => exact keeps_pure run
  | none => exact keeps_violation _ _

theorem keeps_saveToolReceipt {key : String × String} {call : ToolCall} {result : ToolHandlerResult}
    (h : ∀ (s : SqliteState) d, f { s with toolReceipts := d } = f s) :
    Keeps f (saveToolReceipt key call result) := by
  have hwrite : Keeps f (write fun state : SqliteState => { state with
      toolReceipts := state.toolReceipts.set key (call, result) } : Tx Unit) :=
    keeps_write fun s => h s _
  refine keeps_read_bind fun state => ?_
  cases state.toolReceipts.get? key with
  | some previous => exact keeps_ite (keeps_violation _ _) hwrite
  | none => exact hwrite

theorem keeps_wake {runId : String}
    (h : ∀ (s : SqliteState) d r,
      f { s with recoverySchedule := d, recoveryScheduleRevision := r } = f s) :
    Keeps f (RecoverySchedule.wake runId) :=
  keeps_read_bind fun _ => keeps_ofExcept_bind fun _ => keeps_ite (keeps_pure _)
    (keeps_ofExcept_bind fun _ => keeps_write fun s => h s _ _)

end

/-! ## Leases -/

namespace LeaseStore

theorem keeps_put (runId : String) (lease : RunExecutionLease) :
    Keeps besideLeases (put runId lease) := keeps_write fun _ => rfl

theorem keeps_put_bind {β : Type} (runId : String) (lease : RunExecutionLease) (b : β) :
    Keeps besideLeases (put runId lease >>= fun _ => pure b) :=
  keeps_bind (keeps_put runId lease) fun _ => keeps_pure b

theorem keeps_claim (wall : Int) (runId ownerId : String) (duration : Int) :
    Keeps besideLeases (claim wall runId ownerId duration) := by
  refine keeps_ite (keeps_raise _) (keeps_transaction (keeps_read_bind fun state => ?_))
  cases state.runs.get? runId with
  | none => exact keeps_raise _
  | some run =>
    exact keeps_ite (keeps_pure _) (keeps_ite (keeps_pure _) (keeps_ite (keeps_violation _ _)
      (keeps_ite (keeps_violation _ _) (keeps_put_bind _ _ _))))

theorem keeps_renew (context : ExecutionContext) (wall : Int) (runId ownerId : String)
    (duration : Int) : Keeps besideLeases (renew context wall runId ownerId duration) := by
  refine keeps_transaction (keeps_read_bind fun state => ?_)
  cases state.leases.get? runId with
  | none => exact keeps_pure _
  | some old => exact keeps_ite (keeps_pure _) (keeps_ite (keeps_pure _) (keeps_put_bind _ _ _))

theorem keeps_release (context : ExecutionContext) (runId ownerId : String) :
    Keeps besideLeases (release context runId ownerId) := by
  refine keeps_transaction (keeps_read_bind fun state => ?_)
  cases state.leases.get? runId with
  | none => exact keeps_pure _
  | some old => exact keeps_ite (keeps_pure _) (keeps_ite (keeps_pure _) (keeps_put_bind _ _ _))

theorem keeps_requestCancellation (wall : Int) (runId : String) :
    Keeps besideLeases (requestCancellation wall runId) := by
  refine keeps_transaction (keeps_read_bind fun state => ?_)
  cases state.runs.get? runId with
  | none => exact keeps_pure _
  | some run => exact keeps_ite (keeps_pure _) (keeps_ite (keeps_pure _) (keeps_put_bind _ _ _))

theorem readOnly_guard (context : ExecutionContext) (wall : Int) (runId : String) :
    ReadOnly (guard context wall runId) := by
  refine keeps_read_bind fun state => ?_
  cases state.leases.get? runId with
  | none => exact keeps_pure _
  | some lease =>
    cases context.executionOwner with
    | none => exact keeps_pure _
    | some owner => exact keeps_ite (keeps_violation _ _) (keeps_pure _)

theorem readOnly_guardRun (context : ExecutionContext) (wall : Int) (guarded : Option String) :
    ReadOnly (guardRun context wall guarded) := by
  cases guarded with
  | none => exact keeps_pure _
  | some runId => exact readOnly_guard context wall runId

theorem keeps_portWrite (context : ExecutionContext) (wall : Int) (guarded : Option String)
    (update : RunRows → Except PyError RunRows) :
    Keeps besideRuns (portWrite context wall guarded update) :=
  keeps_transaction (keeps_bind ((readOnly_guardRun context wall guarded).keeps _) fun _ =>
    keeps_read_bind fun _ => keeps_ofExcept_bind fun _ => keeps_write fun _ => rfl)

end LeaseStore

/-! ## Approvals -/

namespace SqliteApprovalStore

variable {lib : PythonLibrary} {α γ : Type} {f : SqliteState → γ}

theorem readOnly_fail (code : String) : ReadOnly (fail code : Tx α) := keeps_raise _

theorem readOnly_enabled : ReadOnly enabled :=
  keeps_read_bind fun _ => keeps_ite (readOnly_fail _) (keeps_pure _)

theorem readOnly_now (clock : Int) : ReadOnly (now clock) :=
  keeps_ofExcept_bind fun _ => keeps_pure _

theorem readOnly_load (approvalId : String) : ReadOnly (load lib approvalId) := by
  refine keeps_ofExcept_bind fun _ => keeps_bind readOnly_enabled fun _ =>
    keeps_read_bind fun state => ?_
  cases state.approvals.get? approvalId with
  | none => exact readOnly_fail _
  | some row => exact keeps_ofExcept_bind fun _ => keeps_ite (readOnly_fail _) (keeps_pure _)

theorem readOnly_runState (intent : ApprovalIntent) : ReadOnly (runState lib intent) :=
  keeps_read_bind fun _ => keeps_ite (readOnly_fail _) (keeps_bind (keeps_getRun _) fun _ =>
    keeps_bind (keeps_getRun _) fun _ => keeps_ofExcept_bind fun _ => keeps_pure _)

theorem readOnly_requireOwner (context : ExecutionContext) (wall : Int) (runId : String) :
    ReadOnly (requireOwner context wall runId) := by
  refine keeps_read_bind fun state => ?_
  cases context.executionClaim with
  | none => exact readOnly_fail _
  | some claim =>
    cases state.leases.get? runId with
    | none => exact readOnly_fail _
    | some lease =>
      cases context.executionOwner with
      | none => exact readOnly_fail _
      | some owner => exact keeps_ite (readOnly_fail _) (keeps_pure _)

theorem readOnly_completedReceipt (record : ApprovalRecord lib.sha256) (call : ToolCall) :
    ReadOnly (completedReceipt lib record call) := by
  refine keeps_read_bind fun state => ?_
  cases state.toolReceipts.get? (record.intent.runId, call.id) with
  | none => exact keeps_pure _
  | some receipt =>
    cases state.approvalExecutions.get? record.approvalId with
    | none => exact readOnly_fail _
    | some execution =>
      exact keeps_ofExcept_bind fun _ => keeps_ite (keeps_pure _) (readOnly_fail _)

theorem readOnly_checkCheckpoint (checkpoint : Option ExecutionCheckpoint) (call : ToolCall)
    (intent : ApprovalIntent) : ReadOnly (checkCheckpoint lib checkpoint call intent) := by
  unfold checkCheckpoint
  cases checkpoint.bind (·.pending) with
  | none => exact readOnly_fail _
  | some pending =>
    exact keeps_ite (readOnly_fail _)
      (keeps_ofExcept_bind fun _ => keeps_ite (readOnly_fail _) (keeps_pure _))

theorem readOnly_dispatchRecord (context : ExecutionContext) (wall clock : Int) (runId : String)
    (call : ToolCall) : ReadOnly (dispatchRecord lib context wall clock runId call) := by
  refine keeps_bind readOnly_enabled fun _ => keeps_bind (readOnly_requireOwner _ _ _) fun _ =>
    keeps_ofExcept_bind fun _ => keeps_bind (readOnly_load _) fun record =>
    keeps_bind (keeps_getRun _) fun _ => keeps_bind (readOnly_checkCheckpoint _ _ _) fun _ =>
    keeps_read_bind fun _ => keeps_ite (readOnly_fail _)
      (keeps_bind (readOnly_completedReceipt record call) fun _ => keeps_ite (keeps_pure _) ?_)
  exact keeps_bind (readOnly_runState _) fun _ => keeps_ite (readOnly_fail _)
    (keeps_ite (readOnly_fail _) (keeps_bind (readOnly_now _) fun _ =>
      keeps_ite (readOnly_fail _) (keeps_ite (readOnly_fail _) (keeps_pure _))))

theorem readOnly_checkRequested (intent : ApprovalIntent) (binding : Option Json.Object) :
    ReadOnly (checkRequested intent binding) := by
  cases binding with
  | none => exact keeps_pure _
  | some binding =>
    show ReadOnly (checkBinding intent.toMapping binding)
    induction binding with
    | nil => exact keeps_pure _
    | cons p binding ih =>
      obtain ⟨key, value⟩ := p
      unfold checkBinding
      cases Json.field? intent.toMapping key with
      | none => exact keeps_raise _
      | some stored => exact keeps_ite ih (readOnly_fail _)

theorem readOnly_request (context : ExecutionContext) (wall clock : Int) (runId : String)
    (call : ToolCall) (binding : Option Json.Object) :
    ReadOnly (request lib context wall clock runId call binding) :=
  keeps_transaction (keeps_bind (readOnly_dispatchRecord _ _ _ _ _) fun _ =>
    keeps_bind (readOnly_checkRequested _ _) fun _ => keeps_pure _)

theorem keeps_save (happ : ∀ (s : SqliteState) d, f { s with approvals := d } = f s)
    (record : ApprovalRecord lib.sha256) : Keeps f (save lib record) := by
  refine keeps_ofExcept_bind fun _ => keeps_read_bind fun state => ?_
  cases state.approvals.get? record.approvalId with
  | none => exact keeps_ite (keeps_raise _) (keeps_write fun s => happ s _)
  | some row => exact keeps_write fun s => happ s _

theorem keeps_createRecord (happ : ∀ (s : SqliteState) d, f { s with approvals := d } = f s)
    (clock : Int) (intent : ApprovalIntent) (expiresAtMs : Int)
    (approvalId : String) :
    Keeps f (createRecord lib clock intent expiresAtMs approvalId) := by
  refine keeps_bind (readOnly_enabled.keeps _) fun _ =>
    keeps_bind ((readOnly_runState _).keeps _) fun run => keeps_ite (keeps_raise _)
      (keeps_ite (keeps_raise _) (keeps_read_bind fun state => ?_))
  cases state.approvals.get? approvalId with
  | some row =>
    exact keeps_bind ((readOnly_load _).keeps _) fun _ => keeps_ofExcept_bind fun _ =>
      keeps_ofExcept_bind fun _ => keeps_ite (keeps_raise _) (keeps_pure _)
  | none =>
    exact keeps_bind ((readOnly_now _).keeps _) fun _ => keeps_ite (keeps_raise _)
      (keeps_ofExcept_bind fun _ => keeps_bind (keeps_save happ _) fun _ => keeps_pure _)

theorem keeps_create (happ : ∀ (s : SqliteState) d, f { s with approvals := d } = f s)
    (clock : Int) (intent : ApprovalIntent) (expiresAtMs : Int) :
    Keeps f (create lib clock intent expiresAtMs) :=
  keeps_ofExcept_bind fun _ => keeps_ofExcept_bind fun _ =>
    keeps_transaction (keeps_createRecord happ _ _ _ _)

theorem keeps_refreshRecord (happ : ∀ (s : SqliteState) d, f { s with approvals := d } = f s)
    (record : ApprovalRecord lib.sha256) (clock : Int) :
    Keeps f (refreshRecord lib record clock) := by
  refine keeps_bind ((readOnly_runState _).keeps _) fun run => ?_
  cases refreshedStatus run record.expiresAtMs clock with
  | none => exact keeps_pure _
  | some status =>
    exact keeps_ite (keeps_ofExcept_bind fun _ => keeps_bind (keeps_save happ _) fun _ => keeps_pure _)
      (keeps_pure _)

theorem keeps_refresh (happ : ∀ (s : SqliteState) d, f { s with approvals := d } = f s)
    (clock : Int) (approvalId : String) :
    Keeps f (refresh lib clock approvalId) :=
  keeps_transaction (keeps_bind ((readOnly_load _).keeps _) fun _ =>
    keeps_bind ((readOnly_now _).keeps _) fun _ =>
    keeps_bind (keeps_refreshRecord happ _ _) fun _ => keeps_pure _)

theorem keeps_decideRecord (happ : ∀ (s : SqliteState) d, f { s with approvals := d } = f s)
    (hsched : ∀ (s : SqliteState) d r,
      f { s with recoverySchedule := d, recoveryScheduleRevision := r } = f s)
    (clock : Int) (command : ApprovalDecisionCommand) (principalId : String)
    (record : ApprovalRecord lib.sha256) :
    Keeps f (decideRecord lib clock command principalId record) := by
  refine keeps_ofExcept_bind fun _ => keeps_ite (keeps_raise _) ?_
  refine keeps_bind ((readOnly_now _).keeps _) fun _ =>
    keeps_bind (keeps_refreshRecord happ _ _) fun _ => keeps_ite (keeps_pure _)
      (keeps_ite (keeps_pure _) ?_)
  exact keeps_ofExcept_bind fun _ => keeps_bind (keeps_save happ _) fun _ =>
    keeps_bind (keeps_wake hsched) fun _ => keeps_pure _

theorem keeps_decide (happ : ∀ (s : SqliteState) d, f { s with approvals := d } = f s)
    (hsched : ∀ (s : SqliteState) d r,
      f { s with recoverySchedule := d, recoveryScheduleRevision := r } = f s)
    (clock : Int) (command : ApprovalDecisionCommand) (principalId : String)
    (allowed : Option Bool) : Keeps f (decide lib clock command principalId allowed) := by
  refine keeps_ofExcept_bind fun _ => ?_
  cases allowed with
  | none => exact keeps_raise _
  | some answer =>
    cases answer with
    | false => exact keeps_raise _
    | true =>
      refine keeps_transaction (keeps_bind ((readOnly_load _).keeps _) fun record => ?_)
      cases record.decisionAudit with
      | none => exact keeps_decideRecord happ hsched _ _ _ _
      | some audit =>
        exact keeps_ite (keeps_ite (keeps_raise _) (keeps_pure _)) (keeps_decideRecord happ hsched _ _ _ _)

theorem keeps_commitNewCheckpoint (intent : ApprovalIntent)
    (checkpoint : ExecutionCheckpoint)
    (h : ∀ (s : SqliteState) d, f { s with runs := d } = f s) :
    Keeps f (commitNewCheckpoint intent checkpoint) := by
  refine keeps_bind (keeps_getRun _) fun _ => keeps_ite (keeps_pure _) ?_
  exact keeps_ite (keeps_violation _ _) (keeps_bind (keeps_getRun _) fun _ =>
    keeps_ite (keeps_violation _ _) (keeps_ite (keeps_violation _ _) (keeps_write fun s => h s _)))

theorem keeps_prepareTransaction (happ : ∀ (s : SqliteState) d, f { s with approvals := d } = f s)
    (hruns : ∀ (s : SqliteState) d, f { s with runs := d } = f s)
    (context : ExecutionContext) (wall clock later : Int)
    (checkpoint : ExecutionCheckpoint) (pending : PendingTool) (intent : ApprovalIntent)
    (expiresAtMs : Int) (approvalId : String) :
    Keeps f (prepareTransaction lib context wall clock later checkpoint pending
      intent expiresAtMs approvalId) := by
  refine keeps_transaction (keeps_bind ((readOnly_requireOwner _ _ _).keeps _) fun _ =>
    keeps_read_bind fun _ => keeps_ite (keeps_raise _) ?_)
  exact keeps_bind (keeps_createRecord happ _ _ _ _) fun _ =>
    keeps_bind (keeps_commitNewCheckpoint _ _ hruns) fun _ =>
      keeps_bind ((readOnly_now _).keeps _) fun _ => keeps_bind (keeps_refreshRecord happ _ _) fun _ =>
        keeps_bind ((readOnly_completedReceipt _ _).keeps _) fun _ => keeps_pure _

theorem keeps_prepare (happ : ∀ (s : SqliteState) d, f { s with approvals := d } = f s)
    (hruns : ∀ (s : SqliteState) d, f { s with runs := d } = f s)
    (context : ExecutionContext) (wall clock later : Int)
    (checkpoint : ExecutionCheckpoint) (intent : ApprovalIntent) (expiresAtMs : Int) :
    Keeps f (prepare lib context wall clock later checkpoint intent expiresAtMs) := by
  unfold prepare
  cases checkpoint.pending with
  | none => exact keeps_raise _
  | some pending =>
    refine keeps_ofExcept_bind fun _ => keeps_ite (keeps_raise _) (keeps_ofExcept_bind fun _ =>
      keeps_ite (keeps_raise _) (keeps_ofExcept_bind fun _ => keeps_bind
        (keeps_prepareTransaction happ hruns _ _ _ _ _ _ _ _ _) fun p => keeps_ite (keeps_pure _) ?_))
    cases p.1.status <;> exact keeps_pure _

end SqliteApprovalStore

/-! ## Tools -/

namespace ToolIdempotency

open SqliteApprovalStore

variable {lib : PythonLibrary} {γ : Type} {f : SqliteState → γ}

theorem readOnly_dispatchApproval (context : ExecutionContext) (wall clock : Int) (runId : String)
    (call : ToolCall) (approvalId : Option String) :
    ReadOnly (dispatchApproval lib context wall clock runId call approvalId) := by
  cases approvalId with
  | none => exact keeps_pure _
  | some id => exact keeps_map _ (readOnly_dispatchRecord _ _ _ _ _)

theorem keeps_claimCall
    (hcalls : ∀ (s : SqliteState) c e, f { s with claims := c, approvalExecutions := e } = f s)
    (runId : String) (call : ToolCall)
    (record : Option (ApprovalRecord lib.sha256)) :
    Keeps f (claimCall lib runId call record) := by
  cases record with
  | none => exact keeps_bind (keeps_write fun s => hcalls s _ _) fun _ => keeps_pure _
  | some record =>
    refine keeps_read_bind fun state => ?_
    cases state.leases.get? runId with
    | none => exact keeps_raise _
    | some lease =>
      exact keeps_ofExcept_bind fun _ => keeps_bind (keeps_write fun s => hcalls s _ _) fun _ =>
        keeps_pure _

theorem keeps_executeBegin
    (hcalls : ∀ (s : SqliteState) c e, f { s with claims := c, approvalExecutions := e } = f s)
    (context : ExecutionContext) (wall clock : Int) (runId : String)
    (call : ToolCall) : Keeps f (executeBegin lib context wall clock runId call) := by
  refine keeps_transaction (keeps_read_bind fun state =>
    keeps_bind ((readOnly_dispatchApproval _ _ _ _ _ _).keeps _) fun record => ?_)
  cases state.toolReceipts.get? (runId, call.id) with
  | some receipt => exact keeps_ite (keeps_raise _) (keeps_pure _)
  | none => exact keeps_ite (keeps_violation _ _) (keeps_claimCall hcalls _ _ _)

theorem keeps_completeEntry
    (hcalls : ∀ (s : SqliteState) c e, f { s with claims := c, approvalExecutions := e } = f s)
    (context : ExecutionContext) (wall : Int) (runId : String)
    (result : ToolHandlerResult) (approval : Option (String × ApprovalExecution)) :
    Keeps f (completeEntry context wall runId result approval) := by
  cases approval with
  | none => exact keeps_pure _
  | some p =>
    exact keeps_bind ((readOnly_requireOwner _ _ _).keeps _) fun _ => keeps_read_bind fun _ =>
      keeps_ite (keeps_violation _ _) (keeps_write fun s => hcalls s _ _)

theorem keeps_executeComplete
    (hcalls : ∀ (s : SqliteState) c e, f { s with claims := c, approvalExecutions := e } = f s)
    (hreceipts : ∀ (s : SqliteState) d, f { s with toolReceipts := d } = f s)
    (context : ExecutionContext) (wall : Int) (runId : String)
    (call : ToolCall) (approval : Option (String × ApprovalExecution))
    (result : ToolHandlerResult) :
    Keeps f (executeComplete context wall runId call approval result) :=
  keeps_ite (keeps_violation _ _) (keeps_transaction (keeps_bind (keeps_completeEntry hcalls _ _ _ _ _)
    fun _ => keeps_bind (keeps_saveToolReceipt hreceipts) fun _ =>
      keeps_read_bind fun _ => keeps_ite (keeps_raise _) (keeps_write fun s => hcalls s _ _)))

theorem readOnly_reconcileEntry (wall : Int) (runId : String) (evidence : Evidence)
    (approvalId : String) : ReadOnly (reconcileEntry lib wall runId evidence approvalId) := by
  refine keeps_bind (readOnly_load _) fun record => keeps_read_bind fun state =>
    keeps_ite (keeps_raise _) (keeps_ite (keeps_raise _) ?_)
  cases state.approvalExecutions.get? approvalId with
  | none => exact keeps_raise _
  | some entry => exact keeps_ofExcept_bind fun _ => keeps_ite (keeps_raise _) (keeps_pure _)

theorem readOnly_reconcileApproval (wall : Int) (runId : String) (evidence : Evidence)
    (approvalId : Option String) :
    ReadOnly (reconcileApproval lib wall runId evidence approvalId) := by
  cases approvalId with
  | none => exact keeps_pure _
  | some id => exact keeps_bind (readOnly_reconcileEntry _ _ _ _) fun _ => keeps_pure _

theorem keeps_settleEntry
    (hcalls : ∀ (s : SqliteState) c e, f { s with claims := c, approvalExecutions := e } = f s)
    (evidence : Evidence) (approval : Option (String × ApprovalExecution)) :
    Keeps f (settleEntry evidence approval) := by
  cases approval with
  | none => exact keeps_pure _
  | some p => exact keeps_write fun s => hcalls s _ _

theorem keeps_storeEvidence (hreceipts : ∀ (s : SqliteState) d, f { s with toolReceipts := d } = f s)
    (runId : String) (call : ToolCall) (evidence : Evidence) :
    Keeps f (storeEvidence runId call evidence) := by
  cases evidence with
  | result r => exact keeps_saveToolReceipt hreceipts
  | notExecuted => exact keeps_pure _

theorem keeps_reconcileTool
    (hcalls : ∀ (s : SqliteState) c e, f { s with claims := c, approvalExecutions := e } = f s)
    (hreceipts : ∀ (s : SqliteState) d, f { s with toolReceipts := d } = f s)
    (hsched : ∀ (s : SqliteState) d r,
      f { s with recoverySchedule := d, recoveryScheduleRevision := r } = f s)
    (wall : Int) (runId : String) (call : ToolCall) (evidence : Evidence) :
    Keeps f (reconcileTool lib wall runId call evidence) :=
  keeps_transaction (keeps_read_bind fun _ => keeps_ite (keeps_raise _)
    (keeps_bind ((readOnly_reconcileApproval _ _ _ _).keeps _) fun _ =>
      keeps_bind (keeps_storeEvidence hreceipts _ _ _) fun _ => keeps_bind (keeps_settleEntry hcalls _ _) fun _ =>
        keeps_bind (keeps_write fun s => hcalls s _ _) fun _ => keeps_wake hsched))

end ToolIdempotency

/-! ## Events -/

open ToolIdempotency

/-- The event is about an execution in flight. -/
def SystemOp.ofExecution : SystemOp → Bool
  | .store _ => false
  | _ => true

/-- What happens to an execution touches no Run, lease or approval. -/
theorem grantRows_step (lib : PythonLibrary) (state : SystemState) {event : Int × SystemOp}
    (h : event.2.ofExecution = true) :
    grantRows (state.step lib event).storage = grantRows state.storage := by
  obtain ⟨wall, op⟩ := event
  unfold SystemState.step
  cases op with
  | store op => cases h
  | begin context clock run call =>
    cases hbegin : executeBegin lib context wall clock run call state.storage with
    | error e => simp only [hbegin]
    | ok p =>
      obtain ⟨begun, storage⟩ := p
      have hkept : grantRows storage = grantRows state.storage :=
        keeps_executeBegin (fun _ _ _ => rfl) context wall clock run call _ _ _ hbegin
      cases begun <;> simpa only [hbegin] using hkept
  | start flight =>
    cases hflight : state.flightIn flight .claimed with
    | none => simp only [hflight]
    | some f =>
      simp only [hflight]
      rfl
  | complete flight result =>
    cases hflight : state.flightIn flight .started with
    | none => simp only [hflight]
    | some f =>
      simp only [hflight]
      exact (keeps_executeComplete (fun _ _ _ => rfl) (fun _ _ => rfl) _ _ _ _ _ _).left_eq _
  | crash flight => rfl

theorem leases_of_dispatchRows {α : Type} {m : Tx α} (h : Keeps dispatchRows m)
    (s : SqliteState) : (m.left s).leases = s.leases :=
  congrArg (fun rows => rows.2.2.2.1) (h.left_eq s)

variable {s s' : SqliteState}

theorem leases_of_grantRows (h : grantRows s' = grantRows s) :
    s'.leases = s.leases := congrArg (fun rows => rows.2.2.1) h

theorem approvals_of_grantRows (h : grantRows s' = grantRows s) :
    s'.approvals = s.approvals := congrArg (fun rows => rows.2.2.2) h

theorem approvals_of_besideLeases (h : besideLeases s' = besideLeases s) :
    s'.approvals = s.approvals := by
  have happrovals := congrArg SqliteState.approvals h
  exact happrovals

theorem version_of_dispatchRows {α : Type} {m : Tx α} (h : Keeps dispatchRows m)
    (s : SqliteState) : (m.left s).version = s.version :=
  congrArg (fun rows => rows.1) (h.left_eq s)

theorem version_of_besideLeases {α : Type} {m : Tx α} (h : Keeps besideLeases m)
    (s : SqliteState) : (m.left s).version = s.version := by
  have hversion := congrArg SqliteState.version (h.left_eq s)
  exact hversion

theorem version_of_grantRows (h : grantRows s' = grantRows s) :
    s'.version = s.version := congrArg (fun rows => rows.1) h

theorem version_apply (lib : PythonLibrary) (wall : Int) (s : SqliteState) (op : StoreOp) :
    (op.apply lib wall s).version = s.version := by
  cases op with
  | create clock intent expires =>
    exact version_of_dispatchRows (SqliteApprovalStore.keeps_create (fun _ _ => rfl) _ _ _) s
  | prepare =>
    exact version_of_dispatchRows (SqliteApprovalStore.keeps_prepare (fun _ _ => rfl) (fun _ _ => rfl) _ _ _ _ _ _ _) s
  | decide =>
    exact version_of_dispatchRows (SqliteApprovalStore.keeps_decide (fun _ _ => rfl) (fun _ _ _ => rfl) _ _ _ _) s
  | refresh clock approvalId =>
    exact version_of_dispatchRows (SqliteApprovalStore.keeps_refresh (fun _ _ => rfl) _ _) s
  | request =>
    exact version_of_dispatchRows
      ((SqliteApprovalStore.readOnly_request _ _ _ _ _ _).keeps _) s
  | claimLease run owner duration =>
    exact version_of_besideLeases (LeaseStore.keeps_claim wall run owner duration) s
  | renewLease context run owner duration =>
    exact version_of_besideLeases (LeaseStore.keeps_renew context wall run owner duration) s
  | releaseLease context run owner =>
    exact version_of_besideLeases (LeaseStore.keeps_release context run owner) s
  | requestCancellation run =>
    exact version_of_besideLeases (LeaseStore.keeps_requestCancellation wall run) s
  | portWrite context guarded update =>
    have hkept := (LeaseStore.keeps_portWrite context wall guarded update).left_eq s
    have hversion := congrArg SqliteState.version hkept
    exact hversion
  | reconcileTool run call evidence =>
    exact version_of_grantRows ((keeps_reconcileTool (fun _ _ _ => rfl) (fun _ _ => rfl)
      (fun _ _ _ => rfl) wall run call evidence).left_eq s)

/-- No event changes the format of the storage. -/
theorem version_step (lib : PythonLibrary) (state : SystemState) (event : Int × SystemOp) :
    (state.step lib event).storage.version = state.storage.version := by
  obtain ⟨wall, op⟩ := event
  cases op with
  | store op => exact version_apply lib wall state.storage op
  | begin => exact version_of_grantRows (grantRows_step lib state (by rfl))
  | start flight => exact version_of_grantRows (grantRows_step lib state (by rfl))
  | complete flight result => exact version_of_grantRows (grantRows_step lib state (by rfl))
  | crash flight => exact version_of_grantRows (grantRows_step lib state (by rfl))

end Purra
