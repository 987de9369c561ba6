import Purra.RunMemory.Journal

/-!
# The run repository

`_InMemoryRunRepository` and `_apply_commit` of `purra/adapters/memory.py`.

A commit writes the parts of a record one after the other, with checks in between, so
`applyCommit` is an action on the record: what it wrote before a check that fails stays
written.  `onRun` lifts such an action to the tables.
-/

namespace Purra.RunMemory

open Contracts Output

section

variable (host : Host)

/-! ## `_apply_commit` -/

/-- The step an update is about, as the update leaves it. -/
def updated (update : TaskStepUpdate) (step : TaskStep) : TaskStep :=
  { step with
    status := update.status
    resultSummary := update.resultSummary
    error := update.error }

/-- The loop over the record's steps for one update. -/
def applyUpdate (update : TaskStepUpdate) : Action StoredRun PyError Unit := do
  let record ← Action.read
  match findFirst (fun step => step.id = update.stepId) record.steps with
  | some (index, step) =>
    Action.write fun record =>
      { record with steps := record.steps.set index (updated update step) }
  | none => Action.raise (violation
      ("task step " ++ host.py.repr (.str update.stepId.text) ++ " does not exist"))

/-- `replace_plan` takes the place of the plan and of the steps. -/
def StoredRun.replaced (record : StoredRun) (commit : RunCommit) : StoredRun :=
  match commit.replacePlan with
  | none => record
  | some plan => { record with executionPlan := some plan, steps := plan.steps }

/-- The plan is built again around the updated steps. -/
def refreshPlan (commit : RunCommit) : Action StoredRun PyError Unit := do
  let record ← Action.read
  match record.executionPlan with
  | none => pure ()
  | some plan =>
    if commit.stepUpdates = [] then pure ()
    else do
      let plan ← Action.ofExcept
        (ExecutionPlan.of plan.title record.steps plan.goal (some plan.workStepIds))
      Action.write fun record => { record with executionPlan := some plan }

/-- The status and the results of a terminal commit. -/
def StoredRun.terminated (record : StoredRun) (commit : RunCommit) : StoredRun :=
  match commit.terminalStatus with
  | none => record
  | some status =>
    { record with
      status
      finalResponse := commit.finalResponse
      validatedResult := commit.validatedResult
      error := commit.error }

/-- The checkpoint of a commit, when it may take the place of the stored one. -/
def installCheckpoint (commit : RunCommit) : Action StoredRun PyError Unit :=
  match commit.executionCheckpoint with
  | none => pure ()
  | some checkpoint => do
    let record ← Action.read
    Action.ofExcept
      (acceptCheckpoint host.py host.loads record.executionCheckpoint checkpoint)
    Action.write fun record =>
      { record with
        executionCheckpoint := some checkpoint
        checkpointAttemptCount := record.modelAttemptIds.length }

/-- `_apply_commit`. -/
def applyCommit (commit : RunCommit) : Action StoredRun PyError Unit := do
  let record ← Action.read
  if record.status ≠ .running then
    Action.raise (violation "terminal run cannot accept another commit")
  else do
    Action.write (·.replaced commit)
    commit.stepUpdates.forM (applyUpdate host)
    refreshPlan commit
    Action.write (·.terminated commit)
    installCheckpoint host commit
    Action.write fun record => { record with events := record.events ++ commit.events }

/-- An action on the record of a Run. -/
def onRun (runId : String) {α : Type} (m : Action StoredRun PyError α) :
    Action RunState PyError α := fun s =>
  match s.runs.get? runId with
  | none => (.error (runNotFound host runId), s)
  | some run => ((m run).1, { s with runs := s.runs.set runId (m run).2 })

/-! ## The methods -/

/-- `next_run_id`. -/
def nextRunId : Action RunState PyError String := do
  Action.write fun s => { s with runCount := s.runCount + 1 }
  let s ← Action.read
  pure ("memory-run-" ++ toString s.runCount)

/-- `params.requested_run_id or self._state.next_run_id()`. -/
def chooseRunId (params : RunCreateParams) : Action RunState PyError String :=
  match params.requestedRunId with
  | some runId => pure runId
  | none => nextRunId

/-- The checks of `_scoped_run_params` on the scope of a child Run. -/
def checkChildScope (writer : Writer) (s : RunState) (runId rootRunId : String)
    (params : RunCreateParams) : Except PyError Unit := do
  let root ← requireRun host s rootRunId
  rejectIf (root.scopeId rootRunId ≠ rootRunId)
    (.contractViolation "Run scope root is not a Root Run" "run_scope_conflict" [])
  match params.parentRunId with
  | none =>
    .error (.contractViolation "Child Run scope requires parent_run_id" "run_scope_conflict" [])
  | some parentRunId => do
    let parent ← requireRun host s parentRunId
    rejectIf (parent.scopeId parentRunId ≠ rootRunId)
      (.contractViolation "Child Run parent belongs to a different Root scope"
        "run_scope_conflict" [])
    match writer.authority, params.leaseEpoch with
    | some authority, some epoch =>
      authority 0 runId (params.leaseOwnerId.map fun owner => (owner, epoch))
    | _, _ => .ok ()

/-- The checks of `_scoped_run_params`. -/
def checkScope (writer : Writer) (s : RunState) (runId rootRunId : String)
    (params : RunCreateParams) : Except PyError Unit :=
  if rootRunId ≠ runId then checkChildScope host writer s runId rootRunId params
  else rejectIf (params.parentRunId ≠ none)
    (.contractViolation "Root Run cannot have parent_run_id" "run_scope_conflict" [])

/-- `_scoped_run_params`. -/
def scopedRunParams (writer : Writer) (s : RunState) (runId : String) (params : RunCreateParams) :
    Except PyError RunCreateParams := do
  checkScope host writer s runId (params.rootRunId.getD runId) params
  .ok { params with
    rootRunId := some (params.rootRunId.getD runId)
    agentId := some (params.agentId.getD runId) }

/-- `begin`: the id of the new Run, and its first event. -/
def begin (writer : Writer) (params : RunCreateParams) (startedEvent : AgentEvent) :
    Action RunState PyError (String × AgentEvent) := do
  let runId ← chooseRunId params
  let s ← Action.read
  if (s.runs.get? runId).isSome = true then
    Action.raise (.contractViolation "requested Run id already exists" "run_identity_conflict" [])
  else do
    let event := { startedEvent with runId := some runId }
    let scopedParams ← Action.ofExcept (scopedRunParams host writer s runId params)
    Action.write fun s =>
      { s with runs := s.runs.set runId { params := scopedParams, events := [event] } }
    pure (runId, event)

/-- The checkpoint of a commit belongs to the Run it is committed to. -/
def checkCheckpointRun (runId : String) (commit : RunCommit) : Except PyError Unit :=
  match commit.executionCheckpoint with
  | none => .ok ()
  | some checkpoint =>
    rejectIf (checkpoint.fields.runId.text ≠ runId)
      (.contractViolation "Agent execution checkpoint belongs to another Run"
        "agent_execution_checkpoint_conflict" [])

/-- `commit`. -/
def commit (writer : Writer) (runId : String) (commit : RunCommit) :
    Action RunState PyError (List AgentEvent) := do
  Action.ofExcept (validateRunCommitLifecycle commit)
  Action.ofExcept (checkCheckpointRun runId commit)
  let s ← Action.read
  let _ ← Action.ofExcept (requireRunWrite host writer 0 s runId)
  onRun host runId (applyCommit host commit)
  pure commit.events

/-- `append_event` of the run repository. -/
def appendRunEvent (writer : Writer) (runId : String) (event : AgentEvent) :
    Action RunState PyError Unit := do
  let s ← Action.read
  let _ ← Action.ofExcept (requireRunWrite host writer 0 s runId)
  onRun host runId (Action.write fun record => { record with events := record.events ++ [event] })

/-- The check of `reserve_model_attempt` on the attempts of the whole root. -/
def requireAttemptBudget (s : RunState) (runId : String) (run : StoredRun) :
    Except PyError Unit := do
  let rootRunId := run.scopeId runId
  let root ← requireRun host s rootRunId
  rejectIf (root.params.runtimeLimits.maxModelInvocationAttempts ≤
      ((s.scopeRuns rootRunId).map (·.modelAttemptIds.length)).sum)
    (budgetExceeded "Root Run model invocation budget was exceeded" "model_attempts")

/-- `reserve_model_attempt`, which returns the attempts of the Run. -/
def reserveModelAttempt (writer : Writer) (runId invocationId : String) :
    Action RunState PyError Nat := do
  let invocation ← Action.ofExcept (requiredText invocationId "model invocation id")
  let s ← Action.read
  let run ← Action.ofExcept (requireRunWrite host writer 0 s runId)
  if invocation ∈ run.modelAttemptIds then pure run.modelAttemptIds.length
  else do
    Action.ofExcept (requireAttemptBudget host s runId run)
    onRun host runId (Action.write fun record =>
      { record with modelAttemptIds := record.modelAttemptIds ++ [invocation] })
    pure (run.modelAttemptIds.length + 1)

end

end Purra.RunMemory
