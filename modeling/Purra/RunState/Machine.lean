import Purra.RunState.Plans
import Purra.Lib.Run

/-!
# The Run state machine

`purra/run_state.py`: the immutable snapshot of one Run, and the reducers that turn a
snapshot and an event into the next one.

`RunSnapshot.of` is the constructor with the errors it raises; what it lets through is
`SnapshotFields.Valid`, which a `RunSnapshot` carries.  Every reducer rebuilds the
snapshot, so a reducer either returns a valid one or raises.  `RunOperation` names the
reducers, and `RunSnapshot.apply` runs one.
-/

namespace Purra

/-- What the reducers raise. -/
def runViolation (message : String) : PyError :=
  .contractViolation message "contract_violation" []

/-! ## Snapshots -/

/-- The fields of `RunSnapshot` that a reducer reads or writes. -/
structure SnapshotFields where
  runId : RequiredText
  title : RequiredText
  goal : Option RequiredText
  status : RunStatus
  steps : List TaskStep
  workStepIds : List RequiredText
  finalResponse : String := ""
  error : Option RequiredText := none
  deriving DecidableEq

/-- The steps that are running. -/
def runningSteps (steps : List TaskStep) : List TaskStep :=
  steps.filter fun step => step.status = .running

/-- `status_by_id.get(id)`. -/
def statusById (steps : List TaskStep) (id : RequiredText) : Option StepStatus :=
  (steps.find? fun step => step.id = id).map (·.status)

/-- What `RunSnapshot.__post_init__` lets through. -/
structure SnapshotFields.Valid (fields : SnapshotFields) : Prop where
  ids_nodup : (stepIds fields.steps).Nodup
  one_running : (runningSteps fields.steps).length ≤ 1
  ready : ∀ step ∈ runningSteps fields.steps, ∀ dependency ∈ step.dependsOn,
    statusById fields.steps dependency = some .done
  settled : fields.status.terminal = true → runningSteps fields.steps = []
  work_known : ∀ id ∈ fields.workStepIds, id ∈ stepIds fields.steps

/-- `RunSnapshot`. -/
structure RunSnapshot extends SnapshotFields where
  valid : toSnapshotFields.Valid
  deriving DecidableEq

/-- `RunSnapshot.__post_init__`. -/
def RunSnapshot.of (fields : SnapshotFields) : Except PyError RunSnapshot :=
  if hids : ¬ (stepIds fields.steps).Nodup then
    .error (.valueError "run snapshot step ids must be unique")
  else if hone : 1 < (runningSteps fields.steps).length then
    .error (.valueError "a Run may execute only one plan transition at a time")
  else if hready : ¬ ∀ step ∈ runningSteps fields.steps, ∀ dependency ∈ step.dependsOn,
      statusById fields.steps dependency = some .done then
    .error (.valueError "a running step requires all Planner dependencies to be done")
  else if hsettled : fields.status.terminal = true ∧ runningSteps fields.steps ≠ [] then
    .error (.valueError "terminal run snapshot cannot have a running step")
  else if hwork : ¬ ∀ id ∈ fields.workStepIds, id ∈ stepIds fields.steps then
    .error (.valueError "run snapshot work_step_ids must name known steps")
  else
    .ok ⟨fields, not_not.1 hids, not_lt.1 hone, not_not.1 hready,
      fun h => not_not.1 fun hne => hsettled ⟨h, hne⟩, not_not.1 hwork⟩

/-- The constructor returns what it was given, or raises `ValueError`. -/
theorem RunSnapshot.of_cases (fields : SnapshotFields) :
    (∃ h : fields.Valid, RunSnapshot.of fields = .ok ⟨fields, h⟩) ∨
      ¬ fields.Valid ∧ ∃ message, RunSnapshot.of fields = .error (.valueError message) := by
  unfold RunSnapshot.of
  split
  · rename_i h
    exact Or.inr ⟨fun hv => h hv.ids_nodup, _, rfl⟩
  split
  · rename_i h
    exact Or.inr ⟨fun hv => not_lt.2 hv.one_running h, _, rfl⟩
  split
  · rename_i h
    exact Or.inr ⟨fun hv => h hv.ready, _, rfl⟩
  split
  · rename_i h
    exact Or.inr ⟨fun hv => h.2 (hv.settled h.1), _, rfl⟩
  split
  · rename_i h
    exact Or.inr ⟨fun hv => h hv.work_known, _, rfl⟩
  · rename_i hids hone hready hsettled hwork
    exact Or.inl ⟨⟨not_not.1 hids, not_lt.1 hone, not_not.1 hready,
      fun h => not_not.1 fun hne => hsettled ⟨h, hne⟩, not_not.1 hwork⟩, rfl⟩

theorem RunSnapshot.of_eq_ok {fields : SnapshotFields} {state : RunSnapshot} :
    RunSnapshot.of fields = .ok state ↔ state.toSnapshotFields = fields := by
  rcases RunSnapshot.of_cases fields with ⟨hv, h⟩ | ⟨hv, message, h⟩
  · rw [h]
    constructor
    · intro heq
      cases heq
      rfl
    · rintro rfl
      rfl
  · rw [h]
    refine iff_of_false (fun heq => by cases heq) ?_
    rintro rfl
    exact hv state.valid

namespace RunSnapshot

/-- `terminal`. -/
def terminal (state : RunSnapshot) : Bool := state.status.terminal

/-- `execution_plan`. -/
def executionPlan (state : RunSnapshot) : Except PyError (Option ExecutionPlan) :=
  if state.steps = [] then .ok none
  else do
    let plan ← ExecutionPlan.of state.title state.steps state.goal (some state.workStepIds)
    .ok (some plan)

end RunSnapshot

/-- `TaskStepUpdate`. -/
structure TaskStepUpdate where
  stepId : RequiredText
  status : StepStatus
  resultSummary : Option RequiredText
  error : Option RequiredText
  deriving DecidableEq

/-- `RunTransition`: pure reducer output. -/
structure RunTransition where
  before : RunSnapshot
  after : RunSnapshot
  stepUpdates : List TaskStepUpdate := []

/-- `changed`. -/
def RunTransition.changed (transition : RunTransition) : Bool :=
  decide (transition.before ≠ transition.after)

/-- `RunTransition.__post_init__`. -/
def RunTransition.of (before after : RunSnapshot) (stepUpdates : List TaskStepUpdate) :
    Except PyError RunTransition :=
  if before.runId ≠ after.runId then
    .error (.valueError "run transition cannot change run id")
  else .ok ⟨before, after, stepUpdates⟩

namespace RunStateMachine

/-! ## Steps that change -/

/-- `_unchanged`. -/
def unchanged (state : RunSnapshot) : Except PyError RunTransition := .ok ⟨state, state, []⟩

/-- `_with_step_changes`. -/
def withStepChanges (state : RunSnapshot) (changes : List (Nat × TaskStep))
    (status : Option RunStatus := none) (finalResponse : Option String := none)
    (error : Option RequiredText := none) : Except PyError RunTransition := do
  let after ← RunSnapshot.of { state.toSnapshotFields with
    steps := setAll state.steps changes
    status := status.getD state.status
    finalResponse := finalResponse.getD state.finalResponse
    error := error.or state.error }
  RunTransition.of state after (changes.map fun change =>
    ⟨change.2.id, change.2.status, change.2.resultSummary, change.2.error⟩)

/-- The first step that is running and meets `p`. -/
def runningStep (p : TaskStep → Bool) (steps : List TaskStep) : Option (Nat × TaskStep) :=
  findFirst (fun step => step.status = .running && p step) steps

/-- `_next_incomplete_index`. -/
def nextIncomplete (steps : List TaskStep) : Option (Nat × TaskStep) :=
  findFirst (fun step => !step.status.finished) steps

/-- A step that has started. -/
def start (step : TaskStep) : TaskStep := { step with status := .running }

/-- A step that ended, with the summary it had or else the one given. -/
def conclude (status : StepStatus) (summary : RequiredText) (step : TaskStep) : TaskStep :=
  { step with status, resultSummary := step.resultSummary.or (some summary) }

/-! ## Opening a Run -/

/-- `_initial_step`. -/
def initialStep (step : TaskStep) : TaskStep :=
  { step with
    status := if step.status = .done then .done else .pending
    resultSummary := if step.status = .done then step.resultSummary else none
    error := none }

/-- `_validate_step_execution_contract`. -/
def validateStepExecutionContract (step : TaskStep) : Except PyError Unit :=
  if step.type = .confirm then
    .error (runViolation "confirm steps are owned by the host approval policy")
  else if step.type = .read ∧ step.executor ≠ .tool then
    .error (runViolation "read step must use the tool executor")
  else if step.executor = .tool ∧ step.suggestedTools.length ≠ 1 then
    .error (runViolation "tool step requires exactly one expected tool")
  else if step.executor = .model ∧ step.suggestedTools ≠ [] then
    .error (runViolation "model step cannot grant tool access")
  else .ok ()

/-- The steps with the first runnable one started. -/
def startFirst (steps : List TaskStep) : List TaskStep :=
  match findFirst (fun step => step.status ≠ .done && step.type ≠ .confirm) steps with
  | none => steps
  | some (index, step) => steps.set index (start step)

/-- The title of a Run without a plan. -/
def defaultTitle : RequiredText := .lit "To-dos"

/-- `initialize`. -/
def initializeRun (runId : RequiredText) (plan : Option ExecutionPlan)
    (title : RequiredText := defaultTitle) : Except PyError RunSnapshot :=
  match plan with
  | none =>
    RunSnapshot.of { runId, title, goal := none, status := .running, steps := [],
                     workStepIds := publicStepIds [] }
  | some plan => do
    let steps := plan.steps.map initialStep
    steps.forM validateStepExecutionContract
    RunSnapshot.of { runId, title := plan.title, goal := plan.goal, status := .running,
                     steps := startFirst steps, workStepIds := plan.workStepIds }

/-! ## Revising the plan -/

/-- `f"{base}-{suffix}"`. -/
def suffixed (base : RequiredText) (suffix : Nat) : RequiredText :=
  .numbered (base.text ++ "-")
    (by
      intro c hc
      rw [String.toList_append, List.head?_append] at hc
      cases hb : base.text.toList.head? with
      | none =>
        rw [hb, Option.none_or] at hc
        cases hc
        rfl
      | some d =>
        rw [hb, Option.some_or, Option.mem_some_iff] at hc
        have hd : d ∈ (strip base.text).toList.head? := by
          rw [base.stripped]
          exact hb
        exact hc ▸ head_strip base.text d hd)
    suffix

/-- The loop of `_unique_step_id`, with the number of suffixes it may still skip. -/
def freeSuffix (base : RequiredText) (used : List RequiredText) : Nat → Nat → RequiredText
  | 0, suffix => suffixed base suffix
  | fuel + 1, suffix =>
    if suffixed base suffix ∈ used then freeSuffix base used fuel (suffix + 1)
    else suffixed base suffix

/-- `_unique_step_id`. -/
def uniqueStepId (base : RequiredText) (used : List RequiredText) : RequiredText :=
  if base ∉ used then base else freeSuffix base used used.length 2

/-- The finished steps, which a revision keeps. -/
def history (state : RunSnapshot) : List TaskStep :=
  state.steps.filter (·.status.finished)

/-- The step a revision adds when the new plan leaves nothing to do. -/
def respondStep (used : List RequiredText) : TaskStep where
  id := uniqueStepId (.lit "respond") used
  title := .lit "Respond"
  type := .review
  executor := .model

/-- The steps of the new plan that are still to be done. -/
def future (state : RunSnapshot) (plan : ExecutionPlan) : List TaskStep :=
  let historyIds := stepIds (history state)
  let future := plan.steps.filter fun step => step.id ∉ historyIds
  if future = [] then [respondStep historyIds] else future

/-- The running step with an id, if there is one. -/
def currentFuture (state : RunSnapshot) (id : RequiredText) : Option TaskStep :=
  (runningSteps state.steps).find? fun step => step.id = id

/-- The running step is in the new plan. -/
def preservesRunningStep (state : RunSnapshot) (plan : ExecutionPlan) : Bool :=
  (future state plan).any fun step => (currentFuture state step.id).isSome

/-- A step of the revised future: the dependencies the new plan gave it, and the state of the
running step it continues. -/
def continueStep (state : RunSnapshot) (plan : ExecutionPlan) (original step : TaskStep) :
    TaskStep :=
  let current := currentFuture state step.id
  { step with
    dependsOn := original.dependsOn
    depends_nodup := original.depends_nodup
    status :=
      match current with
      | some running => running.status
      | none => if preservesRunningStep state plan then .pending else step.status
    resultSummary := (current.map (·.resultSummary)).getD step.resultSummary
    error := (current.map (·.error)).getD step.error }

/-- The comprehension over the revised future, which looks each step up among the planned ones. -/
def restoreStep (state : RunSnapshot) (plan : ExecutionPlan) (step : TaskStep) :
    Except PyError TaskStep :=
  match (future state plan).find? fun original => original.id = step.id with
  | none => .error (.keyError step.id.text)
  | some original => .ok (continueStep state plan original step)

/-- `revise_plan`. -/
def revisePlan (state : RunSnapshot) (plan : ExecutionPlan) : Except PyError RunSnapshot :=
  if state.terminal then .error (runViolation "cannot revise a terminal run plan")
  else do
    let historyIds := stepIds (history state)
    let futurePlan ← ExecutionPlan.of plan.title
      ((future state plan).map (TaskStep.keepDependencies (· ∉ historyIds))) plan.goal
    let revised ← initializeRun state.runId (some futurePlan)
    let revisedFuture ← revised.steps.mapM (restoreStep state plan)
    RunSnapshot.of { state.toSnapshotFields with
      title := plan.title
      goal := plan.goal
      steps := history state ++ revisedFuture
      workStepIds := Dict.fromKeys
        (state.workStepIds.filter (· ∈ historyIds) ++ plan.workStepIds) }

/-! ## Tool grants -/

/-- `allowed_tool_names_for_current_transition`. -/
def allowedToolNamesForCurrentTransition (state : RunSnapshot) : List RequiredText :=
  if state.terminal then []
  else match runningStep (fun _ => true) state.steps with
    | none => []
    | some (index, running) =>
      if running.isToolStep then running.suggestedTools
      else if ¬ running.isModelStep then []
      else match nextIncomplete (state.steps.drop (index + 1)) with
        | none => []
        | some (_, step) => if step.isToolStep then step.suggestedTools else []

/-- `future_allowed_tool_names`. -/
def futureAllowedToolNames (state : RunSnapshot) : List RequiredText :=
  if state.terminal then []
  else match runningStep (fun _ => true) state.steps with
    | none => []
    | some (index, running) =>
      let currentToolIndex : Option Nat :=
        if running.isToolStep then some index
        else if running.isModelStep then
          match nextIncomplete (state.steps.drop (index + 1)) with
          | none => none
          | some (offset, step) => if step.isToolStep then some (index + 1 + offset) else none
        else none
      let startIndex := (currentToolIndex.getD index) + 1
      ((state.steps.drop startIndex).filter fun step =>
        !step.status.finished && step.isToolStep).flatMap (·.suggestedTools)

/-- `ExecutionTransition`: the active step and its tool authorization. -/
structure ExecutionTransition where
  stepId : RequiredText
  executor : StepExecutor
  allowedToolNames : List RequiredText
  futureToolNames : List RequiredText
  deriving DecidableEq

/-- `execution_transition`. -/
def executionTransition (state : RunSnapshot) : Option ExecutionTransition :=
  if state.terminal then none
  else (runningStep (fun _ => true) state.steps).map fun p =>
    ⟨p.2.id, p.2.executor, allowedToolNamesForCurrentTransition state,
      futureAllowedToolNames state⟩

/-! ## Rounds -/

/-- `on_model_delta`. -/
def onModelDelta (state : RunSnapshot) : Except PyError RunTransition :=
  if state.terminal || (runningSteps state.steps).any (·.isToolStep) then unchanged state
  else match nextIncomplete state.steps with
    | none => unchanged state
    | some (index, step) =>
      if ¬ step.isModelStep then unchanged state
      else if step.status = .running then unchanged state
      else withStepChanges state [(index, start step)]

theorem reasoned_text : strip "Model reasoning completed before tool execution." =
    "Model reasoning completed before tool execution." ∧
      "Model reasoning completed before tool execution." ≠ "" := by decide +kernel

/-- The running model step, concluded before the tools it asked for run. -/
def concludeReasoning (steps : List TaskStep) : List (Nat × TaskStep) :=
  (runningStep TaskStep.isModelStep steps).toList.map fun p =>
    (p.1, conclude .done (.lit "Model reasoning completed before tool execution.") p.2)

/-- The names a round asks for, stripped and without blanks. -/
def requestedTools (toolNames : List String) : List RequiredText :=
  toolNames.filterMap fun name => RequiredText.optional (some name)

/-- `on_tool_calls_started`. -/
def onToolCallsStarted (state : RunSnapshot) (toolNames : List String) :
    Except PyError RunTransition :=
  if state.terminal then unchanged state
  else
    let requested := requestedTools toolNames
    let allowed := allowedToolNamesForCurrentTransition state
    if requested = [] ∨ ¬ ∀ name ∈ requested, name ∈ allowed then
      .error (runViolation "tool calls are outside the current plan transition")
    else
      let changes := concludeReasoning state.steps
      let steps := setAll state.steps changes
      match (runningStep TaskStep.isToolStep steps).or (nextIncomplete steps) with
      | none => .error (runViolation "current plan transition is not a tool step")
      | some (index, step) =>
        if ¬ step.isToolStep then
          .error (runViolation "current plan transition is not a tool step")
        else if step.status = .running then withStepChanges state changes
        else withStepChanges state (changes ++ [(index, start step)])

/-- The tool step the user declined. -/
def decline (step : TaskStep) : TaskStep :=
  { step with
    status := .blocked
    resultSummary := some (.lit "User declined approval; the planned tool was not executed.")
    error := some (.lit "approval_rejected") }

theorem planned_text : strip "Planned tool step completed." = "Planned tool step completed." ∧
    "Planned tool step completed." ≠ "" := by decide +kernel

/-- `on_tool_round_completed`. -/
def onToolRoundCompleted (state : RunSnapshot) (outcome : ToolBatchOutcome := .completed) :
    Except PyError RunTransition :=
  if state.terminal then unchanged state
  else if ¬ (outcome = .progressed ∨ outcome = .completed ∨ outcome = .declined) then
    .error (runViolation ("only progressed, completed, or declined tool rounds may " ++
      "advance todo state"))
  else match runningStep TaskStep.isToolStep state.steps with
    | none => unchanged state
    | some (index, step) =>
      if outcome = .declined then withStepChanges state [(index, decline step)]
      -- a bounded portion of the operation was committed: the step stays active
      else if outcome = .progressed then unchanged state
      else
        let completed := conclude .done (.lit "Planned tool step completed.") step
        match nextIncomplete (state.steps.set index completed) with
        | none => withStepChanges state [(index, completed)]
        | some (next, step') =>
          if step'.type = .confirm then withStepChanges state [(index, completed)]
          else withStepChanges state [(index, completed), (next, start step')]

/-- `on_tool_round_failed`. -/
def onToolRoundFailed (state : RunSnapshot) (error : String := "tool_execution_failed") :
    Except PyError RunTransition :=
  if state.terminal then unchanged state
  else
    let normalizedError := (RequiredText.optional (some error)).getD (.lit "tool_execution_failed")
    match runningStep TaskStep.isToolStep state.steps with
    | none => .error (runViolation "failed tool round requires a running tool step")
    | some (index, step) =>
      withStepChanges state [(index, { step with
        status := .failed
        resultSummary := some (.lit "Tool execution failed; runtime replanning requested.")
        error := some normalizedError })]

/-! ## Ending a Run -/

/-- Some planned work that no model answer can cover is left. -/
def hasIncompleteNonModel (state : RunSnapshot) : Bool :=
  state.steps.any fun step => !step.status.finished && !step.isModelStep

/-- What `complete` makes of a step: a model step that runs, or that nothing but model steps is left
beside, is covered by the final response; other open steps are blocked. -/
def coverStep (incomplete : Bool) (step : TaskStep) : Option TaskStep :=
  if step.status.finished then none
  else if step.isModelStep && (step.status = .running || !incomplete) then
    some (conclude .done (.lit "Final response covered this model step.") step)
  else
    some (conclude .blocked (.lit "This planned step was not executed in the run.") step)

/-- `complete`. -/
def complete (state : RunSnapshot) (finalResponse : String := "") :
    Except PyError RunTransition :=
  if state.terminal then unchanged state
  else
    let incomplete := hasIncompleteNonModel state
    withStepChanges state (positions (coverStep incomplete) state.steps)
      (some (if incomplete then .blocked else .done)) (some finalResponse)

/-- A covered step of a durable execution that has finished. -/
def fulfilStep (coveredStepIds : List String) (step : TaskStep) : Option TaskStep :=
  if step.id.text ∈ coveredStepIds ∧ step.status ≠ .done then
    some (conclude .done (.lit "Durable execution fulfilled this admitted step.") step)
  else none

/-- The changes that fulfil the covered steps, which must be the planned ones. -/
def fulfil (state : RunSnapshot) (coveredStepIds : List String) :
    Except PyError (List (Nat × TaskStep)) :=
  let planned := (stepIds state.steps).map (·.text)
  if ¬ ((∀ id ∈ planned, id ∈ coveredStepIds) ∧ ∀ id ∈ coveredStepIds, id ∈ planned) then
    .error (.runtimeError "durable completion must match the admitted plan steps")
  else .ok (positions (fulfilStep coveredStepIds) state.steps)

/-- `complete_durable_execution`. -/
def completeDurableExecution (state : RunSnapshot) (finalResponse : String)
    (coveredStepIds : List String) : Except PyError RunTransition :=
  if state.terminal then unchanged state
  else do
    let changes ← fulfil state coveredStepIds
    withStepChanges state changes (some .done) (some finalResponse)

/-- `finish_durable_execution`. -/
def finishDurableExecution (state : RunSnapshot) (coveredStepIds : List String) :
    Except PyError RunTransition :=
  if state.terminal then unchanged state
  else do
    let changes ← fulfil state coveredStepIds
    withStepChanges state changes

/-- A planned step under the status its durable units have; a step that is done stays done. -/
def project (status : StepStatus) (step : TaskStep) : Option TaskStep :=
  if step.status = status then none
  else if step.status = .done then none
  else some { step with
    status
    resultSummary :=
      if status = .done then some (.lit "Durable execution completed this Planner step.")
      else step.resultSummary
    error := if status = .failed then some (.lit "durable_execution_failed") else none }

/-- `sync_durable_execution`. -/
def syncDurableExecution (state : RunSnapshot) (statuses : Dict String StepStatus) :
    Except PyError RunTransition :=
  if state.terminal then unchanged state
  else
    let unknown := statuses.keys.filter fun id => id ∉ (stepIds state.steps).map (·.text)
    if unknown ≠ [] then
      .error (runViolation ("durable progress names unknown plan steps: " ++ joinSorted unknown))
    else
      withStepChanges state (statuses.entries.filterMap fun entry =>
        (findFirst (fun step => step.id.text = entry.1) state.steps).bind fun p =>
          (project entry.2 p.2).map fun step => (p.1, step))

/-- The running step of a Run that fails. -/
def failStep (error : RequiredText) (step : TaskStep) : Option TaskStep :=
  if step.status = .running then some { step with status := .failed, error := some error }
  else none

/-- `fail`. -/
def fail (state : RunSnapshot) (error : String) : Except PyError RunTransition :=
  if state.terminal then unchanged state
  else match RequiredText.optional (some error) with
    | none => .error (runViolation "failed run requires a non-empty error")
    | some normalizedError =>
      withStepChanges state (positions (failStep normalizedError) state.steps) (some .failed) none
        (some normalizedError)

/-- An open step of a Run that is canceled. -/
def cancelStep (step : TaskStep) : Option TaskStep :=
  if step.status.finished then none
  else some (conclude .blocked (.lit "Run was canceled before this step completed.") step)

/-- `cancel`. -/
def cancel (state : RunSnapshot) (reason : String := "request_canceled") :
    Except PyError RunTransition :=
  if state.terminal then unchanged state
  else
    let normalizedReason := (RequiredText.optional (some reason)).getD (.lit "request_canceled")
    withStepChanges state (positions cancelStep state.steps) (some .canceled) none
      (some normalizedReason)

end RunStateMachine

end Purra
