import Purra.RunState.Moves
import Purra.RunMemory.Records

/-!
# The commits of the controller

`purra/run_controller.py` turns a transition of the Run state machine into a commit:
`transitionEvents` are the events it publishes, `transitionCommit` is the commit of
`_apply`, and `planCommit` is the commit of a plan that is installed or revised.
`runSnapshot` is the snapshot the repository reads back.
-/

namespace Purra.RunMemory

open Contracts

/-! ## Payloads -/

/-- `StepStatus.value`. -/
def stepStatusValue : StepStatus → String
  | .pending => "pending"
  | .running => "running"
  | .done => "done"
  | .blocked => "blocked"
  | .failed => "failed"

/-- `StepType.value`. -/
def stepTypeValue : StepType → String
  | .read => "read"
  | .analyze => "analyze"
  | .write => "write"
  | .review => "review"
  | .confirm => "confirm"

/-- `StepExecutor.value`. -/
def stepExecutorValue : StepExecutor → String
  | .model => "model"
  | .tool => "tool"

/-- `ToolRiskLevel.value`. -/
def riskLevelValue : ToolRiskLevel → String
  | .read => "read"
  | .write => "write"
  | .destructive => "destructive"

/-- A text field that may be missing. -/
def optionalText? (text : Option RequiredText) : Json := Json.optionalStr (text.map (·.text))

/-- `_step_payload`. -/
def stepPayload (step : TaskStep) (workStepIds : List RequiredText) : Json.Object :=
  [("id", .str step.id.text), ("title", .str step.title.text),
    ("type", .str (stepTypeValue step.type)), ("executor", .str (stepExecutorValue step.executor)),
    ("status", .str (stepStatusValue step.status)),
    ("risk_level", Json.optionalStr (step.riskLevel.map riskLevelValue)),
    ("depends_on", .arr ((step.dependsOn.filter (· ∈ workStepIds)).map fun id => .str id.text)),
    ("description", optionalText? step.description),
    ("result_summary", optionalText? step.resultSummary), ("error", optionalText? step.error)]

/-- `_todos_payload`. -/
def todosPayload (state : RunSnapshot) : Json.Object :=
  [("title", .str state.title.text), ("goal", optionalText? state.goal),
    ("status", .str (statusValue state.status)),
    ("steps", .arr ((state.steps.filter (·.id ∈ state.workStepIds)).map fun step =>
      .obj (stepPayload step state.workStepIds)))]

/-- The event of a step that was updated. -/
def todoUpdated (state : RunSnapshot) (step : TaskStep) : AgentEvent where
  type := CoreEventType.runTodoUpdated
  runId := some state.runId.text
  payload := [("step_id", .str step.id.text),
    ("step", .obj (stepPayload step state.workStepIds)),
    ("status", .str (statusValue state.status))]

/-- The event of a Run that ended. -/
def runEnded (state : RunSnapshot) : AgentEvent where
  type := CoreEventType.terminal state.status
  runId := some state.runId.text
  payload := ("status", .str (statusValue state.status)) ::
    match state.status with
    | .done => [("final_response", .str state.finalResponse)]
    | .failed => [("error", optionalText? state.error)]
    | .canceled => [("reason", optionalText? state.error)]
    | .blocked | .running => []

/-- `_transition_events`. -/
def transitionEvents (transition : RunTransition) : List AgentEvent :=
  let state := transition.after
  let events := (transition.stepUpdates.filter (·.stepId ∈ state.workStepIds)).flatMap fun update =>
    (state.steps.filter (·.id = update.stepId)).map (todoUpdated state)
  if state.status = transition.before.status then events else events ++ [runEnded state]

/-! ## Commits -/

/-- What `complete` and `complete_validated_result` add to a transition. -/
structure Completion where
  validatedResult : Option String := none
  presentation : Option Json.Object := none
  finalOutput : Option OutputTextReference := none

/-- A character of an error code. -/
def isCodeChar (c : Char) : Bool :=
  ('a' ≤ c && c ≤ 'z') || ('0' ≤ c && c ≤ '9') || c ∈ ['_', '.', ':', '-']

/-- `re.fullmatch(r"[a-z][a-z0-9_.:-]{0,159}", code)`. -/
def isErrorCode (code : String) : Bool :=
  match code.toList with
  | [] => false
  | c :: rest => ('a' ≤ c && c ≤ 'z') && rest.length ≤ 159 && rest.all isCodeChar

/-- `AgentRunResult.__post_init__` on the presentation of a completed Run. -/
def validPresentation (presentation : Json.Object) : Bool :=
  presentation.all (fun p => p.1 = "status" || p.1 = "errorCode") &&
    match Json.get presentation "status", Json.field? presentation "errorCode" with
    | .str "completed", none => true
    | .str "failed", some (.str code) => isErrorCode code
    | _, _ => false

/-- The events `_apply` publishes: a completed Run leaves its text to the canonical frames, and
shows its presentation. -/
def completionEvent (completion : Completion) (event : AgentEvent) : AgentEvent :=
  if event.type ≠ CoreEventType.terminal .done then event
  else
    let payload :=
      if completion.finalOutput.isSome = true then
        event.payload.filter (fun p => p.1 ≠ "final_response")
      else event.payload
    { event with
      payload := match completion.presentation with
        | none => payload
        | some presentation => Json.setField "presentation" (.obj presentation) payload }

/-- The fields of the commit of `_apply`. -/
def transitionFields (transition : RunTransition) (completion : Completion) : CommitFields :=
  let terminal := if transition.after.status ≠ transition.before.status
    then some transition.after.status else none
  { stepUpdates := transition.stepUpdates
    terminalStatus := terminal
    finalResponse := if terminal = some .done then some transition.after.finalResponse else none
    validatedResult := completion.validatedResult
    finalOutput := completion.finalOutput
    error := if terminal = some .failed then transition.after.error.map (·.text) else none
    events := (transitionEvents transition).map (completionEvent completion) }

/-- The commit of `_apply`. -/
def transitionCommit (transition : RunTransition) (completion : Completion := {}) :
    Except PyError RunCommit :=
  if (completion.presentation.map validPresentation).getD true = false then
    .error (.valueError "invalid run presentation result")
  else RunCommit.of (transitionFields transition completion)

/-- `_require_plan`. -/
def requirePlan (state : RunSnapshot) : Except PyError ExecutionPlan := do
  let plan ← state.executionPlan
  match plan with
  | none => .error (.runtimeError "planned run snapshot has no ExecutionPlan")
  | some plan => .ok plan

/-- The commit of `_install_plan_unlocked` and `_revise_plan_unlocked`. -/
def planCommit (planned : RunSnapshot) (metadata : Json.Object := []) :
    Except PyError RunCommit := do
  let plan ← requirePlan planned
  RunCommit.of {
    replacePlan := some plan
    events := [{
      type := CoreEventType.runTodosUpdated
      runId := some planned.runId.text
      payload := todosPayload planned ++
        if metadata = [] then [] else [("planRevision", .obj metadata)] }] }

/-! ## Reading back -/

/-- `_run_snapshot`. -/
def runSnapshot (runId : String) (record : StoredRun) : Except PyError RunSnapshot := do
  let runId ← RequiredText.of runId "run id"
  RunSnapshot.of {
    runId
    title := (record.executionPlan.map (·.title)).getD RunStateMachine.defaultTitle
    goal := record.executionPlan.bind (·.goal)
    status := record.status
    steps := record.steps
    workStepIds := (record.executionPlan.map (·.workStepIds)).getD []
    finalResponse := record.finalResponse.getD ""
    error := RequiredText.optional record.error }

end Purra.RunMemory
