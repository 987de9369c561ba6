import Mathlib.Data.List.Infix
import Purra.Core.Enums
import Purra.Core.JsonValues
import Purra.Lib.Action
import Purra.Lib.Indexes
import Purra.Lib.Run

/-!
# The execution state of a plan

`CoreExecutionState` of `src/typescript/src/planning/state.ts`: the steps of a plan with what has
become of each.  Tool rounds, the final response and a revision of the plan move the statuses on; a
checkpoint of the plan is taken back by `restore`.

* `CoreExecutionState` — the state, its constructor, its methods and `restore`.
* `Shape` — done steps, then one that runs, then pending ones; every method keeps it.
* `beginToolRound_cases` — which requests open a tool round.
* `execution_state_spec` — **what holds of every run**, and that a restart does not show.
-/

namespace Purra.PlanState

/-- An `AgentError`. -/
structure AgentError where
  code : String
  message : String
  deriving DecidableEq, Repr

/-- The status of a step. -/
inductive StepStatus where
  | pending | running | done | failed
  deriving DecidableEq, Repr

/-- `ExecutionStep`; the members that the state only copies are in `content`. -/
structure ExecutionStep where
  id : String
  executor : StepExecutor
  status : StepStatus
  runtimeToolNames : List String
  content : Json.Object := []

/-- `withStatus`. -/
def ExecutionStep.withStatus (step : ExecutionStep) (status : StepStatus) : ExecutionStep :=
  { step with status := status }

/-- `ExecutionPlan`. -/
structure ExecutionPlan where
  title : String
  goal : Option String := none
  taskSpec : Option Json := none
  steps : List ExecutionStep
  workStepIds : List String

/-- `ExecutionTransition`. -/
structure ExecutionTransition where
  stepId : String
  executor : StepExecutor
  allowedToolNames : List String
  futureToolNames : List String

/-- The fields of a `CoreExecutionState`: those of its `plan`. -/
abbrev CoreExecutionState : Type := ExecutionPlan

/-- The first step runs, the others wait. -/
def started : List ExecutionStep → List ExecutionStep
  | [] => []
  | step :: steps => step.withStatus .running :: steps.map (·.withStatus .pending)

namespace CoreExecutionState

/-- The constructor. -/
def of (plan : ExecutionPlan) : Except AgentError CoreExecutionState :=
  if plan.steps = [] then
    .error ⟨"invalid_execution_plan", "ExecutionPlan must contain at least one step"⟩
  else .ok { plan with steps := started plan.steps }

/-- `plan`. -/
def plan (state : CoreExecutionState) : ExecutionPlan := state

/-- `restore`. -/
def restore (plan : ExecutionPlan) : Except AgentError CoreExecutionState := do
  let state ← of plan
  if 1 < (plan.steps.filter (·.status = .running)).length ∨
      (plan.steps.any (·.status = .running)) = false ∧ plan.steps.any (·.status = .pending) = true ∨
      plan.steps.any (·.status = .failed) = true then
    .error ⟨"invalid_execution_plan", "Checkpoint requires one active plan transition"⟩
  else .ok { state with steps := plan.steps }

/-- `completedSteps`. -/
def completedSteps (state : CoreExecutionState) : List ExecutionStep :=
  state.steps.filter (·.status = .done)

/-- The index of the step that runs. -/
def runningIndex (state : CoreExecutionState) : Option Nat :=
  state.steps.findIdx? (·.status = .running)

/-- `#nextUnfinishedToolIndex`. -/
def nextUnfinishedToolIndex (state : CoreExecutionState) (start : Nat) : Option Nat :=
  ((state.steps.drop start).findIdx? fun step => step.status ≠ .done ∧ step.executor = .tool).map
    (start + ·)

/-- The index of the tool step that a transition is about. -/
def currentToolIndex (state : CoreExecutionState) (running : ExecutionStep) (index : Nat) :
    Option Nat :=
  if running.executor = .tool then some index else state.nextUnfinishedToolIndex (index + 1)

/-- `transition`. -/
def transition (state : CoreExecutionState) : Option ExecutionTransition := do
  let index ← state.runningIndex
  let running ← state.steps[index]?
  let current := state.currentToolIndex running index
  let allowed := ((current.bind fun i => state.steps[i]?).map (·.runtimeToolNames)).getD []
  let future := (current.map fun i =>
    ((state.steps.drop (i + 1)).filter fun step => step.status = .pending ∧ step.executor = .tool)
      |>.flatMap (·.runtimeToolNames)).getD []
  return ⟨running.id, running.executor, allowed.eraseDups, future.eraseDups⟩

/-- The tool step at `tool` starts, the model steps from `running` on before it are done. -/
def startTool (steps : List ExecutionStep) (running tool : Nat) : List ExecutionStep :=
  (steps.mapIdx fun index step =>
    if running ≤ index ∧ index < tool ∧ step.executor = .model then step.withStatus .done
    else step).modify tool (·.withStatus .running)

/-- `beginToolRound`, once its request is known to be allowed. -/
def startCurrentTool (state : CoreExecutionState) : Action CoreExecutionState AgentError Unit :=
  match state.runningIndex with
  | none => .raise ⟨"plan_transition_violation", "Execution plan has no running step"⟩
  | some running =>
    if (state.steps[running]?).map (·.executor) = some .model then
      match state.nextUnfinishedToolIndex (running + 1) with
      | none => .raise ⟨"plan_transition_violation", "Execution plan has no current tool step"⟩
      | some tool => .write fun state => { state with steps := startTool state.steps running tool }
    else pure ()

/-- `beginToolRound`. -/
def beginToolRound (toolNames : List String) : Action CoreExecutionState AgentError Unit := do
  if toolNames = [] then
    .raise ⟨"plan_transition_violation", "Planned tool round must not be empty"⟩
  else do
    let state ← .read
    let allowed := (state.transition.map (·.allowedToolNames)).getD []
    if toolNames.any (· ∉ allowed) = true then
      .raise ⟨"plan_transition_violation", "Tool calls are outside the current plan transition"⟩
    else startCurrentTool state

/-- The first pending step behind a tool step starts. -/
def startNext (steps : List ExecutionStep) (tool : Nat) : List ExecutionStep :=
  match (steps.drop (tool + 1)).findIdx? (·.status = .pending) with
  | none => steps
  | some next => steps.modify (tool + 1 + next) (·.withStatus .running)

/-- `completeToolRound`. -/
def completeToolRound : Action CoreExecutionState AgentError Unit := do
  let state ← .read
  match state.steps.findIdx? fun step => step.status = .running ∧ step.executor = .tool with
  | none => .raise ⟨"plan_transition_violation", "Execution plan has no running tool step"⟩
  | some tool => do
    Action.write fun state =>
      { state with steps := state.steps.modify tool (·.withStatus .done) }
    Action.write fun state => { state with steps := startNext state.steps tool }

/-- A model step that is not settled is done. -/
def finishModel (step : ExecutionStep) : ExecutionStep :=
  if step.executor = .model ∧ (step.status = .pending ∨ step.status = .running) then
    step.withStatus .done
  else step

/-- `completeFinal`. -/
def completeFinal : Action CoreExecutionState AgentError Unit := do
  let state ← .read
  if (state.steps.any fun step => step.executor = .tool ∧ step.status ≠ .done) = true then
    .raise ⟨"plan_incomplete",
      "Model returned a final response before the execution plan completed"⟩
  else .write fun state => { state with steps := state.steps.map finishModel }

/-- `revise`. -/
def revise (plan : ExecutionPlan) : Action CoreExecutionState AgentError Unit := do
  let state ← .read
  if (plan.steps.any fun step => step.id ∈ state.completedSteps.map (·.id)) = true then
    .raise ⟨"invalid_replan",
      "A revised plan cannot replace or reuse completed step identities"⟩
  else .write fun state =>
    { state with
      steps := state.completedSteps ++ started plan.steps
      workStepIds := state.workStepIds ++ plan.workStepIds.filter (· ∉ state.workStepIds) }

/-- A call of a method. -/
inductive Call where
  | beginToolRound (toolNames : List String)
  | completeToolRound
  | completeFinal
  | revise (plan : ExecutionPlan)

/-- What the method does. -/
def Call.run : Call → Action CoreExecutionState AgentError Unit
  | .beginToolRound toolNames => CoreExecutionState.beginToolRound toolNames
  | .completeToolRound => CoreExecutionState.completeToolRound
  | .completeFinal => CoreExecutionState.completeFinal
  | .revise plan => CoreExecutionState.revise plan

/-- The state behind a call, whether it throws or not. -/
def call (state : CoreExecutionState) (c : Call) : CoreExecutionState := c.run.final state

/-- A revised plan has steps. -/
def Call.HasSteps : Call → Prop
  | .revise plan => plan.steps ≠ []
  | _ => True

/-- What a caller sees of some calls: how each ends, and the plan and the transition behind it. -/
def observe (state : CoreExecutionState) :
    List Call → List (Except AgentError Unit × ExecutionPlan × Option ExecutionTransition)
  | [] => []
  | c :: calls =>
    ((c.run state).1, (call state c).plan, (call state c).transition) ::
      observe (call state c) calls

end CoreExecutionState

/-! ## The shape of the steps -/

/-- Done steps; then, unless all are done, one that runs and pending ones. -/
inductive Shape : List ExecutionStep → Prop where
  | finished {done : List ExecutionStep} (hdone : ∀ step ∈ done, step.status = .done) : Shape done
  | active {done pending : List ExecutionStep} {running : ExecutionStep}
      (hdone : ∀ step ∈ done, step.status = .done) (hrunning : running.status = .running)
      (hpending : ∀ step ∈ pending, step.status = .pending) : Shape (done ++ running :: pending)

namespace CoreExecutionState

variable {state : CoreExecutionState} {done pending : List ExecutionStep} {running : ExecutionStep}

/-! ### What the searches find -/

variable {steps : List ExecutionStep}

theorem started_shape {done : List ExecutionStep}
    (hdone : ∀ step ∈ done, step.status = .done) : Shape (done ++ started steps) := by
  cases steps with
  | nil =>
    rw [started, List.append_nil]
    exact .finished hdone
  | cons step steps =>
    refine .active hdone rfl fun later hlater => ?_
    obtain ⟨step', -, rfl⟩ := List.mem_map.1 hlater
    rfl

theorem completedSteps_finished (hsteps : state.steps = done)
    (hdone : ∀ step ∈ done, step.status = .done) : state.completedSteps = done := by
  rw [completedSteps, hsteps]
  exact List.filter_eq_self.2 fun step hstep => decide_eq_true (hdone step hstep)

theorem completedSteps_active (hsteps : state.steps = done ++ running :: pending)
    (hdone : ∀ step ∈ done, step.status = .done) (hrunning : running.status = .running)
    (hpending : ∀ step ∈ pending, step.status = .pending) : state.completedSteps = done := by
  have hhead : done.filter (·.status = .done) = done :=
    List.filter_eq_self.2 fun step hstep => decide_eq_true (hdone step hstep)
  have htail : (running :: pending).filter (·.status = .done) = [] := by
    refine List.filter_eq_nil_iff.2 fun step hstep => ?_
    rw [decide_eq_true_iff]
    rcases List.mem_cons.1 hstep with rfl | hstep
    · rw [hrunning]
      exact nofun
    · rw [hpending step hstep]
      exact nofun
  rw [completedSteps, hsteps, List.filter_append, hhead, htail, List.append_nil]

theorem runningIndex_finished (hsteps : state.steps = done)
    (hdone : ∀ step ∈ done, step.status = .done) : state.runningIndex = none := by
  rw [runningIndex, hsteps]
  refine List.findIdx?_eq_none_iff.2 fun step hstep => ?_
  rw [hdone step hstep]
  rfl

theorem runningIndex_active (hsteps : state.steps = done ++ running :: pending)
    (hdone : ∀ step ∈ done, step.status = .done) (hrunning : running.status = .running) :
    state.runningIndex = some done.length := by
  rw [runningIndex, hsteps]
  refine findIdx?_append_cons (fun step hstep => ?_) (decide_eq_true hrunning)
  rw [hdone step hstep]
  rfl

/-- A step of a tool that is not done. -/
def unfinishedTool (step : ExecutionStep) : Bool := step.status ≠ .done ∧ step.executor = .tool

theorem nextUnfinishedToolIndex_none (hsteps : state.steps = done ++ running :: pending)
    (hnone : pending.find? unfinishedTool = none) :
    state.nextUnfinishedToolIndex (done.length + 1) = none := by
  rw [nextUnfinishedToolIndex, hsteps, drop_append_cons, Option.map_eq_none_iff]
  refine List.findIdx?_eq_none_iff.2 fun step hstep => ?_
  exact Bool.eq_false_iff.2 (List.find?_eq_none.1 hnone step hstep)

variable {more later : List ExecutionStep} {step tool : ExecutionStep}

theorem nextUnfinishedToolIndex_some {models : List ExecutionStep}
    (hsteps : state.steps = done ++ running :: (models ++ tool :: later))
    (hmodels : ∀ step ∈ models, unfinishedTool step = false) (htool : unfinishedTool tool = true) :
    state.nextUnfinishedToolIndex (done.length + 1) = some (done.length + 1 + models.length) := by
  have hfirst : (models ++ tool :: later).findIdx? unfinishedTool = some models.length :=
    findIdx?_append_cons hmodels htool
  rw [nextUnfinishedToolIndex, hsteps, drop_append_cons]
  exact congrArg (Option.map (done.length + 1 + ·)) hfirst

/-- Where a plan stands: at its end, in a tool step, or in a model step with or without a tool step
behind it. -/
inductive Stage : List ExecutionStep → Prop where
  | finished {done : List ExecutionStep} (hdone : ∀ step ∈ done, step.status = .done) : Stage done
  | inTool {done pending : List ExecutionStep} {running : ExecutionStep}
      (hdone : ∀ step ∈ done, step.status = .done) (hrunning : running.status = .running)
      (htool : running.executor = .tool) (hpending : ∀ step ∈ pending, step.status = .pending) :
      Stage (done ++ running :: pending)
  | beforeFinal {done pending : List ExecutionStep} {running : ExecutionStep}
      (hdone : ∀ step ∈ done, step.status = .done) (hrunning : running.status = .running)
      (hmodel : running.executor = .model)
      (hpending : ∀ step ∈ pending, step.status = .pending ∧ step.executor = .model) :
      Stage (done ++ running :: pending)
  | beforeTool {done models later : List ExecutionStep} {running tool : ExecutionStep}
      (hdone : ∀ step ∈ done, step.status = .done) (hrunning : running.status = .running)
      (hmodel : running.executor = .model)
      (hmodels : ∀ step ∈ models, step.status = .pending ∧ step.executor = .model)
      (hpending : tool.status = .pending) (htool : tool.executor = .tool)
      (hlater : ∀ step ∈ later, step.status = .pending) :
      Stage (done ++ running :: (models ++ tool :: later))

theorem unfinishedTool_eq_false :
    unfinishedTool step = false ↔ (step.status ≠ .done → step.executor = .model) := by
  unfold unfinishedTool
  cases step.executor <;> simp

/-- A step that waits and is of no tool is of the model. -/
theorem model_of_pending (hpending : step.status = .pending)
    (hstep : unfinishedTool step = false) : step.executor = .model :=
  unfinishedTool_eq_false.1 hstep (by rw [hpending]; exact nofun)

theorem stage_of_shape (h : Shape steps) : Stage steps := by
  cases h with
  | finished hdone => exact .finished hdone
  | @active done pending running hdone hrunning hpending =>
    cases hexecutor : running.executor with
    | tool => exact .inTool hdone hrunning hexecutor hpending
    | model =>
      by_cases hnone : pending.find? unfinishedTool = none
      · refine .beforeFinal hdone hrunning hexecutor fun step hstep => ⟨hpending step hstep, ?_⟩
        exact model_of_pending (hpending step hstep)
          (Bool.eq_false_iff.2 (List.find?_eq_none.1 hnone step hstep))
      · obtain ⟨models, tool, later, rfl, htool, hmodels⟩ := exists_first hnone
        have hmem : ∀ step ∈ models, step ∈ models ++ tool :: later := fun step hstep =>
          List.mem_append_left _ hstep
        refine .beforeTool hdone hrunning hexecutor (fun step hstep => ?_)
          (hpending tool (by simp)) (of_decide_eq_true htool).2
          (fun step hstep => hpending step (by simp [hstep]))
        have hwaits := hpending step (hmem step hstep)
        exact ⟨hwaits, model_of_pending hwaits (hmodels step hstep)⟩

theorem not_unfinished_of_done {done : List ExecutionStep}
    (hdone : ∀ step ∈ done, step.status = .done) : done.find? unfinishedTool = none := by
  refine List.find?_eq_none.2 fun step hstep => ?_
  rw [Bool.not_eq_true, unfinishedTool_eq_false]
  exact fun hne => absurd (hdone step hstep) hne

theorem not_unfinished_of_model
    (hmodel : ∀ step ∈ steps, step.executor = .model) : steps.find? unfinishedTool = none := by
  refine List.find?_eq_none.2 fun step hstep => ?_
  rw [Bool.not_eq_true, unfinishedTool_eq_false]
  exact fun _ => hmodel step hstep

/-- The first tool step that is not done. -/
def firstTool (state : CoreExecutionState) : Option ExecutionStep :=
  state.steps.find? unfinishedTool

/-- **The tools of a transition are those of the first tool step that is not done.** -/
theorem allowed_eq (h : Shape state.steps) :
    (state.transition.map (·.allowedToolNames)).getD [] =
      ((state.firstTool.map (·.runtimeToolNames)).getD []).eraseDups := by
  generalize hsteps : state.steps = steps at h
  cases stage_of_shape h with
  | finished hdone =>
    rw [transition, runningIndex_finished hsteps hdone, firstTool, hsteps,
      not_unfinished_of_done hdone]
    rfl
  | @inTool done pending running hdone hrunning htool hpending =>
    have hfirst : state.firstTool = some running := by
      have hunfinished : unfinishedTool running = true :=
        decide_eq_true ⟨by rw [hrunning]; exact nofun, htool⟩
      rw [firstTool, hsteps, List.find?_append, not_unfinished_of_done hdone,
        List.find?_cons_of_pos hunfinished]
      rfl
    have hrun : state.steps[done.length]? = some running := by
      rw [hsteps, getElem?_append_cons]
    rw [transition, runningIndex_active hsteps hdone hrunning, hfirst]
    simp only [Option.bind_eq_bind, Option.bind_some, hrun, currentToolIndex, if_pos htool]
    rfl
  | @beforeFinal done pending running hdone hrunning hmodel hpending =>
    have hnone : pending.find? unfinishedTool = none :=
      not_unfinished_of_model fun step hstep => (hpending step hstep).2
    have hfirst : state.firstTool = none := by
      have hunfinished : ¬ unfinishedTool running = true := by
        rw [Bool.not_eq_true, unfinishedTool_eq_false]
        exact fun _ => hmodel
      rw [firstTool, hsteps, List.find?_append, not_unfinished_of_done hdone,
        List.find?_cons_of_neg hunfinished, hnone]
      rfl
    have hrun : state.steps[done.length]? = some running := by
      rw [hsteps, getElem?_append_cons]
    have hexecutor : ¬ running.executor = .tool := by
      rw [hmodel]
      exact nofun
    rw [transition, runningIndex_active hsteps hdone hrunning, hfirst]
    simp only [Option.bind_eq_bind, Option.bind_some, hrun, currentToolIndex, if_neg hexecutor,
      nextUnfinishedToolIndex_none hsteps hnone]
    rfl
  | @beforeTool done models later running tool hdone hrunning hmodel hmodels hpending htool hlater =>
    have hunfinished : unfinishedTool tool = true :=
      decide_eq_true ⟨by rw [hpending]; exact nofun, htool⟩
    have hnone : models.find? unfinishedTool = none :=
      not_unfinished_of_model fun step hstep => (hmodels step hstep).2
    have hfirst : state.firstTool = some tool := by
      have hrunningTool : ¬ unfinishedTool running = true := by
        rw [Bool.not_eq_true, unfinishedTool_eq_false]
        exact fun _ => hmodel
      rw [firstTool, hsteps, List.find?_append, not_unfinished_of_done hdone,
        List.find?_cons_of_neg hrunningTool, List.find?_append, hnone,
        List.find?_cons_of_pos hunfinished]
      rfl
    have hrun : state.steps[done.length]? = some running := by
      rw [hsteps, getElem?_append_cons]
    have hexecutor : ¬ running.executor = .tool := by
      rw [hmodel]
      exact nofun
    have hnext := nextUnfinishedToolIndex_some hsteps
      (fun step hstep => unfinishedTool_eq_false.2 fun _ => (hmodels step hstep).2) hunfinished
    have htoolAt : state.steps[done.length + 1 + models.length]? = some tool := by
      rw [hsteps, Nat.add_assoc, List.getElem?_append_right (Nat.le_add_right _ _),
        Nat.add_sub_cancel_left, Nat.add_comm 1, List.getElem?_cons_succ, getElem?_append_cons]
    rw [transition, runningIndex_active hsteps hdone hrunning, hfirst]
    simp only [Option.bind_eq_bind, Option.bind_some, hrun, currentToolIndex, if_neg hexecutor,
      hnext, htoolAt]
    rfl

/-! ### What the methods do -/

/-- What a call may do to the steps. -/
structure Advances (state state' : CoreExecutionState) : Prop where
  shape : Shape state'.steps
  completed : state.completedSteps <+: state'.completedSteps
  nonempty : state'.steps ≠ []

/-- The requests that open a tool round. -/
def Accepts (state : CoreExecutionState) (toolNames : List String) : Prop :=
  toolNames ≠ [] ∧ ∃ tool, state.firstTool = some tool ∧
    ∀ name ∈ toolNames, name ∈ tool.runtimeToolNames

theorem accepts_iff (h : Shape state.steps) {toolNames : List String} (hne : toolNames ≠ []) :
    state.Accepts toolNames ↔
      (toolNames.any (· ∉ (state.transition.map (·.allowedToolNames)).getD [])) = false := by
  rw [allowed_eq h, Accepts, List.any_eq_false]
  cases hfirst : state.firstTool with
  | none =>
    constructor
    · rintro ⟨-, tool, htool, -⟩
      cases htool
    · intro hall
      obtain ⟨name, hname⟩ := List.exists_mem_of_ne_nil _ hne
      have hmem := hall name hname
      simp at hmem
  | some tool => simp [hne]

/-- The steps of a plan whose tool step has started. -/
theorem startTool_eq {models : List ExecutionStep}
    (hmodel : running.executor = .model) (hmodels : ∀ step ∈ models, step.executor = .model) :
    startTool (done ++ running :: (models ++ tool :: later)) done.length
        (done.length + 1 + models.length) =
      (done ++ (running :: models).map (·.withStatus .done)) ++ tool.withStatus .running :: later := by
  have hlength : (done ++ (running :: models).map (·.withStatus .done)).length =
      done.length + 1 + models.length := by
    simp only [List.length_append, List.length_map, List.length_cons]
    omega
  have hsplit : done ++ running :: (models ++ tool :: later) =
      done ++ ((running :: models) ++ (tool :: later)) := rfl
  rw [startTool, hsplit, List.mapIdx_append, List.mapIdx_append]
  have hfront : done.mapIdx (fun index step =>
      if done.length ≤ index ∧ index < done.length + 1 + models.length ∧ step.executor = .model then
        step.withStatus .done
      else step) = done := by
    refine (mapIdx_eq_map fun i step hi _ => ?_).trans done.map_id
    exact if_neg fun h => by omega
  have hmiddle : (running :: models).mapIdx (fun index step =>
      if done.length ≤ index + done.length ∧
          index + done.length < done.length + 1 + models.length ∧ step.executor = .model then
        step.withStatus .done
      else step) = (running :: models).map (·.withStatus .done) := by
    refine mapIdx_eq_map fun i step hi hstep => ?_
    rw [List.length_cons] at hi
    refine if_pos ⟨Nat.le_add_left _ _, by omega, ?_⟩
    rcases List.mem_cons.1 hstep with rfl | hstep
    · exact hmodel
    · exact hmodels step hstep
  have hback : (tool :: later).mapIdx (fun index step =>
      if done.length ≤ index + (running :: models).length + done.length ∧
          index + (running :: models).length + done.length < done.length + 1 + models.length ∧
          step.executor = .model then
        step.withStatus .done
      else step) = tool :: later := by
    refine (mapIdx_eq_map fun i step hi _ => ?_).trans (tool :: later).map_id
    rw [List.length_cons] at *
    exact if_neg fun h => by omega
  rw [hfront, hmiddle, hback, ← List.append_assoc, ← hlength, modify_append_cons]

/-- Some more steps are done, and one behind them runs. -/
theorem advances_active {state' : CoreExecutionState}
    {next : ExecutionStep} (hcompleted : state.completedSteps = done)
    (hdone : ∀ step ∈ done ++ more, step.status = .done) (hnext : next.status = .running)
    (hlater : ∀ step ∈ later, step.status = .pending)
    (hsteps : state'.steps = (done ++ more) ++ next :: later) : Advances state state' where
  shape := hsteps ▸ .active hdone hnext hlater
  completed := by
    rw [hcompleted, completedSteps_active hsteps hdone hnext hlater]
    exact List.prefix_append _ _
  nonempty := by
    rw [hsteps]
    exact List.append_ne_nil_of_right_ne_nil _ (List.cons_ne_nil _ _)

/-- The steps that were left are done. -/
theorem advances_finished {state' : CoreExecutionState}
    (hcompleted : state.completedSteps = done) (hdone : ∀ step ∈ done ++ more, step.status = .done)
    (hne : done ++ more ≠ []) (hsteps : state'.steps = done ++ more) : Advances state state' where
  shape := hsteps ▸ .finished hdone
  completed := by
    rw [hcompleted, completedSteps_finished hsteps hdone]
    exact List.prefix_append _ _
  nonempty := hsteps ▸ hne

theorem done_append (hdone : ∀ step ∈ done, step.status = .done)
    (hmore : ∀ step ∈ more, step.status = .done) : ∀ step ∈ done ++ more, step.status = .done :=
  fun step hstep => (List.mem_append.1 hstep).elim (hdone step) (hmore step)

theorem done_of_map :
    ∀ step ∈ steps.map (·.withStatus .done), step.status = .done := by
  intro step hstep
  obtain ⟨step', -, rfl⟩ := List.mem_map.1 hstep
  rfl

theorem startCurrentTool_spec (h : Shape state.steps) (hfirst : state.firstTool = some tool) :
    ∃ state', startCurrentTool state state = (.ok (), state') ∧ Advances state state' := by
  generalize hsteps : state.steps = steps at h
  cases stage_of_shape h with
  | finished hdone =>
    rw [firstTool, hsteps, not_unfinished_of_done hdone] at hfirst
    cases hfirst
  | @inTool done pending running hdone hrunning htool hpending =>
    have hexecutor : ¬ (state.steps[done.length]?).map (·.executor) = some .model := by
      rw [hsteps, getElem?_append_cons, Option.map_some, htool]
      exact nofun
    refine ⟨state, ?_, hsteps ▸ h, List.prefix_refl _, by rw [hsteps]; simp⟩
    rw [startCurrentTool, runningIndex_active hsteps hdone hrunning]
    exact congrFun (if_neg hexecutor) state
  | @beforeFinal done pending running hdone hrunning hmodel hpending =>
    have hmodels : ∀ step ∈ running :: pending, step.executor = .model := by
      intro step hstep
      rcases List.mem_cons.1 hstep with rfl | hstep
      · exact hmodel
      · exact (hpending step hstep).2
    rw [firstTool, hsteps, List.find?_append, not_unfinished_of_done hdone,
      not_unfinished_of_model hmodels] at hfirst
    cases hfirst
  | @beforeTool done models later running tool hdone hrunning hmodel hmodels hpending htool hlater =>
    have hexecutor : (state.steps[done.length]?).map (·.executor) = some .model := by
      rw [hsteps, getElem?_append_cons, Option.map_some, hmodel]
    have hnext := nextUnfinishedToolIndex_some hsteps
      (fun step hstep => unfinishedTool_eq_false.2 fun _ => (hmodels step hstep).2)
      (show unfinishedTool tool = true from
        decide_eq_true ⟨by rw [hpending]; exact nofun, htool⟩)
    have hwait : ∀ step ∈ models ++ tool :: later, step.status = .pending := by
      intro step hstep
      rcases List.mem_append.1 hstep with hstep | hstep
      · exact (hmodels step hstep).1
      · rcases List.mem_cons.1 hstep with rfl | hstep
        · exact hpending
        · exact hlater step hstep
    let steps := startTool state.steps done.length (done.length + 1 + models.length)
    refine ⟨{ state with steps := steps }, ?_, ?_⟩
    · rw [startCurrentTool, runningIndex_active hsteps hdone hrunning]
      dsimp only
      rw [if_pos hexecutor, hnext]
      rfl
    · have hmore : ∀ step ∈ done ++ (running :: models).map (·.withStatus .done),
          step.status = .done := done_append hdone done_of_map
      have hstarted : (tool.withStatus .running).status = .running := rfl
      refine advances_active (completedSteps_active hsteps hdone hrunning hwait) hmore hstarted
        hlater ?_
      show startTool state.steps _ _ = _
      rw [hsteps]
      exact startTool_eq hmodel fun step hstep => (hmodels step hstep).2

/-- **What opens a tool round, and what it does.** -/
theorem beginToolRound_cases (h : Shape state.steps) (toolNames : List String) :
    ¬ state.Accepts toolNames ∧ (∃ e, beginToolRound toolNames state = (.error e, state)) ∨
    state.Accepts toolNames ∧
      ∃ state', beginToolRound toolNames state = (.ok (), state') ∧ Advances state state' := by
  by_cases hnames : toolNames = []
  · refine Or.inl ⟨fun haccepts => haccepts.1 hnames,
      ⟨"plan_transition_violation", "Planned tool round must not be empty"⟩, ?_⟩
    rw [beginToolRound, if_pos hnames]
    rfl
  rw [beginToolRound, if_neg hnames, Action.read_bind_apply]
  cases hany : toolNames.any (· ∉ (state.transition.map (·.allowedToolNames)).getD []) with
  | true =>
    refine Or.inl ⟨fun haccepts => ?_, ⟨"plan_transition_violation",
      "Tool calls are outside the current plan transition"⟩, ?_⟩
    · rw [accepts_iff h hnames, hany] at haccepts
      cases haccepts
    · rw [if_pos rfl]
      rfl
  | false =>
    have haccepts := (accepts_iff h hnames).2 hany
    obtain ⟨_, tool, hfirst, _⟩ := id haccepts
    obtain ⟨state', hstart, hadvances⟩ := startCurrentTool_spec h hfirst
    refine Or.inr ⟨haccepts, state', ?_, hadvances⟩
    rw [← hstart]
    exact congrFun (if_neg Bool.false_ne_true) state

/-- A call that throws leaves the state; one that does not, advances it. -/
def Goes (m : Action CoreExecutionState AgentError Unit) (state : CoreExecutionState) : Prop :=
  (∃ e, m state = (.error e, state)) ∨ ∃ state', m state = (.ok (), state') ∧ Advances state state'

theorem completeToolRound_goes (h : Shape state.steps) : Goes completeToolRound state := by
  have hthrows : (state.steps.findIdx? fun step => step.status = .running ∧ step.executor = .tool) =
      none → Goes completeToolRound state := by
    intro hnone
    refine Or.inl ⟨⟨"plan_transition_violation", "Execution plan has no running tool step"⟩, ?_⟩
    rw [completeToolRound, Action.read_bind_apply, hnone]
    rfl
  generalize hsteps : state.steps = steps at h hthrows
  cases h with
  | finished hdone =>
    refine hthrows (List.findIdx?_eq_none_iff.2 fun step hstep => ?_)
    rw [hdone step hstep]
    rfl
  | @active done pending running hdone hrunning hpending =>
    cases hexecutor : running.executor with
    | model =>
      refine hthrows (List.findIdx?_eq_none_iff.2 fun step hstep => ?_)
      rcases List.mem_append.1 hstep with hstep | hstep
      · rw [hdone step hstep]
        rfl
      · rcases List.mem_cons.1 hstep with rfl | hstep
        · rw [hexecutor]
          simp
        · rw [hpending step hstep]
          rfl
    | tool =>
      have hindex : (state.steps.findIdx? fun step =>
          step.status = .running ∧ step.executor = .tool) = some done.length := by
        rw [hsteps]
        refine findIdx?_append_cons (fun step hstep => ?_) (decide_eq_true ⟨hrunning, hexecutor⟩)
        rw [hdone step hstep]
        rfl
      have hcompleted := completedSteps_active hsteps hdone hrunning hpending
      have hmore : ∀ step ∈ done ++ [running.withStatus .done], step.status = .done :=
        done_append hdone (by rintro step hstep; cases List.mem_singleton.1 hstep; rfl)
      let steps := startNext (done ++ running.withStatus .done :: pending) done.length
      refine Or.inr ⟨{ state with steps := steps }, ?_, ?_⟩
      · rw [completeToolRound, Action.read_bind_apply, hindex]
        have hmodify : state.steps.modify done.length (·.withStatus .done) =
            done ++ running.withStatus .done :: pending := by
          rw [hsteps, modify_append_cons]
        show (Except.ok (), { state with
          steps := startNext (state.steps.modify done.length (·.withStatus .done)) done.length }) = _
        rw [hmodify]
      · cases pending with
        | nil =>
          refine advances_finished hcompleted hmore (by simp) ?_
          show startNext _ _ = _
          rw [startNext, drop_append_cons]
          rfl
        | cons next later =>
          have hfirst : ((next :: later).findIdx? (·.status = .pending)) = some 0 := by
            rw [List.findIdx?_cons, if_pos (decide_eq_true (hpending next (List.mem_cons_self ..)))]
          have hstarted : (next.withStatus .running).status = .running := rfl
          refine advances_active hcompleted hmore hstarted
            (fun step hstep => hpending step (List.mem_cons_of_mem _ hstep)) ?_
          show startNext _ _ = _
          rw [startNext, drop_append_cons, hfirst]
          have hsplit : done ++ running.withStatus .done :: next :: later =
              (done ++ [running.withStatus .done]) ++ next :: later := by simp
          have hlength : done.length + 1 + 0 = (done ++ [running.withStatus .done]).length := by simp
          show List.modify _ (done.length + 1 + 0) _ = _
          rw [hsplit, hlength, modify_append_cons]

theorem finishModel_done (hmodel : step.executor = .model)
    (hstatus : step.status = .pending ∨ step.status = .running) :
    finishModel step = step.withStatus .done := if_pos ⟨hmodel, hstatus⟩

theorem map_finishModel (hdone : ∀ step ∈ steps, step.status = .done) :
    steps.map finishModel = steps := by
  refine (List.map_congr_left fun step hstep => ?_).trans steps.map_id
  refine if_neg fun h => ?_
  rw [hdone step hstep] at h
  rcases h.2 with hpending | hrunning
  · cases hpending
  · cases hrunning

theorem completeFinal_goes (h : Shape state.steps) (hne : state.steps ≠ []) :
    Goes completeFinal state := by
  cases hany : state.steps.any fun step => step.executor = .tool ∧ step.status ≠ .done with
  | true =>
    refine Or.inl ⟨⟨"plan_incomplete",
      "Model returned a final response before the execution plan completed"⟩, ?_⟩
    rw [completeFinal, Action.read_bind_apply, hany]
    rfl
  | false =>
    refine Or.inr ⟨{ state with steps := state.steps.map finishModel }, ?_, ?_⟩
    · rw [completeFinal, Action.read_bind_apply, hany]
      rfl
    have hall : ∀ step ∈ state.steps, step.status ≠ .done → step.executor = .model := by
      intro step hstep hstatus
      have hfalse := List.any_eq_false.1 hany step hstep
      cases hexecutor : step.executor with
      | model => rfl
      | tool => exact absurd (decide_eq_true ⟨hexecutor, hstatus⟩) hfalse
    generalize hsteps : state.steps = steps at h hne hall
    cases h with
    | finished hdone =>
      have hmore : ∀ step ∈ steps ++ [], step.status = .done := by
        rw [List.append_nil]
        exact hdone
      refine advances_finished (completedSteps_finished hsteps hdone) hmore ?_ ?_
      · rw [List.append_nil]
        exact hne
      · rw [List.append_nil]
        exact map_finishModel hdone
    | @active done pending running hdone hrunning hpending =>
      have hmap : (running :: pending).map finishModel =
          (running :: pending).map (·.withStatus .done) := by
        refine List.map_congr_left fun step hstep => ?_
        have hstatus : step.status = .pending ∨ step.status = .running := by
          rcases List.mem_cons.1 hstep with rfl | hstep
          · exact Or.inr hrunning
          · exact Or.inl (hpending step hstep)
        refine finishModel_done (hall step (List.mem_append_right _ hstep) ?_) hstatus
        rcases hstatus with hstatus | hstatus <;> rw [hstatus] <;> exact nofun
      have hmore : ∀ step ∈ done ++ (running :: pending).map (·.withStatus .done),
          step.status = .done := done_append hdone done_of_map
      refine advances_finished (completedSteps_active hsteps hdone hrunning hpending) hmore ?_ ?_
      · simp
      · show List.map finishModel (done ++ running :: pending) = _
        rw [List.map_append, map_finishModel hdone, hmap]

theorem completedSteps_done : ∀ step ∈ state.completedSteps, step.status = .done :=
  fun _ hstep => of_decide_eq_true (List.mem_filter.1 hstep).2

theorem revise_goes {plan : ExecutionPlan} (hplan : plan.steps ≠ []) : Goes (revise plan) state := by
  cases hany : plan.steps.any fun step => step.id ∈ state.completedSteps.map (·.id) with
  | true =>
    refine Or.inl ⟨⟨"invalid_replan",
      "A revised plan cannot replace or reuse completed step identities"⟩, ?_⟩
    rw [revise, Action.read_bind_apply, hany]
    rfl
  | false =>
    let revised : CoreExecutionState := { state with
      steps := state.completedSteps ++ started plan.steps
      workStepIds := state.workStepIds ++ plan.workStepIds.filter (· ∉ state.workStepIds) }
    refine Or.inr ⟨revised, ?_, ?_⟩
    · rw [revise, Action.read_bind_apply, hany]
      rfl
    · cases hsteps : plan.steps with
      | nil => exact absurd hsteps hplan
      | cons step steps =>
        have hmore : ∀ step ∈ state.completedSteps ++ [], step.status = .done := by
          rw [List.append_nil]
          exact completedSteps_done
        have hwait : ∀ later ∈ steps.map (·.withStatus .pending), later.status = .pending := by
          intro later hlater
          obtain ⟨step', -, rfl⟩ := List.mem_map.1 hlater
          rfl
        have hstarted : (step.withStatus .running).status = .running := rfl
        refine advances_active rfl hmore hstarted hwait ?_
        show state.completedSteps ++ started plan.steps = _
        rw [hsteps, List.append_nil]
        rfl

theorem Goes.throws {m : Action CoreExecutionState AgentError Unit} (h : Goes m state)
    {e : AgentError} (he : (m state).1 = .error e) : (m state).2 = state := by
  rcases h with ⟨e', heq⟩ | ⟨state', heq, -⟩
  · rw [heq]
  · rw [heq] at he
    cases he

/-- Every call leaves a state that has advanced. -/
theorem Goes.advances {m : Action CoreExecutionState AgentError Unit} (h : Goes m state)
    (hshape : Shape state.steps) (hne : state.steps ≠ []) : Advances state (m.final state) := by
  rcases h with ⟨e, heq⟩ | ⟨state', heq, hadvances⟩
  · have hfinal : m.final state = state := congrArg Prod.snd heq
    rw [hfinal]
    exact ⟨hshape, List.prefix_refl _, hne⟩
  · have hfinal : m.final state = state' := congrArg Prod.snd heq
    rw [hfinal]
    exact hadvances

theorem call_goes (h : Shape state.steps) (hne : state.steps ≠ []) {c : Call} (hc : c.HasSteps) :
    Goes c.run state := by
  cases c with
  | beginToolRound toolNames =>
    rcases beginToolRound_cases h toolNames with ⟨-, hthrows⟩ | ⟨-, hgoes⟩
    · exact Or.inl hthrows
    · exact Or.inr hgoes
  | completeToolRound => exact completeToolRound_goes h
  | completeFinal => exact completeFinal_goes h hne
  | revise plan => exact revise_goes hc

/-! ## Runs -/

/-- The steps have the shape, and there are some. -/
def Live (state : CoreExecutionState) : Prop := Shape state.steps ∧ state.steps ≠ []

theorem of_live {plan : ExecutionPlan} (h : plan.steps ≠ []) :
    ∃ state, of plan = .ok state ∧ state.Live := by
  have hshape : Shape ([] ++ started plan.steps) := started_shape nofun
  refine ⟨_, if_neg h, hshape, ?_⟩
  cases hsteps : plan.steps with
  | nil => exact absurd hsteps h
  | cons step steps => exact List.cons_ne_nil _ _

theorem call_live {c : Call} (hc : c.HasSteps) (h : state.Live) : (call state c).Live :=
  have hadvances := (call_goes h.1 h.2 hc).advances h.1 h.2
  ⟨hadvances.shape, hadvances.nonempty⟩

theorem exec_live {calls : List Call} (hcalls : ∀ c ∈ calls, c.HasSteps) (h : state.Live) :
    (exec call state calls).Live :=
  exec_induction (fun _ _ hc hlive => call_live hc hlive) (along_of_forall hcalls) h

/-- What is done before some calls is done after them, in the same place. -/
theorem exec_completed {calls : List Call} (hcalls : ∀ c ∈ calls, c.HasSteps) (h : state.Live) :
    state.completedSteps <+: (exec call state calls).completedSteps := by
  induction calls generalizing state with
  | nil => exact List.prefix_refl _
  | cons c calls ih =>
    have hc := hcalls c (List.mem_cons_self ..)
    have hfirst := ((call_goes h.1 h.2 hc).advances h.1 h.2).completed
    exact hfirst.trans (ih (fun c' hc' => hcalls c' (List.mem_cons_of_mem _ hc')) (call_live hc h))

/-- The completed steps stand at the head of the plan. -/
theorem completedSteps_prefix (h : Shape state.steps) : state.completedSteps <+: state.steps := by
  generalize hsteps : state.steps = steps at h
  cases h with
  | finished hdone =>
    rw [completedSteps_finished hsteps hdone]
  | active hdone hrunning hpending =>
    rw [completedSteps_active hsteps hdone hrunning hpending]
    exact List.prefix_append _ _

/-- A plan with the shape is a checkpoint. -/
theorem checkpoint_of_shape (h : Shape steps) :
    ¬ (1 < (steps.filter (·.status = .running)).length ∨
      (steps.any (·.status = .running)) = false ∧ steps.any (·.status = .pending) = true ∨
      steps.any (·.status = .failed) = true) := by
  have hnot : ∀ {status : StepStatus} {xs : List ExecutionStep}, status ≠ .done →
      (∀ step ∈ xs, step.status = .done) → ∀ step ∈ xs, ¬ step.status = status := by
    intro status xs hne hdone step hstep heq
    exact hne (heq.symm.trans (hdone step hstep))
  cases h with
  | finished hdone =>
    have hrunning := hnot (show StepStatus.running ≠ .done from nofun) hdone
    have hpending := hnot (show StepStatus.pending ≠ .done from nofun) hdone
    have hfailed := hnot (show StepStatus.failed ≠ .done from nofun) hdone
    have hfilter : steps.filter (·.status = .running) = [] :=
      List.filter_eq_nil_iff.2 fun step hstep => by simpa using hrunning step hstep
    rw [hfilter]
    simpa using ⟨fun _ step hstep => hpending step hstep, hfailed⟩
  | @active done pending running hdone hrunning hpending =>
    have hfilter : (done ++ running :: pending).filter (·.status = .running) = [running] := by
      have hhead : done.filter (·.status = .running) = [] :=
        List.filter_eq_nil_iff.2 fun step hstep => by simp [hdone step hstep]
      have htail : pending.filter (·.status = .running) = [] :=
        List.filter_eq_nil_iff.2 fun step hstep => by simp [hpending step hstep]
      have hcons : (running :: pending).filter (·.status = .running) = [running] := by
        rw [List.filter_cons, if_pos (decide_eq_true hrunning), htail]
      rw [List.filter_append, hhead, hcons]
      rfl
    have hany : (done ++ running :: pending).any (·.status = .running) = true :=
      List.any_eq_true.2 ⟨running, by simp, decide_eq_true hrunning⟩
    have hfailed : (done ++ running :: pending).any (·.status = .failed) = false := by
      refine List.any_eq_false.2 fun step hstep => ?_
      rcases List.mem_append.1 hstep with hstep | hstep
      · simp [hdone step hstep]
      · rcases List.mem_cons.1 hstep with rfl | hstep
        · simp [hrunning]
        · simp [hpending step hstep]
    rw [hfilter, hany, hfailed]
    simp

/-- **A plan with the shape is taken back as it is.** -/
theorem restore_plan (h : state.Live) : restore state.plan = .ok state := by
  have hof : of state.plan = .ok { state.plan with steps := started state.plan.steps } := if_neg h.2
  rw [restore, hof]
  exact if_neg (checkpoint_of_shape h.1)

/-- **The steps of a plan over every run of calls**, and a checkpoint taken anywhere in it. -/
theorem execution_state_spec {plan : ExecutionPlan} (hsteps : plan.steps ≠ []) :
    ∃ state, of plan = .ok state ∧
      ∀ earlier later : List Call, (∀ c ∈ earlier ++ later, c.HasSteps) →
        let before := exec call state earlier
        let after := exec call state (earlier ++ later)
        Shape after.steps ∧
        before.completedSteps <+: after.completedSteps ∧
        after.completedSteps <+: after.steps ∧
        (∀ toolNames, (beginToolRound toolNames after).1 = .ok () ↔ after.Accepts toolNames) ∧
        (∀ c : Call, c.HasSteps → ∀ e, (c.run after).1 = .error e → (c.run after).2 = after) ∧
        ∃ restored, restore after.plan = .ok restored ∧
          ∀ calls, observe restored calls = observe after calls := by
  obtain ⟨state, hof, hlive⟩ := of_live hsteps
  refine ⟨state, hof, fun earlier later hcalls => ?_⟩
  have hearlier : ∀ c ∈ earlier, c.HasSteps := fun c hc => hcalls c (List.mem_append_left _ hc)
  have hlater : ∀ c ∈ later, c.HasSteps := fun c hc => hcalls c (List.mem_append_right _ hc)
  have hbefore := exec_live hearlier hlive
  have hafter := exec_live hlater hbefore
  dsimp only
  rw [exec_append]
  generalize hgen : exec call (exec call state earlier) later = after at hafter
  refine ⟨hafter.1, hgen ▸ exec_completed hlater hbefore, completedSteps_prefix hafter.1, ?_, ?_,
    after, restore_plan hafter, fun _ => rfl⟩
  · intro toolNames
    rcases beginToolRound_cases hafter.1 toolNames with ⟨hnot, e, heq⟩ | ⟨haccepts, after', heq, -⟩
    · rw [heq]
      exact ⟨nofun, fun haccepts => absurd haccepts hnot⟩
    · rw [heq]
      exact ⟨fun _ => haccepts, fun _ => rfl⟩
  · intro c hc e he
    exact (call_goes hafter.1 hafter.2 hc).throws he

/-- A plan of one step. -/
def oneStep : ExecutionPlan where
  title := "t"
  steps := [⟨"s", .tool, .pending, ["read"], []⟩]
  workStepIds := ["s"]

theorem execution_state_spec_oneStep :
    ∃ state, of oneStep = .ok state ∧ Shape state.steps ∧
      ¬ state.Accepts [] ∧ ∃ restored, restore state.plan = .ok restored := by
  obtain ⟨state, hof, hrun⟩ := execution_state_spec (show oneStep.steps ≠ [] from nofun)
  obtain ⟨hshape, -, -, -, -, restored, hrestored, -⟩ := hrun [] [] nofun
  exact ⟨state, hof, hshape, fun h => h.1 rfl, restored, hrestored⟩

end CoreExecutionState

end Purra.PlanState
