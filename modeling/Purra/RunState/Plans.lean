import Purra.Core.Enums
import Purra.Core.Text
import Purra.Lib.Sequence

/-!
# Execution plans

The plan contracts of `purra/contracts/plans.py`: the step a Run executes, and the plan
that orders the steps.  Their constructors' checks are fields here, so a plan whose
steps depend on later ones cannot be built; `ExecutionPlan.of` is the constructor, with
the errors it raises.

`TaskStep.Restates` is what a reducer may do to a step: give it another status, another
result summary and another error, and nothing else.
-/

namespace Purra

theorem public_step (executor : StepExecutor) : false = true → executor = .tool := nofun

theorem plain_step (executor : StepExecutor) :
    (none : Option RequiredText) ≠ none → executor = .tool := fun h => absurd rfl h

/-- `TaskStep`: a persisted execution step. -/
structure TaskStep where
  id : RequiredText
  title : RequiredText
  type : StepType
  executor : StepExecutor
  status : StepStatus := .pending
  riskLevel : Option ToolRiskLevel := none
  suggestedTools : List RequiredText := []
  dependsOn : List RequiredText := []
  description : Option RequiredText := none
  resultSummary : Option RequiredText := none
  error : Option RequiredText := none
  protocolPrivate : Bool := false
  planningCapability : Option RequiredText := none
  tools_nodup : suggestedTools.Nodup := by
    first | exact List.nodup_nil | exact List.nodup_singleton _
  depends_nodup : dependsOn.Nodup := by exact List.nodup_nil
  private_tool : protocolPrivate = true → executor = .tool := by first | exact public_step _ | simp
  capability_tool : planningCapability ≠ none → executor = .tool := by exact plain_step _
  deriving DecidableEq, Repr

namespace TaskStep

/-- `_is_tool_step`. -/
def isToolStep (step : TaskStep) : Bool :=
  step.executor == .tool || step.type == .read

/-- `_is_model_step`. -/
def isModelStep (step : TaskStep) : Bool :=
  step.executor == .model && !(step.type == .read || step.type == .confirm)

theorem not_tool_of_model {step : TaskStep} (h : step.isModelStep = true) :
    step.isToolStep = false := by
  unfold isModelStep at h
  unfold isToolStep
  cases hx : step.executor <;> cases ht : step.type <;> simp_all

/-- `replace(step, depends_on=...)`, keeping the dependencies that meet `keep`. -/
def keepDependencies (keep : RequiredText → Bool) (step : TaskStep) : TaskStep :=
  { step with dependsOn := step.dependsOn.filter keep
              depends_nodup := step.depends_nodup.filter keep }

/-- The new step is the old one with another status, result summary and error. -/
def Restates (step step' : TaskStep) : Prop :=
  step' = { step with status := step'.status, resultSummary := step'.resultSummary,
                      error := step'.error }

namespace Restates

variable {step step' step'' : TaskStep}

theorem refl (step : TaskStep) : Restates step step := rfl

theorem trans (h : Restates step step') (h' : Restates step' step'') : Restates step step'' := by
  unfold Restates at h h' ⊢
  rw [h', h]

theorem id_eq (h : Restates step step') : step'.id = step.id := by
  rw [h]

theorem type_eq (h : Restates step step') : step'.type = step.type := by
  rw [h]

theorem executor_eq (h : Restates step step') : step'.executor = step.executor := by
  rw [h]

theorem tools_eq (h : Restates step step') : step'.suggestedTools = step.suggestedTools := by
  rw [h]

theorem dependsOn_eq (h : Restates step step') : step'.dependsOn = step.dependsOn := by
  rw [h]

theorem isToolStep_eq (h : Restates step step') : step'.isToolStep = step.isToolStep := by
  simp only [isToolStep, h.executor_eq, h.type_eq]

end Restates

end TaskStep

/-! ## Lists of steps -/

/-- The ids of the steps, in order. -/
def stepIds (steps : List TaskStep) : List RequiredText := steps.map (·.id)

/-- Each step with the steps it depends on. -/
def stepRows (steps : List TaskStep) : List (RequiredText × List RequiredText) :=
  steps.map fun step => (step.id, step.dependsOn)

@[simp] theorem map_fst_stepRows (steps : List TaskStep) :
    (stepRows steps).map Prod.fst = stepIds steps := by
  simp [stepRows, stepIds]

/-- `", ".join(sorted(...))`. -/
def joinSorted (names : List String) : String :=
  ", ".intercalate (names.mergeSort fun a b => decide (a ≤ b))

/-- The loop of `_validate_dependencies`, with the ids it has passed. -/
def validateEach (label : String) : List RequiredText → List TaskStep → Except PyError Unit
  | _, [] => .ok ()
  | known, step :: rest =>
    let unknown := step.dependsOn.filter (· ∉ known)
    if unknown ≠ [] then
      .error (.valueError (label ++ " dependencies must reference earlier steps: " ++
        joinSorted (unknown.map (·.text))))
    else if step.id ∈ step.dependsOn then
      .error (.valueError (label ++ " step cannot depend on itself"))
    else validateEach label (known ++ [step.id]) rest

/-- `_validate_dependencies`. -/
def validateDependencies (steps : List TaskStep) (label : String) : Except PyError Unit :=
  if ¬ (stepIds steps).Nodup then .error (.valueError (label ++ " step ids must be unique"))
  else validateEach label [] steps

variable {steps : List TaskStep}

theorem validateEach_eq_ok {label : String} {known : List RequiredText}
    (hnd : (known ++ stepIds steps).Nodup) :
    validateEach label known steps = .ok () ↔ InOrder known (stepRows steps) := by
  induction steps generalizing known with
  | nil => exact iff_of_true rfl trivial
  | cons step rest ih =>
    have hnd' : (known ++ [step.id] ++ stepIds rest).Nodup := by
      rwa [List.append_assoc]
    have hfresh : step.id ∉ known := by
      intro h
      exact (List.nodup_append.1 hnd).2.2 _ h _ (List.mem_cons_self ..) rfl
    have hunknown : step.dependsOn.filter (· ∉ known) = [] ↔ ∀ b ∈ step.dependsOn, b ∈ known := by
      simp [List.filter_eq_nil_iff]
    rw [validateEach]
    by_cases hdeps : ∀ b ∈ step.dependsOn, b ∈ known
    · have hself : step.id ∉ step.dependsOn := fun h => hfresh (hdeps _ h)
      rw [if_neg (not_not.2 (hunknown.2 hdeps)), if_neg hself, ih hnd']
      exact ⟨fun h => ⟨hdeps, h⟩, And.right⟩
    · rw [if_pos (fun h => hdeps (hunknown.1 h))]
      exact iff_of_false (fun h => by cases h) fun h => hdeps h.1

theorem validateDependencies_eq_ok {label : String} :
    validateDependencies steps label = .ok () ↔
      (stepIds steps).Nodup ∧ InOrder [] (stepRows steps) := by
  unfold validateDependencies
  by_cases hnd : (stepIds steps).Nodup
  · rw [if_neg (not_not.2 hnd), validateEach_eq_ok (by simpa using hnd)]
    exact ⟨fun h => ⟨hnd, h⟩, And.right⟩
  · rw [if_pos hnd]
    exact iff_of_false (fun h => by cases h) fun h => hnd h.1

theorem validateDependencies_ok (label : String)
    (hids : (stepIds steps).Nodup) (horder : InOrder [] (stepRows steps)) :
    validateDependencies steps label = .ok () :=
  validateDependencies_eq_ok.2 ⟨hids, horder⟩

/-! ## Plans -/

/-- `ExecutionPlan`: the plan whose steps drive the Run. -/
structure ExecutionPlan where
  title : RequiredText
  steps : List TaskStep
  goal : Option RequiredText
  workStepIds : List RequiredText
  steps_ne_nil : steps ≠ []
  ids_nodup : (stepIds steps).Nodup
  inOrder : InOrder [] (stepRows steps)
  work_known : ∀ id ∈ workStepIds, id ∈ stepIds steps
  deriving DecidableEq

/-- The steps a plan made of `steps` shows when it is not told which. -/
def publicStepIds (steps : List TaskStep) : List RequiredText :=
  stepIds (steps.filter fun step => !step.protocolPrivate)

/-- `ExecutionPlan.__post_init__`. -/
def ExecutionPlan.of (title : RequiredText) (steps : List TaskStep)
    (goal : Option RequiredText := none) (workStepIds : Option (List RequiredText) := none) :
    Except PyError ExecutionPlan :=
  if hne : steps = [] then .error (.valueError "execution plan requires at least one step")
  else match hdeps : validateDependencies steps "execution plan" with
    | .error e => .error e
    | .ok () =>
      let work := (workStepIds.map Dict.fromKeys).getD (publicStepIds steps)
      if hwork : ∀ id ∈ work, id ∈ stepIds steps then
        .ok ⟨title, steps, goal, work, hne, (validateDependencies_eq_ok.1 hdeps).1,
          (validateDependencies_eq_ok.1 hdeps).2, hwork⟩
      else .error (.valueError ("execution plan work_step_ids name unknown steps: " ++
        joinSorted ((work.filter (· ∉ stepIds steps)).map (·.text))))

namespace ExecutionPlan

variable {title : RequiredText} {steps : List TaskStep} {goal : Option RequiredText}
  {workStepIds : Option (List RequiredText)}

theorem of_ok (hne : steps ≠ []) (hids : (stepIds steps).Nodup)
    (horder : InOrder [] (stepRows steps))
    (hwork : ∀ id ∈ (workStepIds.map Dict.fromKeys).getD (publicStepIds steps),
      id ∈ stepIds steps) :
    of title steps goal workStepIds = .ok ⟨title, steps, goal, _, hne, hids, horder, hwork⟩ := by
  have hdeps := validateDependencies_ok "execution plan" hids horder
  unfold of
  rw [dif_neg hne]
  split
  · rename_i e he
    rw [hdeps] at he
    cases he
  · exact dif_pos hwork

theorem of_eq_ok {plan : ExecutionPlan} (h : of title steps goal workStepIds = .ok plan) :
    plan.title = title ∧ plan.steps = steps ∧ plan.goal = goal := by
  unfold of at h
  split at h
  · cases h
  split at h
  · cases h
  dsimp only at h
  split at h
  · cases h
    exact ⟨rfl, rfl, rfl⟩
  · cases h

/-- A plan can be made of steps with known ids exactly when they are in order. -/
theorem of_iff (hne : steps ≠ []) (hids : (stepIds steps).Nodup)
    (hwork : ∀ id ∈ (workStepIds.map Dict.fromKeys).getD (publicStepIds steps),
      id ∈ stepIds steps) :
    (∃ plan, of title steps goal workStepIds = .ok plan) ↔ InOrder [] (stepRows steps) := by
  constructor
  · rintro ⟨plan, h⟩
    have horder := plan.inOrder
    rwa [(of_eq_ok h).2.1] at horder
  · intro horder
    exact ⟨_, of_ok hne hids horder hwork⟩

end ExecutionPlan

theorem publicStepIds_subset :
    ∀ id ∈ publicStepIds steps, id ∈ stepIds steps := by
  intro id hid
  obtain ⟨step, hstep, rfl⟩ := List.mem_map.1 hid
  exact List.mem_map_of_mem (List.mem_of_mem_filter hstep)

end Purra
