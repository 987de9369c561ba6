import Purra.Planning.Contracts

/-!
# The plan compiler

`purra/plan_compiler.py`: a work plan of the Planner becomes an execution plan.  A step that
names a public tool stays, with the tools it needs inserted before it; a step that names a
capability becomes the private tools behind it.

* `planningCapabilities`, `orderedRuntimeNames` — the tools behind a capability, and the order
  they run in.
* `appendPrerequisites` — what a tool needs is inserted, first what is needed for that.
* `compileStep`, `compileWorkPlan` — the loop over the work plan.

`depth` is how deep a function may call itself before Python raises `RecursionError`.
-/

namespace Purra.Planning

/-- `ContractViolationError(message)`. -/
def violation (message : String) : PyError := .contractViolation message "contract_violation" []

/-- `RecursionError`. -/
def recursionError : PyError := .runtimeError "maximum recursion depth exceeded"

/-- `by_name.get(name)`: of two registrations under a name the later counts. -/
def byName (registrations : List ToolRegistration) (name : RequiredText) : Option ToolRegistration :=
  registrations.reverse.find? fun item => item.schema.name = name

/-! ## Capabilities -/

/-- The state of the loop of `_planning_capabilities`. -/
structure Grouping where
  schemas : Dict RequiredText ToolSchema := Dict.empty
  grouped : Dict RequiredText (List ToolRegistration) := Dict.empty

/-- The loop body of `_planning_capabilities`. -/
def groupRegistration (enabled runtimeNames : List RequiredText) (g : Grouping)
    (registration : ToolRegistration) : Except PyError Grouping :=
  match registration.planningCapability with
  | none => .ok g
  | some capability =>
    if registration.schema.name ∉ enabled then .ok g
    else if capability.name ∈ runtimeNames then
      .error (violation ("planning capability collides with a runtime tool: " ++
        capability.name.text))
    else if (g.schemas.get? capability.name).any (fun previous => !previous.pyEq capability) then
      .error (violation ("runtime tools declare conflicting planning capabilities: " ++
        capability.name.text))
    else .ok {
      schemas := g.schemas.set capability.name capability
      grouped := g.grouped.set capability.name
        ((g.grouped.get? capability.name).getD [] ++ [registration]) }

/-- `_planning_capabilities`. -/
def planningCapabilities (registrations : List ToolRegistration) (enabled : List RequiredText) :
    Except PyError (Dict RequiredText (List ToolRegistration)) := do
  let runtimeNames := (registrations.map (·.schema.name)).filter (· ∈ enabled)
  let g ← registrations.foldlM (groupRegistration enabled runtimeNames) {}
  .ok g.grouped

/-- What `_ordered_runtime_names` has in hand. -/
structure Ordering where
  ordered : List RequiredText := []
  visiting : List RequiredText := []
  visited : List RequiredText := []

/-- `visit`. -/
def visit (registrations : List ToolRegistration) : Nat → Ordering → RequiredText →
    Except PyError Ordering
  | 0, _, _ => .error recursionError
  | depth + 1, s, name =>
    if name ∈ s.visited then .ok s
    else if name ∈ s.visiting then
      .error (violation "planning capability contains a runtime dependency cycle")
    else match byName registrations name with
      | none => .error (.keyError name.text)
      | some registration => do
        let s ← registration.prerequisiteTools.foldlM (fun s dependency =>
            if (byName registrations dependency).isSome then visit registrations depth s dependency
            else .ok s)
          { s with visiting := name :: s.visiting }
        .ok {
          ordered := s.ordered ++ [name]
          visiting := s.visiting.erase name
          visited := name :: s.visited }

/-- `_ordered_runtime_names`. -/
def orderedRuntimeNames (depth : Nat) (registrations : List ToolRegistration) :
    Except PyError (List RequiredText) := do
  let s ← (registrations.map (·.schema.name)).foldlM (visit registrations depth) {}
  .ok s.ordered

/-! ## Ids -/

/-- A step id with a number behind it, of at most 48 characters. -/
def suffixedId (normalized : List Char) (index : Nat) : String :=
  let suffix := ("-" ++ toString index).toList
  String.ofList (normalized.take (48 - suffix.length) ++ suffix)

/-- `_unique_step_id`.  There are more numbers to try than ids to avoid. -/
def uniqueStepId (candidate : String) (existing : List String) : String :=
  let normalized := candidate.toList.take 48
  if String.ofList normalized ∉ existing then String.ofList normalized
  else (((List.range (existing.length + 1)).map fun i => suffixedId normalized (i + 2)).find?
    (· ∉ existing)).getD ""

/-! ## Prerequisites -/

/-- `CompiledExecutionPlan`. -/
structure CompiledExecutionPlan where
  executionPlan : ExecutionPlan
  insertedToolNames : List RequiredText := []
  loweredToolNames : List RequiredText := []

/-- The variables of `compile_work_plan` that its loop changes. -/
structure Compilation where
  existingIds : List String
  completed : List RequiredText
  inserted : List RequiredText := []
  lowered : List RequiredText := []
  expanded : List TaskStep := []
  prerequisiteSequence : Nat := 0

section

variable (py : Builtins) (registrations : List ToolRegistration) (constraints : PlanningConstraints)

/-- The step that is inserted for a prerequisite. -/
def hostStep (id tool : RequiredText) (dependency : ToolRegistration) (name : RequiredText) :
    TaskStep where
  id
  title := dependency.policy.title
  type := if dependency.policy.mode = .read then .read else .analyze
  executor := .tool
  riskLevel := some dependency.policy.riskLevel
  suggestedTools := [name]
  description := RequiredText.optional (some ("Host-inserted prerequisite for " ++ tool.text ++
    "; derived from the registered tool context contract."))
  protocolPrivate := true

/-- A prerequisite is inserted. -/
def insertStep (s : Compilation) (tool : RequiredText) (dependency : ToolRegistration)
    (name : RequiredText) : Except PyError Compilation := do
  let sequence := s.prerequisiteSequence + 1
  let stepId := uniqueStepId ("host-prerequisite-" ++ name.text ++ "-" ++ toString sequence)
    s.existingIds
  let id ← RequiredText.of stepId "task step id"
  .ok { s with
    existingIds := s.existingIds ++ [stepId]
    completed := s.completed ++ [name]
    inserted := s.inserted ++ [name]
    expanded := s.expanded ++ [hostStep id tool dependency name]
    prerequisiteSequence := sequence }

/-- The loop body of `append_prerequisites`; `needed` is the call for what it needs itself. -/
def appendDependency (needed : Compilation → RequiredText → Except PyError Compilation)
    (tool : RequiredText) (s : Compilation) (dependency : RequiredText) :
    Except PyError Compilation :=
  if dependency ∈ s.completed ∨ (tool, dependency) ∈ constraints.satisfiedToolDependencyEdges then
    .ok s
  else if dependency ∈ constraints.planningExcludedToolNames then
    .error (violation ("tool " ++ py.repr (.str tool.text) ++ " requires planning-excluded tool " ++
      py.repr (.str dependency.text)))
  else do
    let s ← needed s dependency
    if dependency ∈ s.completed then .ok s
    else match byName registrations dependency with
      | none => .error (.keyError dependency.text)
      | some registration => insertStep s tool registration dependency

/-- `append_prerequisites`. -/
def appendPrerequisites : Nat → List RequiredText → Compilation → RequiredText →
    Except PyError Compilation
  | 0, _, _, _ => .error recursionError
  | depth + 1, path, s, tool =>
    if tool ∈ path then
      .error (violation ("tool context contract contains a prerequisite cycle: " ++
        " -> ".intercalate ((path ++ [tool]).map (·.text))))
    else match byName registrations tool with
      | none => .error (violation ("tool context contract names unavailable tool " ++
          py.repr (.str tool.text)))
      | some registration => registration.prerequisiteTools.foldlM
          (appendDependency py registrations constraints
            (appendPrerequisites depth (path ++ [tool])) tool) s

/-! ## Steps -/

/-- `_to_execution_step`. -/
def toExecutionStep (step : WorkStep) : TaskStep where
  id := step.id
  title := step.title
  type := step.type
  executor := step.executor
  riskLevel := step.riskLevel
  suggestedTools := step.capabilityNames
  dependsOn := step.dependsOn
  description := step.description
  tools_nodup := step.capabilities_nodup
  depends_nodup := step.depends_nodup

/-- The step a private tool of a capability becomes; the last of them is the work step itself. -/
def runtimeStep (step : WorkStep) (selected : RequiredText) (registration : ToolRegistration)
    (name id : RequiredText) (terminal : Bool) (previous : Option RequiredText)
    (htool : step.executor = .tool) : TaskStep where
  id
  title := if terminal then step.title else registration.policy.title
  type := step.type
  executor := step.executor
  riskLevel := some registration.policy.riskLevel
  suggestedTools := [name]
  dependsOn := match previous with
    | some id => [id]
    | none => step.dependsOn
  description := if terminal then step.description
    else RequiredText.optional (some ("Host-private execution protocol for " ++ selected.text))
  protocolPrivate := !terminal
  planningCapability := some selected
  depends_nodup := by
    cases previous with
    | none => exact step.depends_nodup
    | some id => exact List.nodup_singleton id
  private_tool := fun _ => htool
  capability_tool := fun _ => htool

/-- The loop body over the private tools of a capability, with the id of the step before. -/
def lowerTool (depth : Nat) (step : WorkStep) (selected : RequiredText)
    (htool : step.executor = .tool) (last : Nat) (acc : Compilation × Option RequiredText)
    (tool : RequiredText × Nat) : Except PyError (Compilation × Option RequiredText) := do
  let s ← appendPrerequisites py registrations constraints depth [] acc.1 tool.1
  match byName registrations tool.1 with
  | none => .error (.keyError tool.1.text)
  | some registration =>
    let terminal : Bool := tool.2 = last
    let stepId := if terminal then step.id.text
      else uniqueStepId (step.id.text ++ "-protocol-" ++ toString (tool.2 + 1)) s.existingIds
    let id ← RequiredText.of stepId "task step id"
    .ok ({ s with
      existingIds := s.existingIds ++ [stepId]
      completed := s.completed ++ [tool.1]
      lowered := s.lowered ++ [tool.1]
      expanded := s.expanded ++
        [runtimeStep step selected registration tool.1 id terminal acc.2 htool] }, some id)

/-- The loop body of `compile_work_plan`. -/
def compileStep (depth : Nat) (enabled : List RequiredText)
    (capabilities : Dict RequiredText (List ToolRegistration)) (s : Compilation)
    (step : WorkStep) : Except PyError Compilation :=
  if htool : step.executor = .tool then
    match step.capabilityNames with
    | [selected] =>
      match byName registrations selected with
      | some registration =>
        if selected ∉ enabled then
          .error (violation ("plan names disabled tool " ++ py.repr (.str selected.text)))
        else match registration.planningCapability with
          | some capability =>
            .error (violation ("plan must select public planning capability " ++
              py.repr (.str capability.name.text) ++ " instead of private runtime tool " ++
              py.repr (.str selected.text)))
          | none => do
            let s ← appendPrerequisites py registrations constraints depth [] s selected
            .ok { s with
              completed := s.completed ++ [selected]
              expanded := s.expanded ++ [toExecutionStep step] }
      | none =>
        match capabilities.get? selected with
        | none => .error (violation ("plan names unavailable capability " ++
            py.repr (.str selected.text)))
        | some members => do
          let ordered ← orderedRuntimeNames depth members
          let runtimeSequence := ordered.filter (· ∉ s.completed)
          if runtimeSequence = [] then
            .error (violation ("plan redundantly selects completed capability " ++
              py.repr (.str selected.text)))
          else do
            let (s, _) ← runtimeSequence.zipIdx.foldlM
              (lowerTool py registrations constraints depth step selected htool
                (runtimeSequence.length - 1)) (s, none)
            .ok s
    | _ => .error (violation "host plan compilation requires exactly one tool per step")
  else .ok { s with expanded := s.expanded ++ [toExecutionStep step] }

/-- The tools whose results are there before the plan runs. -/
def satisfiedNames (satisfied : List RequiredText) : List RequiredText :=
  satisfied ++ constraints.executionSatisfiedToolNames ++ constraints.contextSatisfiedToolNames

/-- `compile_work_plan`. -/
def compileWorkPlan (depth : Nat) (plan : WorkPlan) (satisfied : List RequiredText := [])
    (enabledToolNames : Option (List RequiredText) := none) :
    Except PyError CompiledExecutionPlan := do
  let enabled := enabledToolNames.getD (registrations.map (·.schema.name))
  let capabilities ← planningCapabilities registrations enabled
  let s ← plan.steps.foldlM (compileStep py registrations constraints depth enabled capabilities)
    { existingIds := plan.steps.map (·.id.text), completed := satisfiedNames constraints satisfied }
  let executionPlan ← ExecutionPlan.of plan.title s.expanded plan.goal
    (some (plan.steps.map (·.id)))
  .ok ⟨executionPlan, s.inserted, s.lowered⟩

end

end Purra.Planning
