import Purra.Core.Reading
import Purra.RunState.Plans

/-!
# Planning contracts

What the plan compiler reads: the Planner's work plan (`purra/contracts/plans.py`), the
host's tool registrations (`purra/ports/tools.py`, `purra/contracts/tools.py`) and the
constraints of a request (`purra/contracts/planning.py`).  The constructors' checks are
fields; a name is checked text everywhere, so a set of names holds texts that a name can be.
-/

namespace Purra.Planning

/-- `ToolExecutionMode`. -/
inductive ToolExecutionMode where
  | read | propose | confirm
  deriving DecidableEq, Repr

/-- `ToolSchema`. -/
structure ToolSchema where
  name : RequiredText
  description : String := ""
  parameters : Json.Object := []
  displayNames : Json.Object := []

/-- `==` on schemas. -/
def ToolSchema.pyEq (a b : ToolSchema) : Bool :=
  a.name = b.name && a.description = b.description && Json.objectEq a.parameters b.parameters &&
    Json.objectEq a.displayNames b.displayNames

/-- `ToolPolicy`. -/
structure ToolPolicy where
  mode : ToolExecutionMode
  title : RequiredText
  riskLevel : ToolRiskLevel := .read
  deriving DecidableEq, Repr

/-- `ToolRegistration`: the schema, the policy, and what planning needs of the contracts. -/
structure ToolRegistration where
  schema : ToolSchema
  policy : ToolPolicy
  prerequisiteTools : List RequiredText := []
  planningCapability : Option ToolSchema := none

/-- `WorkStep`: a semantic step of the Planner. -/
structure WorkStep where
  id : RequiredText
  title : RequiredText
  type : StepType
  executor : StepExecutor
  riskLevel : Option ToolRiskLevel := none
  capabilityNames : List RequiredText := []
  dependsOn : List RequiredText := []
  description : Option RequiredText := none
  capabilities_nodup : capabilityNames.Nodup := by
    first | exact List.nodup_nil | exact List.nodup_singleton _
  depends_nodup : dependsOn.Nodup := by exact List.nodup_nil
  deriving Repr

/-- `WorkPlan`: the Planner's steps, in an order that keeps their dependencies. -/
structure WorkPlan where
  title : RequiredText
  steps : List WorkStep
  goal : Option RequiredText := none
  steps_ne_nil : steps ≠ []
  ids_nodup : (steps.map (·.id)).Nodup
  inOrder : InOrder [] (steps.map fun step => (step.id, step.dependsOn))

/-- `PlanningConstraints`: what the compiler reads of them. -/
structure PlanningConstraints where
  contextSatisfiedToolNames : List RequiredText := []
  planningExcludedToolNames : List RequiredText := []
  satisfiedToolDependencyEdges : List (RequiredText × RequiredText) := []
  executionSatisfiedToolNames : List RequiredText := []

end Purra.Planning
