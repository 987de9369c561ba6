import Mathlib.Data.List.Basic

/-!
# Enums

The enumerations several contracts share (`purra/contracts/enums.py`).
-/

namespace Purra

/-- `RunStatus`. -/
inductive RunStatus where
  | running | done | blocked | failed | canceled
  deriving DecidableEq, Repr

/-- `_TERMINAL_STATUSES`. -/
def RunStatus.terminal : RunStatus → Bool
  | .running => false
  | .done | .blocked | .failed | .canceled => true

/-- `StepStatus`. -/
inductive StepStatus where
  | pending | running | done | blocked | failed
  deriving DecidableEq, Repr

/-- `_FINISHED_STEP_STATUSES`. -/
def StepStatus.finished : StepStatus → Bool
  | .pending | .running => false
  | .done | .blocked | .failed => true

/-- `StepExecutor`. -/
inductive StepExecutor where
  | model | tool
  deriving DecidableEq, Repr

/-- `StepType`. -/
inductive StepType where
  | read | analyze | write | review | confirm
  deriving DecidableEq, Repr

/-- `ToolRiskLevel`. -/
inductive ToolRiskLevel where
  | read | write | destructive
  deriving DecidableEq, Repr

/-- `ToolBatchOutcome`. -/
inductive ToolBatchOutcome where
  | progressed | completed | declined | canceled | rejected | failed
  deriving DecidableEq, Repr

end Purra
