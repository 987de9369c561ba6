import Purra.LongTask.Quiescence
import Purra.AgentTree.Recovery
import Purra.AgentTree.Limits
import Purra.AgentTree.Shape
import Purra.RunState.Authority
import Purra.RunMemory.Immutable
import Purra.RunMemory.Controller
import Purra.RunMemory.Budgets
import Purra.RunMemory.Closing
import Purra.Approvals.Schedule
import Purra.Tools.IdempotentCalls
import Purra.Tools.Progress
import Purra.Output.StorablePlanning
import Purra.Planning.CompiledPlans
import Purra.Interaction.Submissions
import Purra.Mem0.Isolation
import Purra.RunStore.Budgets
import Purra.LongTask.BudgetStops
import Purra.Context.Allocation
import Purra.ModelProtocol.OutputLimits
import Purra.Context.Compaction
import Purra.AgentTree.ContextChains
import Purra.Approvals.Inspection
import Purra.Recovery.Scans
import Purra.Recovery.CursorCycles
import Purra.Core.StructuredDepth
import Purra.AgentTree.Joins
import Purra.Storage.BufferedEvents
import Purra.Runtime.ModelRound
import Purra.Runtime.ToolRecovery
import Purra.Planning.ExecutionState
import Purra.Interaction.Replays
import Purra.Output.ResponseCommits
