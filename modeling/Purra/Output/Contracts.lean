import Purra.Core.Reading

/-!
# Output contracts

The canonical output events of `purra/output/contracts.py`: what a producer drafts, what
the journal stores of it, and the stream it belongs to.  Instants are microseconds of a
common clock.  Event ids and the time an event was emitted are left out: nothing reads
them.
-/

namespace Purra.Output

/-- `AgentOutputIntent`. -/
inductive AgentOutputIntent where
  | executionPublic | finalPublic | structuredPrivate | reasoningPrivate
  deriving DecidableEq, Repr

/-- `OutputCommitMode`. -/
inductive OutputCommitMode where
  | live | gated | privateMode
  deriving DecidableEq, Repr

/-- `OutputSource`. -/
inductive OutputSource where
  | provider | runtime | tool | domain
  deriving DecidableEq, Repr

/-- `OutputChannel`. -/
inductive OutputChannel where
  | commentary | final | operation | lifecycle | error | diagnostic
  deriving DecidableEq, Repr

/-- `OutputVisibility`. -/
inductive OutputVisibility where
  | publicEvent | privateEvent | diagnostic
  deriving DecidableEq, Repr

/-- `OutputEventKind`. -/
inductive OutputEventKind where
  | streamOpened
  | providerContentDelta | providerReasoningDelta | providerProgressDelta
  | providerToolCallDelta | providerDeltaBatch | providerUsage
  | planningProgress | planningDelta
  | agentProgress | modelDiagnostics
  | streamCommitted | streamAborted
  | operationStarted | operationFinished
  | runLifecycle | runValidatedResult
  | tool | domainEffect | runtime
  deriving DecidableEq, Repr

/-- `.value`. -/
def OutputEventKind.value : OutputEventKind → String
  | streamOpened => "stream.opened"
  | providerContentDelta => "provider.content_delta"
  | providerReasoningDelta => "provider.reasoning_delta"
  | providerProgressDelta => "provider.progress_delta"
  | providerToolCallDelta => "provider.tool_call_delta"
  | providerDeltaBatch => "provider.delta_batch"
  | providerUsage => "provider.usage"
  | planningProgress => "planning.progress"
  | planningDelta => "planning.delta"
  | agentProgress => "agent.progress"
  | modelDiagnostics => "model.diagnostics"
  | streamCommitted => "stream.committed"
  | streamAborted => "stream.aborted"
  | operationStarted => "operation.started"
  | operationFinished => "operation.finished"
  | runLifecycle => "run.lifecycle"
  | runValidatedResult => "run.validated_result"
  | tool => "tool.event"
  | domainEffect => "domain.effect"
  | runtime => "runtime.event"

/-- An event that projects a planning record. -/
def OutputEventKind.isPlanning : OutputEventKind → Bool
  | planningProgress => true
  | planningDelta => true
  | _ => false

/-- The start or the end of an operation. -/
def OutputEventKind.isOperation : OutputEventKind → Bool
  | operationStarted => true
  | operationFinished => true
  | _ => false

/-- `PlanningScope`. -/
structure PlanningScope where
  runId : String
  operationId : String
  revision : Nat := 0
  deriving DecidableEq, Repr

/-- `OutputStreamSpec`. -/
structure OutputStreamSpec where
  outputStreamId : String
  runId : String
  turnId : Option String
  invocationId : String
  intent : AgentOutputIntent
  commitMode : OutputCommitMode
  outputProtocol : Option String := none
  planningScope : Option PlanningScope := none
  planningAttempt : Nat := 0
  deriving DecidableEq, Repr

/-- `AgentOutputEventDraft`. -/
structure AgentOutputEventDraft where
  runId : String
  turnId : Option String
  outputStreamId : Option String
  invocationId : Option String
  sourceEventKey : String
  source : OutputSource
  kind : OutputEventKind
  channel : OutputChannel
  visibility : OutputVisibility
  payload : Json.Object := []
  occurredAt : Int

/-- `AgentOutputEventDraft.public_text`. -/
def AgentOutputEventDraft.publicText (runId : String) (turnId : Option String)
    (outputStreamId invocationId sourceEventKey : String) (source : OutputSource)
    (channel : OutputChannel) (delta : String) (occurredAt : Int) : AgentOutputEventDraft where
  runId
  turnId
  outputStreamId := some outputStreamId
  invocationId := some invocationId
  sourceEventKey
  source
  kind := .providerContentDelta
  channel
  visibility := .publicEvent
  payload := [("delta", .str delta)]
  occurredAt

/-- `==` on drafts. -/
def AgentOutputEventDraft.pyEq (a b : AgentOutputEventDraft) : Bool :=
  a.runId = b.runId && a.turnId = b.turnId && a.outputStreamId = b.outputStreamId &&
    a.invocationId = b.invocationId && a.sourceEventKey = b.sourceEventKey &&
    a.source = b.source && a.kind = b.kind && a.channel = b.channel &&
    a.visibility = b.visibility && Json.objectEq a.payload b.payload &&
    a.occurredAt = b.occurredAt

/-- `AgentOutputEvent`: a draft with its place in the journal of its Run and of its root. -/
structure AgentOutputEvent extends AgentOutputEventDraft where
  sequence : Nat
  rootRunId : String
  agentId : Option String
  parentRunId : Option String
  rootSequence : Nat

/-- `RunLifecycleOutputDraft`. -/
structure RunLifecycleOutputDraft (Status : Type) where
  sourceEventKey : String
  status : Status
  payload : Json.Object
  occurredAt : Int
  turnId : Option String := none

/-- `TERMINAL_STREAM_ABORT_ERROR_CODE`. -/
def terminalStreamAbortErrorCode : String := "run_terminalized"

/-- `TERMINAL_STREAM_ABORT_CAUSE`. -/
def terminalStreamAbortCause : String := "run_terminal_commit"

/-- `_batched_provider_entries`. -/
def batchedProviderEntries (event : AgentOutputEvent) : List Json :=
  if event.kind ≠ .providerDeltaBatch then []
  else (Json.items? (Json.get event.payload "entries")).getD []

end Purra.Output
