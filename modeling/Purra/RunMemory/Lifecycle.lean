import Purra.RunMemory.Streams
import Purra.RunMemory.Transitions

/-!
# Lifecycle commits

`commit_run_lifecycle` of `purra/adapters/memory.py`: a commit of a Run together with the
canonical events that tell it.  `prepareRunLifecycle` checks everything on the state it
finds; what it returns is either the events of an earlier commit that is repeated, or the
drafts to append (`LifecyclePlan`), and `applyLifecycle` is the closure that writes.
`cancelChildren` prepares the cancellation of several child Runs and writes them in turn.
-/

namespace Purra.RunMemory

open Contracts Output

section

variable (host : Host)

/-! ## Verbatim publication -/

/-- `_entries`: the kinds and payloads an event delivers. -/
def deliveredEntries (event : AgentOutputEvent) : List (Json × Json.Object) :=
  if event.kind = .providerDeltaBatch then
    (Json.objects ((Json.items? (Json.get event.payload "entries")).getD [])).map fun entry =>
      (Json.get entry "kind", (Json.fields? (Json.get entry "payload")).getD [])
  else [(.str event.kind.value, event.payload)]

/-- The loop of `_text_frames`, with the frame it is filling and its size. -/
def textFrames : List Char → List Char → Nat → List String
  | frame, [], _ => if frame = [] then [] else [String.ofList frame]
  | frame, c :: rest, size =>
    if 16384 < size + c.utf8Size then
      String.ofList frame :: textFrames [c] rest c.utf8Size
    else textFrames (frame ++ [c]) rest (size + c.utf8Size)

/-- The checks of `verbatim_publication_drafts` on an event of the stream. -/
def checkVerbatimEvent (spec : OutputStreamSpec) (event : AgentOutputEvent) :
    Except PyError Unit := do
  rejectIf (event.outputStreamId ≠ some spec.outputStreamId ∨ event.runId ≠ spec.runId ∨
      event.invocationId ≠ some spec.invocationId)
    (violation "verbatim publication received foreign output")
  rejectIf ((deliveredEntries event).any (fun entry =>
      Json.pyEq entry.1 (.str OutputEventKind.providerToolCallDelta.value)) = true)
    (violation "verbatim publication rejects tool arguments")

/-- The text an event contributes to the answer. -/
def verbatimParts (event : AgentOutputEvent) : List String :=
  if event.source = .provider ∧ event.channel = .diagnostic ∧ event.visibility = .privateEvent then
    ((deliveredEntries event).filter fun entry =>
      Json.pyEq entry.1 (.str OutputEventKind.providerContentDelta.value)).map
        fun entry => deltaText host entry.2
  else []

/-- `verbatim_publication_drafts`. -/
def verbatimPublicationDrafts (reference : OutputTextReference) (stream : StoredStream)
    (events : List AgentOutputEvent) (text : String) (occurredAt : Int) :
    Except PyError (List AgentOutputEventDraft) := do
  let spec := stream.spec
  let expected :=
    OutputTextReference.forText host spec.runId spec.outputStreamId spec.invocationId text
  rejectIf (reference ≠ expected ∨ spec.intent ≠ .structuredPrivate ∨ spec.outputProtocol ≠ none)
    (violation "verbatim publication identity does not match its answer")
  rejectIf (stream.status ≠ .committed ∨ stream.finishReason ≠ some .stop)
    (violation "verbatim publication requires a complete committed stream")
  events.forM (checkVerbatimEvent spec)
  rejectIf (String.join (events.flatMap (verbatimParts host)) ≠ text ∨ strip text = "")
    (violation "verbatim publication content does not match Provider bytes")
  .ok ((textFrames [] text.toList 0).zipIdx.map (fun frame =>
      .publicText spec.runId spec.turnId spec.outputStreamId spec.invocationId
        ("provider:" ++ spec.invocationId ++ ":verbatim:" ++ toString frame.2) .provider .final
        frame.1 occurredAt) ++
    [streamDraft spec spec.outputStreamId
      ("stream:" ++ spec.outputStreamId ++ ":verbatim:committed") .streamCommitted .final
      .publicEvent
      [("finishReason", .str "stop"), ("contentDigest", .str reference.contentDigest)] occurredAt])

/-! ## Preparing -/

/-- `_VALIDATED_RESULT_SCHEMA`. -/
def validatedResultSchema : String := "purra.run-validated-result/v1"

/-- The drafts that publish the final output of a commit. -/
def finalDrafts (s : RunState) (runId : String) (commit : RunCommit) (occurredAt : Int) :
    Except PyError (List AgentOutputEventDraft) :=
  match commit.finalOutput with
  | none => .ok []
  | some reference => do
    let stream ← requireStream host s reference.outputStreamId
    rejectIf (reference.runId ≠ runId)
      (violation "final publication belongs to another Run")
    verbatimPublicationDrafts host reference stream
      ((s.eventsOf runId).filter fun event =>
        event.outputStreamId = some stream.spec.outputStreamId)
      (commit.finalResponse.getD "") occurredAt

/-- The draft that keeps the validated result of a commit. -/
def validatedDraft (runId : String) (turnId : Option String) (commit : RunCommit)
    (occurredAt : Int) : Option AgentOutputEventDraft :=
  commit.validatedResult.map fun content =>
    { runId
      turnId
      outputStreamId := none
      invocationId := none
      sourceEventKey := "run:" ++ runId ++ ":validated-result"
      source := .runtime
      kind := .runValidatedResult
      channel := .diagnostic
      visibility := .privateEvent
      payload := [("schemaVersion", .str validatedResultSchema), ("content", .str content)]
      occurredAt }

/-- `_terminal_stream_abort_draft`. -/
def terminalStreamAbortDraft (spec : OutputStreamSpec) (status : RunStatus) (occurredAt : Int) :
    AgentOutputEventDraft :=
  streamDraft spec spec.outputStreamId (abortedKey spec.outputStreamId) .streamAborted
    (streamChannel spec) (streamVisibility spec)
    [("errorCode", .str terminalStreamAbortErrorCode), ("cause", .str terminalStreamAbortCause),
      ("runStatus", .str (statusValue status))] occurredAt

/-- The open streams of a Run, in the order of their ids. -/
def openStreams (s : RunState) (runId : String) : List StoredStream :=
  (s.streams.values.mergeSort fun a b =>
      decide (a.spec.outputStreamId ≤ b.spec.outputStreamId)).filter fun stream =>
    stream.spec.runId = runId && stream.status = .opened

/-- The drafts that abort the open streams of a Run that ends. -/
def terminalAbortDrafts (s : RunState) (runId : String) (status : Option RunStatus)
    (occurredAt : Int) : List AgentOutputEventDraft :=
  match status with
  | none => []
  | some status => (openStreams s runId).map fun stream =>
      terminalStreamAbortDraft stream.spec status occurredAt

/-- The event is the end of the operation. -/
def finishes (operationId : Json) (event : AgentOutputEventDraft) : Bool :=
  event.kind = .operationFinished && Json.pyEq (Json.get event.payload "operationId") operationId

/-- The key under which the end of an operation is journalled. -/
def finishedKey (operationId : Json) : String :=
  "operation:" ++ host.py.str operationId ++ ":finished"

/-- The draft that ends an operation with its Run. -/
def operationAbortDraft (runId : String) (status : RunStatus) (occurredAt : Int)
    (started : AgentOutputEvent) (operationId : Json) : AgentOutputEventDraft where
  runId
  turnId := started.turnId
  outputStreamId := none
  invocationId := started.invocationId
  sourceEventKey := finishedKey host operationId
  source := .runtime
  kind := .operationFinished
  channel := .operation
  visibility := started.visibility
  occurredAt
  payload := [("operationId", operationId),
    ("parentOperationId", Json.get started.payload "parentOperationId"),
    ("status", .str (if status = .canceled then "canceled" else "failed")),
    ("errorCode", .str "run_terminalized"),
    ("finishedAt", .str (host.isoformat occurredAt)),
    ("durationMs", .int (max 0 (host.elapsedMs occurredAt started.occurredAt))),
    ("timingSource", .str "recovery_wall_clock"),
    ("display", (Json.field? started.payload "display").getD (.obj []))]

/-- The abort of the operation an event starts, unless it has ended. -/
def operationAbort (events : List AgentOutputEvent) (runId : String) (status : RunStatus)
    (occurredAt : Int) (started : AgentOutputEvent) :
    Except PyError (Option AgentOutputEventDraft) :=
  if started.kind ≠ .operationStarted then .ok none
  else match Json.field? started.payload "operationId" with
    | none => .error (.keyError "operationId")
    | some operationId =>
      if events.any (fun event => finishes operationId event.toAgentOutputEventDraft) = true then
        .ok none
      else .ok (some (operationAbortDraft host runId status occurredAt started operationId))

/-- `operation_aborts`. -/
def operationAborts (s : RunState) (runId : String) (status : RunStatus) (occurredAt : Int) :
    Except PyError (List AgentOutputEventDraft) := do
  let aborts ← (s.eventsOf runId).mapM
    (operationAbort host (s.eventsOf runId) runId status occurredAt)
  .ok (aborts.filterMap id)

/-- `_terminal_stream_abort_events`. -/
def terminalStreamAbortEvents (s : RunState) (runId : String) (status : Option RunStatus) :
    Except PyError (List AgentOutputEvent) :=
  match status with
  | none => .ok []
  | some status => do
    rejectIf (s.streams.values.any (fun stream =>
        stream.spec.runId = runId && stream.status = .opened) = true)
      (violation "terminal Run replay found an open output stream")
    let events := (s.eventsOf runId).filter fun event =>
      event.kind = .streamAborted &&
        Json.pyEq (Json.get event.payload "cause") (.str terminalStreamAbortCause) &&
        Json.pyEq (Json.get event.payload "runStatus") (.str (statusValue status))
    events.forM fun event =>
      match s.streams.get? (event.outputStreamId.getD "") with
      | none => .error (violation "terminal stream abort event does not match stream state")
      | some stream =>
        rejectIf (stream.status ≠ .aborted ∨
            stream.errorCode ≠ some terminalStreamAbortErrorCode)
          (violation "terminal stream abort event does not match stream state")
    .ok events

/-- What a lifecycle commit that is new will append: `drafts` in order, of which `final` publish
into a committed stream and `aborts` abort the streams that are open. -/
structure LifecyclePlan where
  drafts : List AgentOutputEventDraft
  final : List AgentOutputEventDraft
  aborts : List AgentOutputEventDraft

/-- What `_prepare_run_lifecycle` returns. -/
inductive Prepared where
  | replay (events : List AgentOutputEvent)
  | fresh (plan : LifecyclePlan)

/-- `any(_existing_event(state, item) is not None for item in drafts)`. -/
def anyExisting (s : RunState) : List AgentOutputEventDraft → Except PyError Bool
  | [] => .ok false
  | draft :: rest => do
    let existing ← existingEvent host s draft
    match existing with
    | some _ => .ok true
    | none => anyExisting s rest

/-- The drafts of a lifecycle commit are checked in turn, all on the state it finds. -/
def validateAll (writer : Writer) (s : RunState) (final : List AgentOutputEventDraft)
    (controlCancellation : Bool) : Nat → List AgentOutputEventDraft → Except PyError Unit
  | _, [] => .ok ()
  | reading, draft :: rest => do
    let _ ← validateNewEvent host writer reading s draft (final.any draft.pyEq)
      controlCancellation
    validateAll writer s final controlCancellation (reading + 1) rest

/-- How the drafts of a lifecycle commit are appended. -/
def lifecycleMode (final : List AgentOutputEventDraft) (controlCancellation : Bool)
    (draft : AgentOutputEventDraft) : AppendMode where
  allowCommitted := final.any draft.pyEq
  budgetPrechecked := true
  controlCancellation

/-- The events of a lifecycle commit that was made before. -/
def replayLifecycle (s : RunState) (runId : String) (commit : RunCommit) (record : StoredRun)
    (validated : Option AgentOutputEventDraft)
    (related final : List AgentOutputEventDraft) (existing : AgentOutputEvent) :
    Except PyError (List AgentOutputEvent) := do
  rejectIf (record.status ≠ commit.terminalStatus.getD .running)
    (violation "canonical lifecycle event does not match Run state")
  let validatedEvents := (s.eventsOf runId).filter fun event => event.kind = .runValidatedResult
  rejectIf (validated.isNone = true ∧ validatedEvents ≠ [])
    (violation "terminal replay changed the validated result identity")
  rejectIf (validated.isSome = true ∧ validatedEvents.length ≠ 1)
    (violation "terminal replay requires exactly one validated result")
  let replay ← (related ++ validated.toList ++ final).mapM (existingEvent host s)
  rejectIf (replay.any (·.isNone) = true)
    (violation "partial canonical lifecycle commit already exists")
  let terminalAborts ← terminalStreamAbortEvents s runId commit.terminalStatus
  .ok (replay.filterMap id ++ terminalAborts ++ [existing])

/-- The drafts of a lifecycle commit that is new, in the order they are appended. -/
def atomicDrafts (operations related : List AgentOutputEventDraft)
    (validated : Option AgentOutputEventDraft) (final aborts : List AgentOutputEventDraft)
    (lifecycle : AgentOutputEventDraft) : List AgentOutputEventDraft :=
  operations ++ related ++ validated.toList ++ final ++ aborts ++ [lifecycle]

/-- The checks on a lifecycle commit that is new. -/
def planLifecycle (writer : Writer) (s : RunState) (runId : String) (record : StoredRun)
    (commit : RunCommit) (draft : RunLifecycleOutputDraft RunStatus)
    (validated : Option AgentOutputEventDraft) (related final : List AgentOutputEventDraft)
    (lifecycle : AgentOutputEventDraft) (controlCancellation : Bool) :
    Except PyError LifecyclePlan := do
  let aborts := terminalAbortDrafts s runId commit.terminalStatus draft.occurredAt
  let operations ← operationAborts host s runId (commit.terminalStatus.getD .running)
    draft.occurredAt
  let drafts := atomicDrafts operations related validated final aborts lifecycle
  let partly ← anyExisting host s drafts.dropLast
  rejectIf (partly = true) (violation "partial canonical lifecycle commit already exists")
  validateAll host writer s final controlCancellation 1 drafts
  requireProviderOutputBudget host s runId record (totalCost host drafts)
  .ok ⟨drafts, final, aborts⟩

/-- The checks of `_prepare_run_lifecycle` on the status a draft announces. -/
def checkAnnouncedStatus (commit : RunCommit) (draft : RunLifecycleOutputDraft RunStatus) :
    Except PyError Unit := do
  rejectIf (draft.status ≠ commit.terminalStatus.getD .running)
    (violation "run lifecycle output status does not match RunCommit")
  let payloadStatus :=
    strip (host.py.str (Json.orElse (Json.get draft.payload "status") (.str "")))
  rejectIf (payloadStatus ≠ "" ∧ payloadStatus ≠ statusValue draft.status)
    (violation "run lifecycle output payload status does not match draft")

/-- `_prepare_run_lifecycle`. -/
def prepareRunLifecycle (writer : Writer) (s : RunState) (runId : String) (commit : RunCommit)
    (draft : RunLifecycleOutputDraft RunStatus) (related : List AgentOutputEventDraft)
    (controlCancellation : Bool) : Except PyError Prepared := do
  validateRunCommitLifecycle commit
  let final ← finalDrafts host s runId commit draft.occurredAt
  checkAnnouncedStatus host commit draft
  let lifecycle := lifecycleDraft runId draft.turnId draft.sourceEventKey draft.payload
    draft.occurredAt
  let validated := validatedDraft runId draft.turnId commit draft.occurredAt
  let record ← requireRunWrite host writer 0 s runId controlCancellation
  let existing ← existingEvent host s lifecycle
  match existing with
  | some event =>
    (replayLifecycle host s runId commit record validated related final event).map .replay
  | none =>
    (planLifecycle host writer s runId record commit draft validated related final lifecycle
      controlCancellation).map .fresh

/-! ## Applying -/

/-- The stream of an abort is closed. -/
def closeAborted (draft : AgentOutputEventDraft) : Action RunState PyError Unit := do
  let outputStreamId := draft.outputStreamId.getD ""
  let s ← Action.read
  let stream ← Action.ofExcept (requireStream host s outputStreamId)
  Action.write (·.setStream outputStreamId
    { stream with
      status := .aborted
      finishReason := none
      errorCode := some terminalStreamAbortErrorCode })

/-- `apply`, the closure of `_prepare_run_lifecycle`. -/
def applyLifecycle (writer : Writer) (runId : String) (commit : RunCommit)
    (controlCancellation : Bool) (prepared : Prepared) :
    Action RunState PyError (List AgentOutputEvent) :=
  match prepared with
  | .replay events => pure events
  | .fresh plan => do
    onRun host runId (applyCommit host commit)
    let events ← appendAll host writer (lifecycleMode plan.final controlCancellation)
      (plan.drafts.length + 1) plan.drafts
    plan.aborts.forM (closeAborted host)
    pure events

/-- `commit_run_lifecycle`. -/
def commitRunLifecycle (writer : Writer) (runId : String) (commit : RunCommit)
    (draft : RunLifecycleOutputDraft RunStatus) (related : List AgentOutputEventDraft := []) :
    Action RunState PyError (List AgentOutputEvent) := do
  let s ← Action.read
  let prepared ← Action.ofExcept (prepareRunLifecycle host writer s runId commit draft related false)
  applyLifecycle host writer runId commit false prepared

/-! ## Canceling child Runs -/

/-- A Run of the tree: its id, and its parent. -/
structure TreeRun where
  runId : String
  parentRunId : Option String

/-- A prepared cancellation. -/
structure Cancellation where
  runId : String
  commit : RunCommit
  prepared : Prepared

/-- The commit that cancels a Run. -/
def cancellationCommit (runId : String) (record : StoredRun) (reason : String) :
    Except PyError RunCommit := do
  let snapshot ← runSnapshot runId record
  let transition ← RunStateMachine.cancel snapshot reason
  RunCommit.of {
    terminalStatus := some .canceled
    stepUpdates := transition.stepUpdates
    events := transitionEvents transition }

/-- The loop body of `_prepare_child_cancellations`. -/
def prepareCancellation (writer : Writer) (now : Int) (reason : String) (s : RunState)
    (treeRun : TreeRun) : Except PyError (Option Cancellation) :=
  match treeRun.parentRunId, s.runs.get? treeRun.runId with
  | some _, some record =>
    if record.status ≠ .running then .ok none
    else do
      let commit ← cancellationCommit treeRun.runId record reason
      let payload := (commit.events.getLast?.map (·.payload)).getD []
      let prepared ← prepareRunLifecycle host writer s treeRun.runId commit
        { sourceEventKey := "run:" ++ treeRun.runId ++ ":canceled"
          status := .canceled
          payload
          occurredAt := now
          turnId := record.params.turnId } [] true
      .ok (some ⟨treeRun.runId, commit, prepared⟩)
  | _, _ => .ok none

/-- `_prepare_child_cancellations`, and the writes it prepares. -/
def cancelChildren (writer : Writer) (now : Int) (treeRuns : List TreeRun) (reason : String) :
    Action RunState PyError Unit := do
  let s ← Action.read
  let prepared ← Action.ofExcept (treeRuns.mapM (prepareCancellation host writer now reason s))
  (prepared.filterMap id).forM fun cancellation => do
    let _ ← applyLifecycle host writer cancellation.runId cancellation.commit true
      cancellation.prepared
    pure ()

end

end Purra.RunMemory
