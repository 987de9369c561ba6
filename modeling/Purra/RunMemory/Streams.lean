import Purra.RunMemory.Runs

/-!
# The output repository

`_InMemoryAgentOutputRepository` of `purra/adapters/memory.py`, but for the lifecycle
commits: opening a Run with its first canonical event, opening and closing streams, and
publishing the text of a committed private stream.  `now` is what `_now()` reads.
-/

namespace Purra.RunMemory

open Contracts Output

/-! ## Drafts -/

/-- `_stream_channel`. -/
def streamChannel (spec : OutputStreamSpec) : OutputChannel :=
  match spec.intent with
  | .finalPublic => .final
  | .executionPublic => .commentary
  | .structuredPrivate | .reasoningPrivate => .diagnostic

/-- `_stream_visibility`. -/
def streamVisibility (spec : OutputStreamSpec) : OutputVisibility :=
  match spec.intent with
  | .finalPublic | .executionPublic => .publicEvent
  | .structuredPrivate | .reasoningPrivate => .privateEvent

/-- An event of the runtime about a stream. -/
def streamDraft (spec : OutputStreamSpec) (outputStreamId sourceEventKey : String)
    (kind : OutputEventKind) (channel : OutputChannel) (visibility : OutputVisibility)
    (payload : Json.Object) (occurredAt : Int) : AgentOutputEventDraft where
  runId := spec.runId
  turnId := spec.turnId
  outputStreamId := some outputStreamId
  invocationId := some spec.invocationId
  sourceEventKey
  source := .runtime
  kind
  channel
  visibility
  payload
  occurredAt

/-- The event that tells a Run's lifecycle. -/
def lifecycleDraft (runId : String) (turnId : Option String) (sourceEventKey : String)
    (payload : Json.Object) (occurredAt : Int) : AgentOutputEventDraft where
  runId
  turnId
  outputStreamId := none
  invocationId := none
  sourceEventKey
  source := .runtime
  kind := .runLifecycle
  channel := .lifecycle
  visibility := .publicEvent
  payload
  occurredAt

/-- The key under which the end of a stream is journalled. -/
def committedKey (outputStreamId : String) : String := "stream:" ++ outputStreamId ++ ":committed"

/-- The key under which the abort of a stream is journalled. -/
def abortedKey (outputStreamId : String) : String := "stream:" ++ outputStreamId ++ ":aborted"

/-- A stream in its new state. -/
def RunState.setStream (s : RunState) (outputStreamId : String) (stream : StoredStream) : RunState :=
  { s with streams := s.streams.set outputStreamId stream }

section

variable (host : Host)

/-- `state.events_by_source_key[key]`. -/
def eventUnder (s : RunState) (key : String) : Except PyError AgentOutputEvent :=
  match s.eventsBySourceKey.get? key with
  | some event => .ok event
  | none => .error (.keyError key)

/-! ## Opening -/

/-- `begin_run_lifecycle`. -/
def beginRunLifecycle (writer : Writer) (now : Int) (params : RunCreateParams)
    (startedEvent : AgentEvent) :
    Action RunState PyError ((String × AgentEvent) × AgentOutputEvent) := do
  let begun ← begin host writer params startedEvent
  let output ← appendEvent host writer 1 (lifecycleDraft begun.1 params.turnId
    ("run:" ++ begun.1 ++ ":running") begun.2.payload now)
  pure (begun, output)

/-- The stream a spec names, by its own id or by its invocation. -/
def boundStream (s : RunState) (spec : OutputStreamSpec) : Except PyError (Option StoredStream) :=
  match s.streams.get? spec.outputStreamId, s.streamByInvocation.get? spec.invocationId with
  | some existing, _ => .ok (some existing)
  | none, none => .ok none
  | none, some outputStreamId =>
    match s.streams.get? outputStreamId with
    | some existing => .ok (some existing)
    | none => .error (.keyError outputStreamId)

/-- The check of `open_stream` on the planning scope of a new stream. -/
def checkPlanningScope (s : RunState) (spec : OutputStreamSpec) : Except PyError Unit :=
  match spec.planningScope with
  | none => .ok ()
  | some scope =>
    rejectIf (scope.runId ≠ spec.runId ∨ planningActive (s.draftsOf spec.runId) scope = false)
      (violation "planning operation is not active")

/-- `open_stream`. -/
def openStream (writer : Writer) (spec : OutputStreamSpec) :
    Action RunState PyError OutputStreamSpec := do
  let s ← Action.read
  let run ← Action.ofExcept (requireRunWrite host writer 0 s spec.runId)
  let bound ← Action.ofExcept (boundStream s spec)
  match bound with
  | some existing =>
    if existing.spec ≠ spec then
      Action.raise (violation "output stream id or invocation id is already bound")
    else if run.status ≠ .running ∧ existing.status = .opened then
      Action.raise (violation "terminal run cannot retain an open output stream")
    else pure spec
  | none =>
    if run.status ≠ .running then
      Action.raise (violation "terminal run cannot open a new output stream")
    else do
      Action.ofExcept (checkPlanningScope s spec)
      Action.write fun s =>
        { s with
          streams := s.streams.set spec.outputStreamId { spec }
          streamByInvocation :=
            s.streamByInvocation.set spec.invocationId spec.outputStreamId }
      pure spec

/-! ## Closing -/

/-- `commit_stream`. -/
def commitStream (writer : Writer) (now : Int) (outputStreamId : String)
    (finishReason : ModelFinishReason) : Action RunState PyError AgentOutputEvent := do
  let s ← Action.read
  let stream ← Action.ofExcept (requireStream host s outputStreamId)
  if stream.status = .committed then
    Action.ofExcept (eventUnder s (committedKey outputStreamId))
  else if stream.status ≠ .opened then
    Action.raise (violation "aborted output stream cannot commit")
  else do
    let event ← appendEvent host writer 0 (streamDraft stream.spec outputStreamId
      (committedKey outputStreamId) .streamCommitted (streamChannel stream.spec)
      (streamVisibility stream.spec) [("finishReason", .str finishReason.value)] now)
    Action.write (·.setStream outputStreamId
      { stream with status := .committed, finishReason := some finishReason })
    pure event

/-- `abort_stream`. -/
def abortStream (writer : Writer) (now : Int) (outputStreamId errorCode : String) :
    Action RunState PyError AgentOutputEvent := do
  let normalizedError := strip errorCode
  if normalizedError = "" then
    Action.raise (.valueError "output stream error code is required")
  else do
    let s ← Action.read
    let stream ← Action.ofExcept (requireStream host s outputStreamId)
    if stream.status = .aborted then
      Action.ofExcept (eventUnder s (abortedKey outputStreamId))
    else if stream.status ≠ .opened then
      Action.raise (violation "committed output stream cannot abort")
    else do
      let event ← appendEvent host writer 0 (streamDraft stream.spec outputStreamId
        (abortedKey outputStreamId) .streamAborted (streamChannel stream.spec)
        (streamVisibility stream.spec) [("errorCode", .str normalizedError)] now)
      Action.write (·.setStream outputStreamId
        { stream with status := .aborted, errorCode := some normalizedError })
      pure event

/-! ## Publishing -/

/-- The kinds and payloads of what an event delivers: its batched entries, or itself. -/
def batchedEntries (event : AgentOutputEvent) : List Json.Object :=
  Json.objects (batchedProviderEntries event)

/-- The event is a tool call of the Provider, or a batch that holds one. -/
def hasToolCall (event : AgentOutputEvent) : Bool :=
  event.kind = .providerToolCallDelta ||
    (batchedEntries event).any fun entry =>
      Json.pyEq (Json.get entry "kind") (.str OutputEventKind.providerToolCallDelta.value)

/-- An event that carries private text of the Provider. -/
def isPrivateContent (event : AgentOutputEvent) : Bool :=
  event.source = .provider && event.channel = .diagnostic && event.visibility = .privateEvent &&
    (event.kind = .providerContentDelta || event.kind = .providerDeltaBatch)

/-- `str(payload.get("delta") or "")`. -/
def deltaText (payload : Json.Object) : String :=
  host.py.str (Json.orElse (Json.get payload "delta") (.str ""))

/-- The text an event carries. -/
def contentParts (event : AgentOutputEvent) : List String :=
  if event.kind = .providerContentDelta then [deltaText host event.payload]
  else ((batchedEntries event).filter fun entry =>
      Json.pyEq (Json.get entry "kind") (.str OutputEventKind.providerContentDelta.value)).map
    fun entry => deltaText host ((Json.fields? (Json.get entry "payload")).getD [])

/-- What a promotion of private text turns it into. -/
structure Promotion where
  word : String
  output : String
  channel : OutputChannel
  /-- Whether the stream must hold a tool call, or may not hold one. -/
  toolCall : Bool
  mismatch : String

/-- The promotion to commentary. -/
def commentaryPromotion : Promotion :=
  ⟨"commentary", "commentary", .commentary, true, "commentary publication requires a Provider tool call"⟩

/-- The promotion to final output. -/
def finalPromotion : Promotion :=
  ⟨"final", "final output", .final, false, "final publication rejects Provider tool calls"⟩

/-- The two events a publication appends. -/
def publicationDrafts (promotion : Promotion) (stream : StoredStream) (outputStreamId : String)
    (now : Int) (content : String) (occurredAt : Int) :
    AgentOutputEventDraft × AgentOutputEventDraft :=
  (.publicText stream.spec.runId stream.spec.turnId outputStreamId stream.spec.invocationId
      ("provider:" ++ stream.spec.invocationId ++ ":" ++ promotion.word) .provider
      promotion.channel content occurredAt,
    streamDraft stream.spec outputStreamId
      ("stream:" ++ outputStreamId ++ ":" ++ promotion.word ++ ":committed")
      .streamCommitted promotion.channel .publicEvent
      [("finishReason", .str ((stream.finishReason.map (·.value)).getD ""))] now)

/-- The checks of a publication, and the drafts it appends; `none` when there is no text. -/
def preparePublication (promotion : Promotion) (s : RunState) (now : Int)
    (outputStreamId : String) :
    Except PyError (Option (AgentOutputEventDraft × AgentOutputEventDraft)) := do
  let stream ← requireStream host s outputStreamId
  rejectIf (stream.spec.outputProtocol ≠ none)
    (violation ("planning streams cannot be promoted to " ++ promotion.word))
  rejectIf (stream.status ≠ .committed)
    (violation ("only a committed model stream can publish " ++ promotion.output))
  rejectIf (stream.spec.intent ≠ .structuredPrivate)
    (violation ("only private model content can be promoted to " ++ promotion.word))
  let scopedEvents := (s.eventsOf stream.spec.runId).filter fun event =>
    event.outputStreamId = some outputStreamId
  rejectIf (scopedEvents.any hasToolCall ≠ promotion.toolCall) (violation promotion.mismatch)
  let contentEvents := scopedEvents.filter isPrivateContent
  let content := String.join (contentEvents.flatMap (contentParts host))
  match contentEvents with
  | [] => .ok none
  | event :: _ =>
    .ok (if strip content = "" then none
      else some (publicationDrafts promotion stream outputStreamId now content event.occurredAt))

/-- `publish_stream_content_as_commentary` and `publish_stream_content_as_final`. -/
def publishStreamContent (promotion : Promotion) (writer : Writer) (now : Int)
    (outputStreamId : String) : Action RunState PyError (List AgentOutputEvent) := do
  let s ← Action.read
  let drafts ← Action.ofExcept (preparePublication host promotion s now outputStreamId)
  match drafts with
  | none => pure []
  | some (text, closing) => do
    let published ← appendEvent host writer 0 text { allowCommitted := true }
    let closed ← appendEvent host writer 1 closing { allowCommitted := true }
    pure [published, closed]

end

end Purra.RunMemory
