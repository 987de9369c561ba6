import Purra.Core.Enums
import Purra.Lib.Grouping
import Purra.Output.Planning

/-!
# Provider output

What becomes of the chunks of a Provider stream: `purra/output/buffering.py`,
`purra/output/planning_projection.py` and the part of `purra/output/processor.py` that
takes a chunk.

* `pendingDeltas` — the deltas of a chunk, at most one of each kind.
* `batchDrafts` — pending deltas as batches, one for each channel and visibility.
* `validateProviderDeltaBatch` — the check every batch passes on its way to the journal.
* `LiveStream` — what the processor holds of a stream, with the journal it appends to.
* `flushLocked`, `acceptProviderChunk` — its operations, when the journal takes what it
  is given.

The bytes of a value's canonical JSON, and the digest made of them, are parameters.
-/

namespace Purra.Output

/-! ## Chunks -/

/-- `ModelFinishReason`. -/
inductive ModelFinishReason where
  | stop | length | toolCalls | filtered | other
  deriving DecidableEq, Repr

/-- `ModelTokenUsage`. -/
structure ModelTokenUsage where
  inputTokens : Nat
  generationTokens : Nat
  totalTokens : Nat
  cachedInputTokens : Nat := 0
  reasoningTokens : Option Nat := none
  deriving DecidableEq, Repr

/-- `ToolCallDelta`. -/
structure ToolCallDelta where
  index : Nat
  id : Option String := none
  type : Option String := none
  name : Option String := none
  argumentsFragment : String := ""
  deriving DecidableEq, Repr

/-- `ModelStreamChunk`. -/
structure ModelStreamChunk where
  contentDelta : String := ""
  reasoningDelta : String := ""
  progressDelta : String := ""
  toolCallDeltas : List ToolCallDelta := []
  finishReason : Option ModelFinishReason := none
  usage : Option ModelTokenUsage := none
  deriving DecidableEq, Repr

/-! ## Deltas -/

/-- `_PendingProviderDelta`. -/
structure PendingProviderDelta where
  sourceChunkIndex : Nat
  sourcePartIndex : Nat
  kind : OutputEventKind
  channel : OutputChannel
  visibility : OutputVisibility
  payload : Json.Object
  occurredAt : Int

namespace PendingProviderDelta

/-- `entry`. -/
def entry (delta : PendingProviderDelta) : Json.Object :=
  [("sourceChunkIndex", .int delta.sourceChunkIndex), ("sourcePartIndex", .int delta.sourcePartIndex),
    ("kind", .str delta.kind.value), ("payload", .obj delta.payload)]

/-- Where a delta is to appear. -/
def destination (delta : PendingProviderDelta) : OutputChannel × OutputVisibility :=
  (delta.channel, delta.visibility)

end PendingProviderDelta

/-- `_content_destination`. -/
def contentDestination (spec : OutputStreamSpec) : OutputChannel × OutputVisibility :=
  match spec.intent with
  | .executionPublic => (.commentary, .publicEvent)
  | .finalPublic => (.final, .publicEvent)
  | .structuredPrivate | .reasoningPrivate => (.diagnostic, .privateEvent)

/-- A tool call's delta, in a payload. -/
def ToolCallDelta.toMapping (delta : ToolCallDelta) : Json :=
  .obj [("index", .int delta.index), ("id", Json.optionalStr delta.id),
    ("type", Json.optionalStr delta.type), ("name", Json.optionalStr delta.name),
    ("argumentsFragment", .str delta.argumentsFragment)]

/-- `pending_deltas`. -/
def pendingDeltas (spec : OutputStreamSpec) (chunk : ModelStreamChunk) (chunkIndex : Nat)
    (occurredAt : Int) : List PendingProviderDelta :=
  let (channel, visibility) := contentDestination spec
  (if chunk.contentDelta = "" then []
    else [⟨chunkIndex, 0, .providerContentDelta, channel, visibility,
      [("delta", .str chunk.contentDelta)], occurredAt⟩]) ++
  (if chunk.reasoningDelta = "" then []
    else [⟨chunkIndex, 1, .providerReasoningDelta, .diagnostic, .diagnostic,
      [("delta", .str chunk.reasoningDelta)], occurredAt⟩]) ++
  (if chunk.toolCallDeltas = [] then []
    else [⟨chunkIndex, 2, .providerToolCallDelta, .diagnostic, .privateEvent,
      [("deltas", .arr (chunk.toolCallDeltas.map ToolCallDelta.toMapping))], occurredAt⟩]) ++
  (if chunk.progressDelta = "" then []
    else [⟨chunkIndex, 3, .providerProgressDelta, .diagnostic, .privateEvent,
      [("delta", .str chunk.progressDelta)], occurredAt⟩])

/-! ## Batches -/

/-- `.value`. -/
def OutputChannel.value : OutputChannel → String
  | commentary => "commentary"
  | final => "final"
  | operation => "operation"
  | lifecycle => "lifecycle"
  | error => "error"
  | diagnostic => "diagnostic"

/-- `.value`. -/
def OutputVisibility.value : OutputVisibility → String
  | publicEvent => "public"
  | privateEvent => "private"
  | diagnostic => "diagnostic"

/-- `PROVIDER_DELTA_BATCH_SCHEMA`. -/
def providerDeltaBatchSchema : String := "purra.provider-delta-batch/v1"

/-- `OutputBatchLimits`: the bounds a buffer is full at. -/
structure OutputBatchLimits where
  maxPayloadBytes : Nat := 16384
  maxFragments : Nat := 64
  payloadBytes_pos : 0 < maxPayloadBytes := by decide
  fragments_pos : 0 < maxFragments := by decide

/-- What is computed from a value's canonical JSON. -/
structure Canonical where
  /-- `len(_canonical_json(value))`. -/
  size : Json → Nat
  /-- `provider_delta_batch_digest(entries)`. -/
  digest : List Json → String

/-- The order of groups: by the chunk and the part of the first delta. -/
def groupBefore (a b : (OutputChannel × OutputVisibility) × List PendingProviderDelta) : Bool :=
  match a.2.head?, b.2.head? with
  | some x, some y => x.sourceChunkIndex < y.sourceChunkIndex ||
      (x.sourceChunkIndex = y.sourceChunkIndex && x.sourcePartIndex ≤ y.sourcePartIndex)
  | _, _ => true

/-- `min` of the chunk indices. -/
def chunkStart (deltas : List PendingProviderDelta) : Nat :=
  ((deltas.map (·.sourceChunkIndex)).min?).getD 0

/-- `max` of the chunk indices. -/
def chunkEnd (deltas : List PendingProviderDelta) : Nat :=
  ((deltas.map (·.sourceChunkIndex)).max?).getD 0

/-- The key of a batch. -/
def batchKey (spec : OutputStreamSpec) (destination : OutputChannel × OutputVisibility)
    (start stop : Nat) : String :=
  "provider-batch:" ++ spec.invocationId ++ ":" ++ destination.1.value ++ ":" ++
    destination.2.value ++ ":" ++ toString start ++ ":" ++ toString stop

section

variable (canonical : Canonical) (spec : OutputStreamSpec)

/-- The batch of a group. -/
def batchDraft (group : (OutputChannel × OutputVisibility) × List PendingProviderDelta) :
    AgentOutputEventDraft where
  runId := spec.runId
  turnId := spec.turnId
  outputStreamId := some spec.outputStreamId
  invocationId := some spec.invocationId
  sourceEventKey := batchKey spec group.1 (chunkStart group.2) (chunkEnd group.2)
  source := .provider
  kind := .providerDeltaBatch
  channel := group.1.1
  visibility := group.1.2
  payload := [("schemaVersion", .str providerDeltaBatchSchema),
    ("sourceChunkStart", .int (chunkStart group.2)), ("sourceChunkEnd", .int (chunkEnd group.2)),
    ("entries", .arr (group.2.map fun delta => .obj delta.entry)),
    ("payloadDigest", .str (canonical.digest (group.2.map fun delta => .obj delta.entry)))]
  occurredAt := (group.2.head?.map (·.occurredAt)).getD 0

/-- `_batch_drafts`. -/
def batchDrafts (entries : List PendingProviderDelta) : List AgentOutputEventDraft :=
  ((groupBy PendingProviderDelta.destination entries).entries.mergeSort groupBefore).map
    (batchDraft canonical spec)

end

/-- `_PROVIDER_DELTA_KINDS`. -/
def OutputEventKind.isProviderDelta : OutputEventKind → Bool
  | providerContentDelta | providerReasoningDelta | providerProgressDelta
  | providerToolCallDelta => true
  | _ => false

/-- `_TEXT_CHANNELS`. -/
def OutputChannel.isText : OutputChannel → Bool
  | commentary | final => true
  | _ => false

/-- `OutputEventKind(value)`. -/
def OutputEventKind.ofValue (value : Json) : Except PyError OutputEventKind :=
  match [streamOpened, providerContentDelta, providerReasoningDelta, providerProgressDelta,
      providerToolCallDelta, providerDeltaBatch, providerUsage, planningProgress, planningDelta,
      agentProgress, modelDiagnostics, streamCommitted, streamAborted, operationStarted,
      operationFinished, runLifecycle, runValidatedResult, tool, domainEffect,
      runtime].find? fun kind => Json.pyEq value (.str kind.value) with
  | some kind => .ok kind
  | none => .error (.valueError "is not a valid OutputEventKind")

section

variable (py : Builtins) (canonical : Canonical)

/-- `isinstance(value, str)`. -/
def isStr (value : Json) : Bool :=
  match value with
  | .str _ => true
  | _ => false

/-- The loop of `_validate_provider_delta_batch` over the entries. -/
def validateEntry (draft : AgentOutputEventDraft) (entry : Json) : Except PyError Nat :=
  match entry with
  | .obj fields => do
    let value ← py.int (Json.get fields "sourceChunkIndex")
    let index ← positiveInt value "source chunk index"
    let kind ← OutputEventKind.ofValue (Json.get fields "kind")
    if kind.isProviderDelta = false then
      .error (.valueError "Provider delta batch contains a non-delta event")
    else match Json.get fields "payload" with
      | .obj payload =>
        if draft.visibility = .publicEvent ∧
            (draft.channel.isText = false ∨ kind ≠ .providerContentDelta ∨
              isStr (Json.get payload "delta") = false) then
          .error (.valueError "public Provider batch may contain only text deltas")
        else .ok index
      | _ => .error (.valueError "Provider delta batch entry payload must be an object")
  | _ => .error (.valueError "Provider delta batch entry must be an object")

/-- `_validate_provider_delta_batch`. -/
def validateProviderDeltaBatch (draft : AgentOutputEventDraft) : Except PyError Unit :=
  if draft.kind ≠ .providerDeltaBatch then .ok ()
  else if draft.source ≠ .provider ∨ draft.outputStreamId.getD "" = "" ∨
      draft.invocationId.getD "" = "" then
    .error (.valueError "Provider delta batch requires Provider stream identity")
  else if Json.pyEq (Json.get draft.payload "schemaVersion") (.str providerDeltaBatchSchema) = false then
    .error (.valueError "unsupported Provider delta batch schema")
  else match Json.get draft.payload "entries" with
    | .arr [] => .error (.valueError "Provider delta batch entries are required")
    | .arr entries => do
      let indices ← entries.mapM (validateEntry py draft)
      if Json.pyEq (Json.get draft.payload "sourceChunkStart") (.int (indices.min?.getD 0)) = false then
        .error (.valueError "Provider delta batch start index does not match entries")
      else if Json.pyEq (Json.get draft.payload "sourceChunkEnd") (.int (indices.max?.getD 0)) = false then
        .error (.valueError "Provider delta batch end index does not match entries")
      else if Json.pyEq (Json.get draft.payload "payloadDigest") (.str (canonical.digest entries)) = false then
        .error (.valueError "Provider delta batch digest does not match entries")
      else .ok ()
    | _ => .error (.valueError "Provider delta batch entries are required")

end

/-! ## The processor -/

/-- `AGENT_PROGRESS_SCHEMA`. -/
def agentProgressSchema : String := "purra.agent-progress/v1"

/-- `_validate_agent_progress_text`. -/
def validateAgentProgressText (text : String) : Except PyError Unit :=
  if text ≠ strip text ∨ text = "" ∨ '\n' ∈ text.toList ∨ '\r' ∈ text.toList ∨ 160 < text.length then
    .error (violation "Provider progress must be one trimmed line within the public limit")
  else .ok ()

/-- What a processor is set up with, and the stream it serves. -/
structure Processor where
  canonical : Canonical
  limits : OutputBatchLimits := {}
  publishProviderProgress : Bool := true
  spec : OutputStreamSpec

/-- What the processor holds of an open stream, and the journal of its Run. -/
structure LiveStream where
  entries : List PendingProviderDelta := []
  payloadBytes : Nat := 0
  timer : Bool := false
  chunkIndex : Nat := 0
  parser : PlanningTextDeltaParser := {}
  journal : List AgentOutputEventDraft := []

/-- What the output policy answers to a chunk: the chunk to accept, and whether its planning
text may be shown. -/
structure Authorization where
  chunk : Option ModelStreamChunk
  planningDelta : Bool := true

namespace Processor

variable (p : Processor)

/-- The stream carries planning text. -/
def planning : Bool := p.spec.outputProtocol = some planningStreamSchema

/-- A draft of the stream. -/
def draft (key : String) (kind : OutputEventKind) (channel : OutputChannel)
    (visibility : OutputVisibility) (payload : Json.Object) (occurredAt : Int) :
    AgentOutputEventDraft where
  runId := p.spec.runId
  turnId := p.spec.turnId
  outputStreamId := some p.spec.outputStreamId
  invocationId := some p.spec.invocationId
  sourceEventKey := key
  source := .provider
  kind
  channel
  visibility
  payload
  occurredAt

/-- `flush_locked`. -/
def flushLocked (s : LiveStream) : LiveStream :=
  if s.entries = [] then { s with timer := false }
  else { s with
    entries := []
    payloadBytes := 0
    timer := false
    journal := s.journal ++ batchDrafts p.canonical p.spec s.entries }

/-- `_append`, of some drafts one after the other. -/
def appendAll (drafts : List AgentOutputEventDraft) (s : LiveStream) : LiveStream :=
  { s with journal := s.journal ++ drafts }

/-- `_has_source`, with the scope it requires. -/
def planningSource (chunk : ModelStreamChunk) : Option PlanningScope :=
  if p.planning = true ∧ chunk.contentDelta ≠ "" then p.spec.planningScope else none

/-- A planning text delta, as a draft. -/
def deltaDraft (scope : PlanningScope) (chunkIndex : Nat) (occurredAt : Int)
    (delta : PlanningTextDelta × Nat) : AgentOutputEventDraft :=
  p.draft
    ("planning-delta:" ++ p.spec.invocationId ++ ":" ++ toString chunkIndex ++ ":" ++
      toString delta.2)
    .planningDelta .commentary .publicEvent
    [("schemaVersion", .str planningStreamSchema), ("operationId", .str scope.operationId),
      ("revision", .int scope.revision), ("attempt", .int p.spec.planningAttempt),
      ("recordIndex", .int delta.1.recordIndex), ("sourceChunkIndex", .int chunkIndex),
      ("sourcePartIndex", .int delta.2), ("textDelta", .str delta.1.text)]
    occurredAt

/-- `PlanningOutputProjection.feed`, and `delta_drafts` of what it gives. -/
def deltaDrafts (chunk : ModelStreamChunk) (allowed : Bool) (deltas : List PlanningTextDelta)
    (chunkIndex : Nat) (occurredAt : Int) : List AgentOutputEventDraft :=
  match p.planningSource chunk with
  | some scope =>
    if allowed = true then (deltas.zipIdx 1).map (p.deltaDraft scope chunkIndex occurredAt) else []
  | none => []

/-- The usage a chunk reports, as a draft. -/
def usageDraft (chunkIndex : Nat) (usage : ModelTokenUsage) (occurredAt : Int) :
    AgentOutputEventDraft :=
  p.draft ("provider:" ++ p.spec.invocationId ++ ":" ++ toString chunkIndex ++ ":usage")
    .providerUsage .diagnostic .privateEvent
    [("inputTokens", .int usage.inputTokens), ("generationTokens", .int usage.generationTokens),
      ("totalTokens", .int usage.totalTokens), ("cachedInputTokens", .int usage.cachedInputTokens),
      ("reasoningTokens", match usage.reasoningTokens with | some n => .int n | none => .null)]
    occurredAt

/-- The progress a chunk reports, as a draft. -/
def progressDraft (chunkIndex : Nat) (text : String) (occurredAt : Int) : AgentOutputEventDraft :=
  p.draft ("agent-progress:" ++ p.spec.invocationId ++ ":" ++ toString chunkIndex)
    .agentProgress .commentary .publicEvent
    [("schemaVersion", .str agentProgressSchema), ("text", .str text),
      ("sourceChunkIndex", .int chunkIndex)]
    occurredAt

/-- The checks of `accept_provider_chunk`: the chunk that is accepted, if one is. -/
def authorize (chunk : ModelStreamChunk) (authorization : Authorization) :
    Except PyError (Option ModelStreamChunk) :=
  match authorization.chunk with
  | none => .ok none
  | some authorized =>
    if authorized.progressDelta ≠ chunk.progressDelta then
      .error (violation "output policy cannot add or rewrite Provider progress")
    else do
      if authorized.progressDelta ≠ "" then
        if p.planning = true then
          .error (violation "planning streams cannot emit agent progress")
        else validateAgentProgressText authorized.progressDelta
      if p.planning = true ∧ authorized ≠ chunk then
        .error (violation "output policy cannot rewrite planning Provider bytes")
      else .ok (some authorized)

/-- `PlanningOutputProjection.feed`. -/
def feedPlanning (parser : PlanningTextDeltaParser) (chunk : ModelStreamChunk) :
    List PlanningTextDelta × PlanningTextDeltaParser :=
  if (p.planningSource chunk).isSome then parser.feed chunk.contentDelta else ([], parser)

/-- The next chunk's deltas are pending: `pending_deltas` and the buffer's `append`. -/
def append (s : LiveStream) (chunk : ModelStreamChunk) (now : Int) : LiveStream :=
  let additions := pendingDeltas p.spec chunk (s.chunkIndex + 1) now
  { s with
    chunkIndex := s.chunkIndex + 1
    entries := s.entries ++ additions
    payloadBytes := s.payloadBytes +
      (additions.map fun delta => p.canonical.size (.obj delta.entry)).sum }

/-- The buffer is full. -/
def bufferFull (s : LiveStream) : Bool :=
  p.limits.maxPayloadBytes ≤ s.payloadBytes || p.limits.maxFragments ≤ s.entries.length

/-- What is journalled behind the batches of a chunk. -/
def chunkDrafts (chunk : ModelStreamChunk) (allowed : Bool) (deltas : List PlanningTextDelta)
    (chunkIndex : Nat) (now : Int) : List AgentOutputEventDraft :=
  p.deltaDrafts chunk allowed deltas chunkIndex now ++
    (chunk.usage.map fun usage => p.usageDraft chunkIndex usage now).toList ++
    if chunk.progressDelta ≠ "" ∧ p.publishProviderProgress = true then
      [p.progressDraft chunkIndex chunk.progressDelta now]
    else []

/-- The deltas are flushed when the chunk asks for it, or left for a timer. -/
def settle (s : LiveStream) (chunk : ModelStreamChunk) (previews : Bool) : LiveStream :=
  if previews = true ∨ chunk.progressDelta ≠ "" ∨ chunk.usage.isSome = true ∨
      chunk.finishReason.isSome = true ∨ p.bufferFull s = true then p.flushLocked s
  else if pendingDeltas p.spec chunk s.chunkIndex 0 ≠ [] then { s with timer := true }
  else s

/-- `accept_provider_chunk`, behind its checks. -/
def take (s : LiveStream) (chunk : ModelStreamChunk) (allowed : Bool) (now : Int) : LiveStream :=
  let (deltas, parser) := p.feedPlanning s.parser chunk
  appendAll (p.chunkDrafts chunk allowed deltas (s.chunkIndex + 1) now)
    (p.settle { p.append s chunk now with parser } chunk (deltas ≠ []))

/-- `accept_provider_chunk`, when the journal takes what it is given. -/
def acceptProviderChunk (s : LiveStream) (chunk : ModelStreamChunk) (authorization : Authorization)
    (now : Int) : Except PyError LiveStream := do
  match ← p.authorize chunk authorization with
  | none => .ok s
  | some authorized => .ok (p.take s authorized authorization.planningDelta now)

end Processor

end Purra.Output
