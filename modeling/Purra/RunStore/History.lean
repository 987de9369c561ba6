import Purra.RunStore.Contracts

/-!
# The journal of a Run

How the store reads and extends the journals (`eventCount`, `historyEvents`, `sourceEvent`), and
what an event that shows planning has to agree with (`validatePlanningProjection`).

A Run's journal is the list it holds, after the part of it that was left where it is stored when
there is a `DeferredHistory`.
-/

namespace Purra.RunStore

/-! ## Runs and journals -/

/-- A Run that was not found. -/
def noRun : StoredRun where
  runId := ""
  rootRunId := ""
  agentId := ""
  parentRunId := none
  leaseOwnerId := none
  leaseEpoch := none
  snapshot :=
    { runId := "", createdAt := "", updatedAt := "", deadlineAt := none, budgets := {}
      preset := [] }

namespace State

/-- The Run of an id. -/
def run (s : State) (runId : String) : StoredRun := (s.runs.get? runId).getD noRun

/-- A Run is changed. -/
def setRun (s : State) (runId : String) (f : StoredRun → StoredRun) : State :=
  match s.runs.get? runId with
  | some run => { s with runs := s.runs.set runId (f run) }
  | none => s

/-- The journal of a Root, as far as it is held. -/
def rootJournal (s : State) (rootRunId : String) : List Event :=
  (s.rootEvents.get? rootRunId).getD []

/-- The events of a Root by their source keys, as far as they are held. -/
def rootSources (s : State) (rootRunId : String) : Dict String Event :=
  (s.rootEventsBySourceKey.get? rootRunId).getD Dict.empty

/-- The events a Run or its Root holds. -/
def pending (s : State) (runId : String) (root : Bool) : List Event :=
  if root then s.rootJournal (s.run runId).rootRunId else (s.run runId).events

/-- `rootBySourceKey`, or `bySourceKey`. -/
def sources (s : State) (runId : String) (root : Bool) : Dict String Event :=
  if root then s.rootSources (s.run runId).rootRunId else (s.run runId).bySourceKey

end State

/-- `eventCount`. -/
def eventCount (s : State) (runId : String) (root : Bool := false) : Nat :=
  let deferred := match s.deferredHistories.get? runId with
    | some history => if root then history.rootCount else history.count
    | none => 0
  deferred + (s.pending runId root).length

/-- The loop of `historyEvents` over a journal that was read: the events of each Run it met, unless
one of them is out of place. -/
def countEvents (run : StoredRun) (root : Bool) :
    Nat → Dict String Nat → List Event → Option (Dict String Nat)
  | _, counts, [] => some counts
  | index, counts, event :: events =>
    let count := (counts.get? event.runId).getD 0 + 1
    if event.rootRunId ≠ run.rootRunId ∨ (root = false ∧ event.runId ≠ run.runId) ∨
        event.sequence ≠ count ∨ (root = true ∧ event.rootSequence ≠ index + 1) then none
    else countEvents run root (index + 1) (counts.set event.runId count) events

/-- The checks of `historyEvents` on a journal that was read. -/
def checkSaved (run : StoredRun) (root : Bool) (history : DeferredHistory) (saved : List Event) :
    Except StoreError Unit :=
  if saved.length ≠ (if root then history.rootCount else history.count) then
    .error (.type "incomplete output journal")
  else match countEvents run root 0 Dict.empty saved with
    | none => .error (.type "invalid output journal sequence")
    | some counts =>
      if root = true ∧ ∃ entry ∈ history.journal.counts.entries,
          entry.2 ≠ (counts.get? entry.1).getD 0 then
        .error (.type "incomplete output journal")
      else .ok ()

/-- A journal that was read is kept. -/
def remember (runId : String) (root : Bool) (history : DeferredHistory) (saved : List Event)
    (s : State) : State :=
  let loaded := if root then { history with loadedRoot := some saved }
    else { history with loadedRun := some saved }
  { s with deferredHistories := s.deferredHistories.set runId loaded }

/-- `historyEvents`. -/
def historyEvents (runId : String) (root : Bool := false) : Act (List Event) := do
  let s ← .read
  match s.deferredHistories.get? runId with
  | none => pure (s.pending runId root)
  | some history =>
    match (if root then history.loadedRoot else history.loadedRun) with
    | some saved => pure (saved ++ s.pending runId root)
    | none =>
      let saved := if root then history.journal.readRoot else history.journal.readRun runId
      .ofExcept (checkSaved (s.run runId) root history saved)
      .write (remember runId root history saved)
      pure (saved ++ s.pending runId root)

/-- The checks of `sourceEvent` on an event that was found. -/
def foreign (run : StoredRun) (history : DeferredHistory) (key : String) (event : Event) : Prop :=
  event.sourceKey ≠ key ∨ event.rootRunId ≠ run.rootRunId ∨
    ¬ isSafeInteger event.sequence ∨ event.sequence < 1 ∨
    (history.journal.counts.get? event.runId).getD 0 < event.sequence ∨
    ¬ isSafeInteger event.rootSequence ∨ event.rootSequence < 1 ∨
    history.rootCount < event.rootSequence

instance (run : StoredRun) (history : DeferredHistory) (key : String) (event : Event) :
    Decidable (foreign run history key event) := inferInstanceAs (Decidable (_ ∨ _))

/-- `cache.set(key, event)`. -/
def cacheSource (runId : String) (root : Bool) (key : String) (event : Event) (s : State) : State :=
  if root then
    let rootRunId := (s.run runId).rootRunId
    let sources := (s.rootSources rootRunId).set key event
    { s with rootEventsBySourceKey := s.rootEventsBySourceKey.set rootRunId sources }
  else s.setRun runId fun run => { run with bySourceKey := run.bySourceKey.set key event }

/-- `sourceEvent`. -/
def sourceEvent (runId key : String) (root : Bool := true) : Act (Option Event) := do
  let s ← .read
  match (s.sources runId root).get? key with
  | some event => pure (some event)
  | none =>
    match s.deferredHistories.get? runId with
    | none => pure none
    | some history =>
      match history.journal.findSource key with
      | none => pure none
      | some event =>
        throwIf (foreign (s.run runId) history key event)
          (.type "invalid output journal identity")
        if root = false ∧ event.runId ≠ runId then pure none
        else do
          .write (cacheSource runId root key event)
          pure (some event)

/-! ## Reading payloads -/

/-- Reading a property of what may be undefined. -/
def property (value : Option Json) (key : String) : Except StoreError (Option Json) :=
  match value with
  | none | some .null => .error (.type "Cannot read properties of undefined or null")
  | some (.obj fields) => .ok (Json.field? fields key)
  | some _ => .ok none

/-- A property of a payload. -/
def Event.field (event : Event) (key : String) : Option Json := Json.field? event.payload key

/-- A property of a payload. -/
def CopiedDraft.field (draft : CopiedDraft) (key : String) : Option Json :=
  Json.field? draft.payload key

/-- `typeof value === "string"`. -/
def asText : Option Json → Option String
  | some (.str s) => some s
  | _ => none

/-- `Number.isSafeInteger(value)`. -/
def asSafeInteger : Option Json → Option Int
  | some (.int n) => if isSafeInteger n then some n else none
  | _ => none

/-- An integer, to compare with. -/
def asInteger : Option Json → Option Int
  | some (.int n) => some n
  | _ => none

/-- `String(value)`. -/
def display (host : Host) : Option Json → String
  | some value => host.text value
  | none => "undefined"

/-- `text.length`. -/
def utf16Length (text : String) : Nat :=
  (text.toList.map fun c => if 65536 ≤ c.toNat then 2 else 1).sum

/-- `Object.keys(payload).sort().join(",")`. -/
def joinedKeys (payload : Json.Object) : String :=
  String.intercalate "," ((payload.map Prod.fst).mergeSort fun a b => decide (a ≤ b))

/-- `events.flatMap((event) => event.payload.entries)`. -/
def entriesOf (events : List Event) : List (Option Json) :=
  events.flatMap fun event => match event.field "entries" with
    | some (.arr items) => items.map some
    | other => [other]

/-- `entry.kind === kind`. -/
def hasKind (kind : String) (entry : Option Json) : Except StoreError Bool := do
  let value ← property entry "kind"
  pure (asText value = some kind)

/-- `entry.payload.delta`. -/
def deltaOf (entry : Option Json) : Except StoreError (Option Json) := do
  let payload ← property entry "payload"
  property payload "delta"

/-- An element of `join("")`. -/
def joinText (host : Host) : Option Json → String
  | none | some .null => ""
  | some value => host.text value

/-- The text the Provider sent in these events. -/
def contentOf (host : Host) (events : List Event) : Except StoreError String := do
  let entries ← (entriesOf events).filterM (hasKind "provider.content_delta")
  let deltas ← entries.mapM deltaOf
  pure (String.join (deltas.map (joinText host)))

/-! ## Planning projections -/

/-- `PLANNING_STREAM_SCHEMA`. -/
def planningStreamSchema : String := "purra.planning-stream/v1"

/-- `planning_projection_invalid`. -/
def projectionError (message : String) : StoreError := .agent "planning_projection_invalid" message

/-- `agent_progress_invalid`. -/
def progressError : StoreError :=
  .agent "agent_progress_invalid" "Agent progress lacks exact persisted Provider authority"

/-- `requirePlanningOperation`, on the history of the Run. -/
def checkPlanningOperation (history : List Event) (operationId : String) :
    Except StoreError Unit :=
  let events := history.filter fun event =>
    asText (event.field "operationId") = some operationId ∧
      (event.kind = .operationStarted ∨ event.kind = .operationFinished)
  match events.getLast? with
  | some event =>
    if event.kind ≠ .operationStarted ∨ asText (event.field "kind") ≠ some "planning" then
      .error (.agent "planning_scope_conflict" "Planning operation is not active")
    else .ok ()
  | none => .error (.agent "planning_scope_conflict" "Planning operation is not active")

/-- `requirePlanningOperation`. -/
def requirePlanningOperation (runId operationId : String) : Act Unit := do
  let history ← historyEvents runId
  .ofExcept (checkPlanningOperation history operationId)

/-- The Provider's content in the entries of a batch, and nothing else. -/
def contentEntry : Json → Bool
  | .obj fields => asText (Json.field? fields "kind") = some "provider.content_delta"
  | _ => false

/-- A `provider.delta_batch` that is not private. -/
def checkDeltaBatch (run : StoredRun) (draft : CopiedDraft) : Except StoreError Unit :=
  let error := projectionError "Private or unattributed Provider bytes cannot be public"
  match (asText (draft.field "invocationId")).bind run.invocationReceipts.get?,
      draft.field "entries" with
  | some receipt, some (.arr entries) =>
    if receipt.outputProtocol = some planningStreamSchema ∨
        asText (draft.field "source") ≠ some "provider" ∨ entries.any (¬ contentEntry ·) then
      .error error
    else .ok ()
  | _, _ => .error error

/-- The events that hold what the Provider sent for an invocation. -/
def providerBatches (history : List Event) (invocationId : String) : List Event :=
  history.filter fun event => event.kind = .providerDeltaBatch ∧
    asText (event.field "invocationId") = some invocationId

/-- The private ones among some events. -/
def privateOnes (events : List Event) : List Event := events.filter (·.visibility = .priv)

/-- Commentary on an invocation that names the Provider as its source. -/
def checkCommentary (host : Host) (run : StoredRun) (draft : CopiedDraft) (history : List Event)
    (invocationId : String) : Except StoreError Unit := do
  let error := projectionError "Auto planning commentary lacks Provider authority"
  let completion := history.find? fun event => event.kind = .modelCompleted ∧
    event.sourceKey = "invocation:" ++ invocationId ++ ":completion"
  let streamedText ← contentOf host (privateOnes (providerBatches history invocationId))
  let providerText := if streamedText ≠ "" then some streamedText
    else completion.bind fun event => asText (event.field "content")
  match run.invocationReceipts.get? invocationId, asText (draft.field "text") with
  | some receipt, some text =>
    if receipt.outputProtocol = some planningStreamSchema ∨ trim text = "" ∨
        providerText ≠ some text ∨ draft.channel ≠ .commentary ∨
        draft.sourceKey ≠ "auto-planning-intent:" ++ invocationId ∨
        joinedKeys draft.payload ≠ "invocationId,source,text" then .error error
    else .ok ()
  | _, _ => .error error

/-- The delta of an entry of a kind, for a chunk. -/
def chunkEntry (kind : String) (index : Int) (entry : Option Json) : Except StoreError Bool := do
  if ← hasKind kind entry then
    let chunk ← property entry "sourceChunkIndex"
    pure (asInteger chunk = some index)
  else pure false

/-- The progress the Provider sent in a chunk of an invocation. -/
def progressText (history : List Event) (invocationId : String) (index : Int) :
    Except StoreError (Option Json) := do
  let entries := entriesOf (privateOnes (providerBatches history invocationId))
  match ← entries.findM? (chunkEntry "provider.progress_delta" index) with
  | some entry => deltaOf entry
  | none => pure none

/-- `agent.progress` of a chunk of an invocation. -/
def checkAgentProgress (run : StoredRun) (draft : CopiedDraft) (history : List Event)
    (invocationId : String) (index : Int) : Except StoreError Unit := do
  let sourceText ← progressText history invocationId index
  match run.invocationReceipts.get? invocationId, asText (draft.field "text") with
  | some receipt, some text =>
    if receipt.invocationId ∉ run.openInvocations ∨
        receipt.outputProtocol = some planningStreamSchema ∨
        asText (draft.field "schemaVersion") ≠ some "purra.agent-progress/v1" ∨
        asText (draft.field "source") ≠ some "provider" ∨ draft.channel ≠ .commentary ∨
        trim text ≠ text ∨ text = "" ∨ '\n' ∈ text.toList ∨ '\r' ∈ text.toList ∨
        160 < utf16Length text ∨ index < 1 ∨ asText sourceText ≠ some text ∨
        draft.sourceKey ≠ "agent-progress:" ++ invocationId ++ ":" ++ toString index ∨
        joinedKeys draft.payload ≠ "invocationId,schemaVersion,source,sourceChunkIndex,text" then
      .error progressError
    else .ok ()
  | _, _ => .error progressError

/-- What a planning event has to say of itself: that it is the Provider's, and for which planning
operation and attempt. -/
def planningScopeOf (run : StoredRun) (draft : CopiedDraft) (error : StoreError) :
    Except StoreError (String × PlanningScope) :=
  match (asText (draft.field "invocationId")).bind run.invocationReceipts.get? with
  | some receipt =>
    match receipt.planningScope with
    | some scope =>
      if receipt.invocationId ∉ run.openInvocations ∨
          receipt.outputProtocol ≠ some planningStreamSchema ∨
          asText (draft.field "schemaVersion") ≠ some planningStreamSchema ∨
          asText (draft.field "source") ≠ some "provider" ∨ draft.channel ≠ .commentary ∨
          asText (draft.field "operationId") ≠ some scope.operationId ∨
          asInteger (draft.field "revision") ≠ some scope.revision ∨
          asInteger (draft.field "attempt") ≠ some (receipt.planningAttempt.getD 0) then
        .error error
      else .ok (receipt.invocationId, scope)
    | none => .error error
  | none => .error error

/-- The key of the batch a planning delta is taken from. -/
def batchKey (host : Host) (draft : CopiedDraft) : String :=
  let index := display host (draft.field "sourceChunkIndex")
  "provider-batch:" ++ display host (draft.field "invocationId") ++ ":model:private:" ++ index ++
    ":" ++ index

/-- An entry that holds the delta of a chunk. -/
def deltaEntry (index : Int) (delta : String) (entry : Json) : Except StoreError Bool := do
  if ← chunkEntry "provider.content_delta" index (some entry) then
    let value ← deltaOf (some entry)
    pure (asText value = some delta)
  else pure false

/-- `planning.delta`, with the batch it is taken from. -/
def checkPlanningDelta (run : StoredRun) (draft : CopiedDraft) (source : Option Event) :
    Except StoreError String := do
  let error := projectionError "Planning delta differs from persisted Provider chunk"
  let (invocationId, scope) ← planningScopeOf run draft error
  match asSafeInteger (draft.field "sourceChunkIndex"), asText (draft.field "textDelta"),
      source with
  | some index, some delta, some event =>
    if index < 0 ∨ delta = "" ∨
        joinedKeys draft.payload ≠ "attempt,invocationId,operationId,revision,schemaVersion," ++
          "source,sourceChunkIndex,textDelta" ∨
        draft.sourceKey ≠ "planning-delta:" ++ invocationId ++ ":" ++ toString index ∨
        event.runId ≠ run.runId ∨ event.kind ≠ .providerDeltaBatch ∨ event.visibility ≠ .priv ∨
        asText (event.field "invocationId") ≠ some invocationId then .error error
    else match event.field "entries" with
      | some (.arr entries) =>
        if ← entries.anyM (deltaEntry index delta) then pure scope.operationId
        else .error error
      | none | some .null => .error error
      | some _ => .error (.type "entries?.some is not a function")
  | _, _, _ => .error error

/-- `planning.progress`, before its span is compared. -/
def checkPlanningProgress (host : Host) (run : StoredRun) (draft : CopiedDraft) :
    Except StoreError (String × String) := do
  let error := projectionError "Planning projection lacks Provider authority"
  let (invocationId, scope) ← planningScopeOf run draft error
  if joinedKeys draft.payload ≠ "attempt,invocationId,operationId,recordIndex,revision," ++
        "schemaVersion,source,sourceEnd,sourceStart,text" ∨
      draft.sourceKey ≠ "planning:" ++ invocationId ++ ":" ++
        display host (draft.field "recordIndex") then .error error
  else pure (invocationId, scope.operationId)

/-- The record a `planning.progress` shows is one the Provider sent. -/
def checkSpan (host : Host) (draft : CopiedDraft) (history : List Event) (invocationId : String) :
    Except StoreError Unit := do
  let text ← contentOf host (providerBatches history invocationId)
  match asSafeInteger (draft.field "sourceStart"), asSafeInteger (draft.field "sourceEnd") with
  | some start, some stop =>
    if start < 0 ∨ stop ≤ start ∨ (text.utf8ByteSize : Int) < stop then
      .error (projectionError "Planning projection source span is invalid")
    else
      let error := projectionError "Planning projection differs from persisted Provider bytes"
      match (host.planningRecords text stop.toNat).bind fun records => records.find? fun record =>
          asInteger (draft.field "recordIndex") = some record.recordIndex with
      | some record =>
        if asText (draft.field "text") ≠ some record.text ∨ record.sourceStart ≠ start ∨
            record.sourceEnd ≠ stop then .error error
        else .ok ()
      | none => .error error
  | _, _ => .error (projectionError "Planning projection source span is invalid")

/-- `validatePlanningProjection`. -/
def validatePlanningProjection (host : Host) (runId : String) (draft : CopiedDraft) :
    Act Unit := do
  let s ← .read
  let run := s.run runId
  match draft.kind with
  | .providerDeltaBatch =>
    if draft.visibility ≠ .priv then .ofExcept (checkDeltaBatch run draft) else pure ()
  | .commentary =>
    if asText (draft.field "source") ≠ some "provider" then pure ()
    else match asText (draft.field "invocationId") with
      | some invocationId => do
        let history ← historyEvents runId
        .ofExcept (checkCommentary host run draft history invocationId)
      | none => .raise (projectionError "Auto planning commentary lacks Provider authority")
  | .agentProgress =>
    match asText (draft.field "invocationId"),
        asSafeInteger (draft.field "sourceChunkIndex") with
    | some invocationId, some index => do
      let history ← historyEvents runId
      .ofExcept (checkAgentProgress run draft history invocationId index)
    | _, _ => .raise progressError
  | .planningDelta => do
    let source ← sourceEvent runId (batchKey host draft)
    let operationId ← .ofExcept (checkPlanningDelta run draft source)
    requirePlanningOperation runId operationId
  | .planningProgress => do
    let (invocationId, operationId) ← .ofExcept (checkPlanningProgress host run draft)
    requirePlanningOperation runId operationId
    let history ← historyEvents runId
    .ofExcept (checkSpan host draft history invocationId)
  | _ => pure ()

end Purra.RunStore
