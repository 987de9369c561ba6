import Purra.RunMemory.Records

/-!
# The event journal

How `purra/adapters/memory.py` appends canonical events: `existingEvent` looks an event up
under its source key, `validateNewEvent` checks a new one against its Run and its stream,
`requireProviderOutputBudget` keeps the Provider's output of a whole root within limits,
and `appended` is the write.  `appendEvents` checks a whole batch on the state it finds
and appends it event by event.
-/

namespace Purra.RunMemory

open Contracts Output

/-- `_event_matches_draft`. -/
def eventMatchesDraft (event : AgentOutputEvent) (draft : AgentOutputEventDraft) : Bool :=
  event.runId = draft.runId && event.turnId = draft.turnId &&
    event.outputStreamId = draft.outputStreamId && event.invocationId = draft.invocationId &&
    event.source = draft.source && event.kind = draft.kind && event.channel = draft.channel &&
    event.visibility = draft.visibility && Json.objectEq event.payload draft.payload

/-- `_PROVIDER_OUTPUT_BUDGET_KINDS`. -/
def providerOutputBudgetKinds : List OutputEventKind :=
  [.providerContentDelta, .providerReasoningDelta, .providerToolCallDelta, .providerDeltaBatch,
    .planningProgress, .planningDelta]

section

variable (host : Host)

/-- `_existing_event`. -/
def existingEvent (s : RunState) (draft : AgentOutputEventDraft) :
    Except PyError (Option AgentOutputEvent) :=
  match s.eventsBySourceKey.get? draft.sourceEventKey with
  | none => .ok none
  | some event =>
    if eventMatchesDraft event draft = false then
      .error (violation ("source event key " ++ host.py.repr (.str draft.sourceEventKey) ++
        " is already bound to a different event"))
    else .ok (some event)

/-- `_provider_output_cost`. -/
def providerOutputCost (draft : AgentOutputEventDraft) : Nat × Nat :=
  if draft.kind ∉ providerOutputBudgetKinds then (0, 0) else (1, host.payloadBytes draft.payload)

/-- The costs of several drafts together. -/
def totalCost (drafts : List AgentOutputEventDraft) : Nat × Nat :=
  ((drafts.map fun draft => (providerOutputCost host draft).1).sum,
    (drafts.map fun draft => (providerOutputCost host draft).2).sum)

/-- A budget of the root was exceeded. -/
def budgetExceeded (message budgetKind : String) : PyError :=
  .contractViolation message "runtime_budget_exceeded" [("budgetKind", budgetKind)]

/-- `_require_provider_output_budget`. -/
def requireProviderOutputBudget (s : RunState) (runId : String) (run : StoredRun)
    (cost : Nat × Nat) : Except PyError Unit := do
  let rootRunId := run.scopeId runId
  let runs := s.scopeRuns rootRunId
  let root ← requireRun host s rootRunId
  let limits := root.params.runtimeLimits
  rejectIf (limits.maxProviderOutputEvents < (runs.map (·.providerOutputEvents)).sum + cost.1)
    (budgetExceeded "Root Run Provider output event budget was exceeded" "provider_output_events")
  rejectIf (limits.maxProviderOutputBytes < (runs.map (·.providerOutputBytes)).sum + cost.2)
    (budgetExceeded "Root Run Provider output byte budget was exceeded" "provider_output_bytes")

/-- The checks of `_validate_new_event` on the stream of a draft. -/
def validateStream (s : RunState) (draft : AgentOutputEventDraft) (allowCommitted : Bool) :
    Except PyError Unit :=
  match draft.outputStreamId with
  | none => .ok ()
  | some outputStreamId => do
    let stream ← requireStream host s outputStreamId
    rejectIf (stream.status ≠ .opened ∧ ¬ (allowCommitted = true ∧ stream.status = .committed))
      (violation "canonical event requires an open output stream")
    rejectIf (stream.spec.runId ≠ draft.runId ∨ stream.spec.turnId ≠ draft.turnId ∨
        some stream.spec.invocationId ≠ draft.invocationId)
      (violation "canonical event does not match its output stream")
    rejectIf (stream.spec.outputProtocol ≠ none ∧ draft.visibility = .publicEvent ∧
        draft.kind.isPlanning = false)
      (violation "planning bytes cannot be published as ordinary text")

/-- The checks of `_validate_new_event` on a planning event. -/
def validatePlanning (s : RunState) (run : StoredRun) (draft : AgentOutputEventDraft) :
    Except PyError Unit :=
  if draft.kind.isPlanning = false then .ok ()
  else if run.status ≠ .running then
    .error (violation "terminal Run cannot accept planning progress")
  else
    let stream := draft.outputStreamId.bind s.streams.get?
    validatePlanningProjection host.py host.loads (stream.map (·.spec)) (s.draftsOf draft.runId)
      draft

/-- `_validate_new_event`. -/
def validateNewEvent (writer : Writer) (reading : Nat) (s : RunState)
    (draft : AgentOutputEventDraft) (allowCommitted controlCancellation : Bool) :
    Except PyError StoredRun := do
  let run ← requireRunWrite host writer reading s draft.runId controlCancellation
  validateStream host s draft allowCommitted
  validatePlanning host s run draft
  rejectIf (¬ (draft.kind = .domainEffect ↔ draft.source = .domain))
    (violation "domain effect events require domain source and kind")
  .ok run

/-! ## Appending -/

/-- The event a draft of `run` becomes: the next one of its Run, and of its root. -/
def RunState.stamped (s : RunState) (draft : AgentOutputEventDraft) (run : StoredRun) :
    AgentOutputEvent :=
  { draft with
    sequence := (s.sequences.get? draft.runId).getD 0 + 1
    rootRunId := run.scopeId draft.runId
    agentId := run.params.agentId
    parentRunId := run.params.parentRunId
    rootSequence := (s.rootSequences.get? (run.scopeId draft.runId)).getD 0 + 1 }

/-- The writes of `_append_event`. -/
def RunState.appended (s : RunState) (draft : AgentOutputEventDraft) (run : StoredRun) :
    RunState :=
  let event := s.stamped draft run
  let cost := providerOutputCost host draft
  { s with
    sequences := s.sequences.set draft.runId event.sequence
    rootSequences := s.rootSequences.set event.rootRunId event.rootSequence
    outputEvents := s.outputEvents.set draft.runId (s.eventsOf draft.runId ++ [event])
    rootOutputEvents :=
      s.rootOutputEvents.set event.rootRunId (s.rootEventsOf event.rootRunId ++ [event])
    eventsBySourceKey := s.eventsBySourceKey.set draft.sourceEventKey event
    runs := s.runs.set draft.runId { run with
      providerOutputEvents := run.providerOutputEvents + cost.1
      providerOutputBytes := run.providerOutputBytes + cost.2 } }

/-- How `_append_event` is called. -/
structure AppendMode where
  allowCommitted : Bool := false
  budgetPrechecked : Bool := false
  controlCancellation : Bool := false

/-- The checks of `_append_event` on a draft that is new. -/
def checkNewEvent (writer : Writer) (reading : Nat) (s : RunState) (draft : AgentOutputEventDraft)
    (mode : AppendMode) : Except PyError StoredRun := do
  let run ← validateNewEvent host writer reading s draft mode.allowCommitted
    mode.controlCancellation
  if mode.budgetPrechecked = true then .ok run
  else do
    requireProviderOutputBudget host s draft.runId run (providerOutputCost host draft)
    .ok run

/-- `_append_event`. -/
def appendEvent (writer : Writer) (reading : Nat) (draft : AgentOutputEventDraft)
    (mode : AppendMode := {}) : Action RunState PyError AgentOutputEvent := fun s =>
  match existingEvent host s draft with
  | .error e => (.error e, s)
  | .ok (some event) => (.ok event, s)
  | .ok none =>
    match checkNewEvent host writer reading s draft mode with
    | .error e => (.error e, s)
    | .ok run => (.ok (s.stamped draft run), s.appended host draft run)

/-- The drafts of a batch that are new, each checked on the state the batch finds. -/
def pendingDrafts (writer : Writer) (s : RunState) :
    Nat → List AgentOutputEventDraft → Except PyError (List AgentOutputEventDraft)
  | _, [] => .ok []
  | reading, draft :: rest => do
    let existing ← existingEvent host s draft
    match existing with
    | some _ => pendingDrafts writer s (reading + 1) rest
    | none => do
      let _ ← validateNewEvent host writer reading s draft false false
      let pending ← pendingDrafts writer s (reading + 1) rest
      .ok (draft :: pending)

/-- The checks of `_append_events` in front of its appends. -/
def precheckBatch (writer : Writer) (s : RunState) (first : AgentOutputEventDraft)
    (rest : List AgentOutputEventDraft) : Except PyError Unit := do
  let drafts := first :: rest
  rejectIf (∃ draft ∈ rest, draft.runId ≠ first.runId)
    (violation "one output batch cannot span Runs")
  rejectIf (¬ (drafts.map (·.sourceEventKey)).Nodup)
    (violation "output batch source keys must be unique")
  let pending ← pendingDrafts host writer s 0 drafts
  let run ← requireRun host s first.runId
  requireProviderOutputBudget host s first.runId run (totalCost host pending)

/-- A list of drafts is appended in turn, each at its own reading of the clock. -/
def appendAll (writer : Writer) (mode : AgentOutputEventDraft → AppendMode) :
    Nat → List AgentOutputEventDraft → Action RunState PyError (List AgentOutputEvent)
  | _, [] => pure []
  | reading, draft :: rest => do
    let event ← appendEvent host writer reading draft (mode draft)
    let events ← appendAll writer mode (reading + 1) rest
    pure (event :: events)

/-- `_append_events`. -/
def appendEvents (writer : Writer) (drafts : List AgentOutputEventDraft) :
    Action RunState PyError (List AgentOutputEvent) :=
  match drafts with
  | [] => pure []
  | first :: rest => do
    let s ← Action.read
    Action.ofExcept (precheckBatch host writer s first rest)
    appendAll host writer (fun _ => { budgetPrechecked := true }) drafts.length drafts

end

end Purra.RunMemory
