import Purra.Output.BufferedDeltas
import Purra.Output.PlainRecords

/-!
# Live planning

A planning stream as `plan` of `purra/model_invocation/manager.py` reads it.  A
chunk goes to the processor first, which journals the deltas its own parser finds; then the
record parser of the planner takes the chunk, and every record it finds is journalled behind
the Provider bytes that are still pending.

* `LiveTask` — what is left to do of a chunk; each task appends one event at most.
* `LivePlanning`, `Processor.liveStep` — the stream between two tasks, and what may happen
  to it: other producers journal events, timers flush, and a task may be the last.
* `Storable` — the journal's check accepts a draft, whatever else the journal holds.

The chunks are not changed on their way to the processor; its policy decides what may be
shown of them.
-/

namespace Purra.Output

/-- What is left to do of a chunk. -/
inductive LiveTask where
  /-- `_append(draft)`. -/
  | append (draft : AgentOutputEventDraft)
  /-- `accept(receipt, chunk, signal)`, once the processor has accepted the chunk. -/
  | accept (chunk : ModelStreamChunk)
  /-- `accept_planning_progress(output_stream_id, record, signal)`. -/
  | progress (record : PlanningProgress)
  /-- `finish()`: the chunk with a finish reason is the last. -/
  | finish

/-- A planning stream, with what is left to do of its last chunk. -/
structure LivePlanning where
  stream : LiveStream
  records : PlanningStreamParser := {}
  tasks : List LiveTask := []
  isOver : Bool := false

/-- What happens to a planning stream. -/
inductive LiveAction where
  /-- A chunk arrives, its content apart; the policy answers whether its deltas may be shown. -/
  | chunk (content : PyStr) (rest : ModelStreamChunk) (allowed : Bool) (now : Int)
  /-- The next task of the chunk; the policy answers whether its record may be shown. -/
  | task (allowed : Bool) (now : Int)
  /-- Pending deltas are flushed. -/
  | flush
  /-- Another producer's event is journalled. -/
  | other (draft : AgentOutputEventDraft)
  /-- A task fails, or the invocation is canceled. -/
  | stop

namespace Processor

variable (p : Processor) (loads : String → Except PyError PyJson)

/-- `progress_draft`. -/
def recordDraft (scope : PlanningScope) (record : PlanningProgress) (now : Int) :
    AgentOutputEventDraft :=
  p.draft ("planning:" ++ p.spec.invocationId ++ ":" ++ toString record.recordIndex)
    .planningProgress .commentary .publicEvent
    ([("schemaVersion", .str planningStreamSchema), ("operationId", .str scope.operationId),
      ("revision", .int scope.revision), ("attempt", .int p.spec.planningAttempt)] ++
      record.toMapping)
    now

/-- `accept_provider_chunk`, but for what it appends behind the batches; a text that cannot
be encoded fails where its bytes are counted. -/
def receive (s : LivePlanning) (content : PyStr) (rest : ModelStreamChunk) (allowed : Bool)
    (now : Int) : LivePlanning :=
  match content.chars? with
  | none => { s with isOver := true }
  | some chars =>
    let chunk := { rest with contentDelta := String.ofList chars }
    match p.authorize chunk ⟨some chunk, allowed⟩ with
    | .ok (some authorized) =>
      let (deltas, parser) := p.feedPlanning s.stream.parser authorized
      { s with
        stream := p.settle { p.append s.stream authorized now with parser } authorized (deltas ≠ [])
        tasks := (p.chunkDrafts authorized allowed deltas (s.stream.chunkIndex + 1) now).map .append ++
          [.accept authorized] }
    | _ => { s with isOver := true }

/-- The tasks a record leaves, when there is an operation to show it in. -/
def progressTasks (records : List PlanningProgress) : List LiveTask :=
  if p.spec.planningScope.isSome then records.map .progress else []

/-- The next task. -/
def perform (s : LivePlanning) (allowed : Bool) (now : Int) : LivePlanning :=
  match s.tasks with
  | [] => s
  | .append draft :: rest => { s with stream := appendAll [draft] s.stream, tasks := rest }
  | .accept chunk :: rest =>
    if p.planning = false then { s with tasks := rest }
    else if chunk.toolCallDeltas ≠ [] then { s with tasks := [], isOver := true }
    else match s.records.feed loads (PyStr.ofChars chunk.contentDelta.toList) with
      | (.ok progress, records) =>
        { s with
          records
          tasks := p.progressTasks progress ++
            (if chunk.finishReason.isSome then [.finish] else []) ++ rest }
      | (.error _, records) => { s with records, tasks := [], isOver := true }
  | .progress record :: rest =>
    match p.spec.planningScope with
    | none => { s with tasks := [], isOver := true }
    | some scope =>
      if allowed = true then
        { s with
          stream := appendAll [p.recordDraft scope record now] (p.flushLocked s.stream)
          tasks := rest }
      else { s with tasks := rest }
  | .finish :: _ => { s with tasks := [], isOver := true }

/-- One action; a chunk is taken when nothing is left to do of the one before. -/
def liveStep (s : LivePlanning) : LiveAction → LivePlanning
  | .chunk content rest allowed now =>
    if s.isOver = true ∨ s.tasks.isEmpty = false then s else p.receive s content rest allowed now
  | .task allowed now => if s.isOver = true then s else p.perform loads s allowed now
  | .flush => { s with stream := p.flushLocked s.stream }
  | .other draft => { s with stream := appendAll [draft] s.stream }
  | .stop => { s with tasks := [], isOver := true }

/-- A batch of the stream, or of its invocation. -/
def isOwnBatch (draft : AgentOutputEventDraft) : Bool :=
  draft.kind = .providerDeltaBatch && (draft.outputStreamId = some p.spec.outputStreamId ||
    draft.invocationId = some p.spec.invocationId)

/-- A planning event of the stream. -/
def isProjection (draft : AgentOutputEventDraft) : Bool :=
  draft.kind.isPlanning && draft.outputStreamId = some p.spec.outputStreamId

/-- A start or an end of the operation a scope belongs to. -/
def isStage (scope : PlanningScope) (event : AgentOutputEventDraft) : Bool :=
  Json.pyEq (Json.get event.payload "operationId") (.str scope.operationId) &&
    event.kind.isOperation

/-- What another producer journals while the stream is open: nothing in its name, and no end of
its operation. -/
structure Others (draft : AgentOutputEventDraft) : Prop where
  batch : p.isOwnBatch draft = false
  projection : p.isProjection draft = false
  stage : ∀ scope, p.spec.planningScope = some scope → isStage scope draft = false

/-- The other producers leave the stream alone. -/
def Undisturbed : LiveAction → Prop
  | .other draft => p.Others draft
  | _ => True

/-- A journal the stream may be opened in: nothing is in its name yet, and its operation runs. -/
structure Ready (history : List AgentOutputEventDraft) : Prop where
  batch : ∀ draft ∈ history, p.isOwnBatch draft = false
  projection : ∀ draft ∈ history, p.isProjection draft = false
  active : ∀ scope, p.spec.planningScope = some scope → planningActive history scope = true

/-! ## The contents of the chunks -/

/-- The numbered contents of some chunks; a chunk without content has none. -/
def contents (chunks : List (ModelStreamChunk × Int)) : List (Nat × String) :=
  (chunks.zipIdx 1).filterMap fun c =>
    if c.1.1.contentDelta = "" then none else some (c.2, c.1.1.contentDelta)

/-- The text of some chunks. -/
def rawText (chunks : List (ModelStreamChunk × Int)) : List Char :=
  chunks.flatMap fun c => c.1.contentDelta.toList

/-- The delta parser behind some contents. -/
def parserAfter (contents : List (Nat × String)) : PlanningTextDeltaParser :=
  contents.foldl (fun parser c => (parser.feed c.2).2) {}

/-- The entry of a content. -/
def contentEntry (content : Nat × String) : Json.Object :=
  [("sourceChunkIndex", .int content.1), ("sourcePartIndex", .int (0 : Nat)),
    ("kind", .str OutputEventKind.providerContentDelta.value),
    ("payload", .obj [("delta", .str content.2)])]

variable {p loads} {chunks : List (ModelStreamChunk × Int)}

theorem contents_append (chunks : List (ModelStreamChunk × Int)) (c : ModelStreamChunk × Int) :
    contents (chunks ++ [c]) = contents chunks ++
      if c.1.contentDelta = "" then [] else [(chunks.length + 1, c.1.contentDelta)] := by
  unfold contents
  rw [List.zipIdx_append, List.filterMap_append, Nat.add_comm chunks.length 1]
  by_cases h : c.1.contentDelta = "" <;> simp [h]

theorem rawText_append (chunks : List (ModelStreamChunk × Int)) (c : ModelStreamChunk × Int) :
    rawText (chunks ++ [c]) = rawText chunks ++ c.1.contentDelta.toList := by
  simp [rawText]

/-- The numbers rise, up to the number of chunks. -/
theorem contents_sorted (chunks : List (ModelStreamChunk × Int)) :
    ((contents chunks).map Prod.fst).Pairwise (· < ·) ∧
      ∀ c ∈ contents chunks, c.1 ≤ chunks.length := by
  induction chunks using List.reverseRecOn with
  | nil => exact ⟨List.Pairwise.nil, fun c hc => by cases hc⟩
  | append_singleton chunks c ih =>
    obtain ⟨hsorted, hle⟩ := ih
    rw [contents_append]
    by_cases h : c.1.contentDelta = ""
    · rw [if_pos h, List.append_nil, List.length_append]
      exact ⟨hsorted, fun d hd => Nat.le_add_right_of_le (hle d hd)⟩
    · rw [if_neg h, List.map_append, List.length_append]
      refine ⟨List.pairwise_append.2 ⟨hsorted, List.pairwise_singleton .., ?_⟩, ?_⟩
      · intro n hn m hm
        obtain ⟨d, hd, rfl⟩ := List.mem_map.1 hn
        obtain rfl : m = chunks.length + 1 := by simpa using hm
        exact Nat.lt_succ_of_le (hle d hd)
      · intro d hd
        rcases List.mem_append.1 hd with hd | hd
        · exact Nat.le_add_right_of_le (hle d hd)
        · obtain rfl := List.mem_singleton.1 hd
          exact le_rfl

/-- The contents make up the text. -/
theorem join_contents (chunks : List (ModelStreamChunk × Int)) :
    (contents chunks).flatMap (·.2.toList) = rawText chunks := by
  induction chunks using List.reverseRecOn with
  | nil => rfl
  | append_singleton chunks c ih =>
    rw [contents_append, rawText_append, List.flatMap_append, ih]
    by_cases h : c.1.contentDelta = ""
    · simp [h]
    · simp [h]

end Processor

end Purra.Output
