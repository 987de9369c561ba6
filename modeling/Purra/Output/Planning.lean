import Mathlib.Data.List.Sort
import Purra.Output.Contracts

/-!
# The planning stream

`purra/planning_stream.py`, and the check of `purra/adapters/memory.py` that ties a
planning event to the Provider text it projects.

* `PlanningTextDeltaParser` — the incremental decoder of the public `progress.text`
  strings: one state, and one character at a time.
* `planningRecords` — `PlanningStreamParser().feed(text)` on a fresh parser: whole
  lines of JSON, each accepted or refused.
* `validatePlanningProjection` — a planning event is refused unless its operation is
  active and the Provider bytes of its invocation contain what it says.

`json.loads` is the parameter `loads`.
-/

namespace Purra.Output

/-- `PLANNING_STREAM_SCHEMA`. -/
def planningStreamSchema : String := "purra.planning-stream/v1"

/-! ## Text deltas -/

/-- The states of `PlanningTextDeltaParser`; `header` is the compact key order in front of a text. -/
inductive DeltaState where
  | skip | header | text | escape | unicode | lowSlash | lowU | lowUnicode | suffix | newline
  deriving DecidableEq, Repr

/-- `PlanningTextDelta`. -/
structure PlanningTextDelta where
  text : String
  recordIndex : Nat
  deriving DecidableEq, Repr

/-- `PlanningTextDeltaParser`. -/
structure PlanningTextDeltaParser where
  state : DeltaState := .header
  headerIndex : Nat := 0
  recordIndex : Nat := 1
  unicode : List Char := []
  highSurrogate : Option Nat := none
  deriving DecidableEq, Repr

namespace PlanningTextDeltaParser

/-- `_PREFIX`. -/
def header : List Char := "\x7b\"v\":1,\"type\":\"progress\",\"text\":\"".toList

/-- `_ESCAPES`. -/
def escaped (c : Char) : Option Char :=
  match c with
  | '"' => some '"'
  | '\\' => some '\\'
  | '/' => some '/'
  | 'b' => some (Char.ofNat 8)
  | 'f' => some (Char.ofNat 12)
  | 'n' => some '\n'
  | 'r' => some '\r'
  | 't' => some '\t'
  | _ => none

/-- The value of a hexadecimal digit. -/
def hexDigit (c : Char) : Option Nat :=
  if '0' ≤ c ∧ c ≤ '9' then some (c.toNat - 48)
  else if 'a' ≤ c ∧ c ≤ 'f' then some (c.toNat - 87)
  else if 'A' ≤ c ∧ c ≤ 'F' then some (c.toNat - 55)
  else none

/-- `int(digits, 16)`. -/
def hexValue (digits : List Char) : Nat :=
  digits.foldl (fun n c => n * 16 + (hexDigit c).getD 0) 0

/-- `_next_record`. -/
def nextRecord (p : PlanningTextDeltaParser) : PlanningTextDeltaParser :=
  { recordIndex := p.recordIndex + 1 }

/-- What `feed` has in hand: the parser, the text it is collecting, and what it has emitted. -/
structure Feed where
  parser : PlanningTextDeltaParser
  current : List Char := []
  emitted : List PlanningTextDelta := []

/-- `flush`. -/
def Feed.flush (f : Feed) : Feed :=
  if f.current = [] then f
  else { f with
    current := []
    emitted := f.emitted ++ [⟨String.ofList f.current, f.parser.recordIndex⟩] }

/-- The parser goes to another state. -/
def Feed.goto (f : Feed) (state : DeltaState) : Feed := { f with parser.state := state }

/-- A character of the text. -/
def Feed.emit (f : Feed) (c : Char) : Feed := { f.goto .text with current := f.current ++ [c] }

/-- The rest of the record is skipped. -/
def Feed.abandon (f : Feed) : Feed := f.flush.goto .skip

/-- A character after which the record is skipped; a line feed ends it at once. -/
def Feed.skipFrom (f : Feed) (c : Char) : Feed :=
  if c = '\n' then { f with parser := f.parser.nextRecord } else f.goto .skip

/-- The four digits of an escape: what is still missing of them, or their value. -/
def Feed.digit (f : Feed) (c : Char) (complete : Feed → Nat → Feed) : Feed :=
  match hexDigit c with
  | none => f.abandon
  | some _ =>
    let f := { f with parser.unicode := f.parser.unicode ++ [c] }
    if f.parser.unicode.length < 4 then f else complete f (hexValue f.parser.unicode)

/-- The loop body of `feed`. -/
def Feed.step (f : Feed) (c : Char) : Feed :=
  match f.parser.state with
  | .skip => f.skipFrom c
  | .header =>
    if header[f.parser.headerIndex]? = some c then
      let f := { f with parser.headerIndex := f.parser.headerIndex + 1 }
      if f.parser.headerIndex = header.length then f.goto .text else f
    else f.skipFrom c
  | .escape =>
    if c = 'u' then { f.goto .unicode with parser.unicode := [] }
    else match escaped c with
      | some decoded => f.emit decoded
      | none => f.abandon
  | .unicode =>
    f.digit c fun f value =>
      if 0xD800 ≤ value ∧ value ≤ 0xDBFF then
        { f.goto .lowSlash with parser.highSurrogate := some value }
      else if 0xDC00 ≤ value ∧ value ≤ 0xDFFF then f.abandon
      else f.emit (Char.ofNat value)
  | .lowSlash => if c = '\\' then f.goto .lowU else f.abandon
  | .lowU => if c = 'u' then { f.goto .lowUnicode with parser.unicode := [] } else f.abandon
  | .lowUnicode =>
    f.digit c fun f low =>
      match f.parser.highSurrogate with
      | some high =>
        if 0xDC00 ≤ low ∧ low ≤ 0xDFFF then
          let f := { f with parser.highSurrogate := none }
          f.emit (Char.ofNat (0x10000 + (high - 0xD800) * 1024 + (low - 0xDC00)))
        else f.abandon
      | none => f.abandon
  | .suffix => if c = '}' then f.goto .newline else f.goto .skip
  | .newline => if c = '\n' then { f with parser := f.parser.nextRecord } else f.goto .skip
  | .text =>
    if c = '\\' then f.goto .escape
    else if c = '"' then f.flush.goto .suffix
    else if c.toNat < 32 then f.abandon
    else f.emit c

/-- `feed`. -/
def feed (p : PlanningTextDeltaParser) (text : String) :
    List PlanningTextDelta × PlanningTextDeltaParser :=
  let f := (text.toList.foldl Feed.step { parser := p }).flush
  (f.emitted, f.parser)

end PlanningTextDeltaParser

/-! ## Records -/

/-- `PlanningProgress`. -/
structure PlanningProgress where
  text : String
  recordIndex : Nat
  sourceStart : Nat
  sourceEnd : Nat
  deriving DecidableEq, Repr

/-- `PlanningProgress.to_mapping`. -/
def PlanningProgress.toMapping (progress : PlanningProgress) : Json.Object :=
  [("text", .str progress.text), ("recordIndex", .int progress.recordIndex),
    ("sourceStart", .int progress.sourceStart), ("sourceEnd", .int progress.sourceEnd)]

/-- What `PlanningStreamParser` remembers between lines. -/
structure RecordState where
  consumed : Nat := 0
  records : Nat := 0
  planReceived : Bool := false

/-- `PlanningStreamError`. -/
def planningStreamError (reason : String) : PyError :=
  .contractViolation ("Invalid planning stream: " ++ reason) "invalid_planning_stream" []

/-- `set(row) == keys`. -/
def hasKeys (row : Json.Object) (keys : List String) : Bool :=
  row.all (fun p => p.1 ∈ keys) && keys.all fun key => key ∈ row.map Prod.fst

/-- The envelope's version, the number one. -/
def versionOne (v : Json) : Bool :=
  match v with
  | .int _ => Json.pyEq v (.int 1)
  | .float _ _ => Json.pyEq v (.int 1)
  | _ => false

section Records

variable (loads : String → Except PyError Json)

/-- `_accept_record`. -/
def acceptRecord (state : RecordState) (line : String) (size : Nat) :
    Except PyError (Option PlanningProgress × RecordState) :=
  if 262144 < size then .error (planningStreamError "record byte limit")
  else if strip line = "" then .ok (none, { state with consumed := state.consumed + size })
  else if state.planReceived then .error (planningStreamError "record after final plan")
  else match loads line with
    | .ok (.obj row) =>
      if versionOne (Json.get row "v") = false then
        .error (planningStreamError "unsupported version or envelope")
      else
        let index := state.records + 1
        let after := { state with consumed := state.consumed + size, records := index }
        if Json.pyEq (Json.get row "type") (.str "progress") = true ∧
            hasKeys row ["v", "type", "text"] = true then
          if 16 < index then .error (planningStreamError "progress record limit")
          else match Json.get row "text" with
            | .str value =>
              if strip value = "" ∨ 280 < value.length ∨ value.toList.any (·.toNat < 32) = true then
                .ok (none, after)
              else .ok (some ⟨value, index, state.consumed, state.consumed + size⟩, after)
            | _ => .ok (none, after)
        else if Json.pyEq (Json.get row "type") (.str "plan") = true ∧
            hasKeys row ["v", "type", "plan"] = true then
          match Json.get row "plan" with
          | .obj _ => .ok (none, { after with planReceived := true })
          | _ => .error (planningStreamError "plan must be an object")
        else .error (planningStreamError "unknown record type or fields")
    | .ok _ => .error (planningStreamError "unsupported version or envelope")
    | .error _ => .error (planningStreamError "invalid JSON record")

/-- The lines of a text that a line feed ends, and the rest behind the last one. -/
def splitLines : List Char → List Char → List String × String
  | current, [] => ([], String.ofList current)
  | current, c :: rest =>
    if c = '\n' then
      let (lines, last) := splitLines [] rest
      (String.ofList current :: lines, last)
    else splitLines (current ++ [c]) rest

/-- The records of the lines, one after the other. -/
def acceptLines : RecordState → List String → Except PyError (List PlanningProgress)
  | _, [] => .ok []
  | state, line :: rest => do
    let (progress, state) ← acceptRecord loads state line (line ++ "\n").utf8ByteSize
    let others ← acceptLines state rest
    .ok (progress.toList ++ others)

/-- `PlanningStreamParser().feed(text)`. -/
def planningRecords (text : String) : Except PyError (List PlanningProgress) :=
  if 1048576 < text.utf8ByteSize then .error (planningStreamError "total byte limit")
  else do
    let (lines, last) := splitLines [] text.toList
    let records ← acceptLines loads {} lines
    if 262144 < last.utf8ByteSize then .error (planningStreamError "record byte limit")
    else .ok records

end Records

/-! ## The check of a planning event -/

/-- `ContractViolationError(message)`. -/
def violation (message : String) : PyError := .contractViolation message "contract_violation" []

/-- `raw[:size].decode("utf-8")`, which fails inside a character. -/
def takeBytes : Nat → List Char → Option (List Char)
  | 0, _ => some []
  | _ + 1, [] => none
  | n + 1, c :: rest =>
    if c.utf8Size ≤ n + 1 then (takeBytes (n + 1 - c.utf8Size) rest).map (c :: ·) else none

section Projection

variable (py : Builtins) (loads : String → Except PyError Json)

/-- The Provider text deltas of an invocation: the chunk each comes from and its text. -/
def contentEntries (events : List AgentOutputEventDraft) (invocationId : Option String) :
    List Json.Object :=
  (events.filter fun event =>
      event.invocationId = invocationId && event.kind = .providerDeltaBatch).flatMap fun event =>
    (Json.objects ((Json.items? (Json.get event.payload "entries")).getD [])).filter fun entry =>
      Json.pyEq (Json.get entry "kind") (.str OutputEventKind.providerContentDelta.value)

/-- `str(entry["payload"].get("delta", ""))`. -/
def entryDelta (entry : Json.Object) : String :=
  match Json.field? ((Json.fields? (Json.get entry "payload")).getD []) "delta" with
  | some delta => py.str delta
  | none => ""

/-- `by_index`: the text of each chunk, the last one that was journalled. -/
def textByIndex (entries : List Json.Object) : Except PyError (Dict Int String) := do
  let rows ← entries.mapM fun entry => do
    let index ← py.int (Json.get entry "sourceChunkIndex")
    .ok (index, entryDelta py entry)
  .ok (Dict.empty.extend rows)

/-- The deltas of the chunks in order, until the one that is looked for. -/
def deltaAt (byIndex : Dict Int String) (index : Json) (part : Json) :
    PlanningTextDeltaParser → List Int → Option PlanningTextDelta
  | _, [] => none
  | parser, i :: rest =>
    let (deltas, parser') := parser.feed ((byIndex.get? i).getD "")
    match part with
    | .int n =>
      if Json.pyEq (.int i) index = true ∧ 1 ≤ n ∧ n ≤ deltas.length then deltas[(n - 1).toNat]?
      else deltaAt byIndex index part parser' rest
    | _ => deltaAt byIndex index part parser' rest

/-- The planning operation of a scope is the one that runs. -/
def planningActive (events : List AgentOutputEventDraft) (scope : PlanningScope) : Bool :=
  match (events.filter fun event =>
      Json.pyEq (Json.get event.payload "operationId") (.str scope.operationId) &&
        event.kind.isOperation).getLast? with
  | some event => event.kind = .operationStarted &&
      Json.pyEq (Json.get event.payload "kind") (.str "planning")
  | none => false

/-- The key a planning event is journalled under. -/
def planningSourceKey (draft : AgentOutputEventDraft) : String :=
  let invocation := draft.invocationId.getD "None"
  if draft.kind = .planningDelta then
    "planning-delta:" ++ invocation ++ ":" ++ py.str (Json.get draft.payload "sourceChunkIndex") ++
      ":" ++ py.str (Json.get draft.payload "sourcePartIndex")
  else "planning:" ++ invocation ++ ":" ++ py.str (Json.get draft.payload "recordIndex")

/-- A text delta is one of those the Provider's chunks hold. -/
def validatePlanningDelta (entries : List Json.Object) (payload : Json.Object) :
    Except PyError Unit := do
  let byIndex ← textByIndex py entries
  let indices := byIndex.keys.mergeSort fun a b => decide (a ≤ b)
  match deltaAt byIndex (Json.get payload "sourceChunkIndex") (Json.get payload "sourcePartIndex")
      {} indices with
  | none => .error (violation "planning delta does not match Provider source")
  | some expected =>
    if Json.pyEq (.str expected.text) (Json.get payload "textDelta") = false ∨
        Json.pyEq (.int expected.recordIndex) (Json.get payload "recordIndex") = false then
      .error (violation "planning delta does not match Provider source")
    else .ok ()

/-- A progress record is one of those the Provider's bytes hold. -/
def validatePlanningProgress (entries : List Json.Object) (payload : Json.Object) :
    Except PyError Unit :=
  let raw := String.join (entries.map (entryDelta py))
  match Json.get payload "sourceStart", Json.get payload "sourceEnd" with
  | .int start, .int stop =>
    if ¬ (0 ≤ start ∧ start < stop ∧ stop ≤ raw.utf8ByteSize) then
      .error (violation "planning projection has invalid source span")
    else match takeBytes stop.toNat raw.toList with
      | none => .error (violation "planning projection does not match Provider source")
      | some chars =>
        match planningRecords loads (String.ofList chars) with
        | .error _ => .error (violation "planning projection does not match Provider source")
        | .ok records =>
          match records.find? fun record =>
              Json.pyEq (.int record.recordIndex) (Json.get payload "recordIndex") with
          | none => .error (violation "planning projection does not match Provider source")
          | some expected =>
            if expected.toMapping.any (fun p => !Json.pyEq (Json.get payload p.1) p.2) = true then
              .error (violation "planning projection does not match Provider source")
            else .ok ()
  | _, _ => .error (violation "planning projection has invalid source span")

/-- `_validate_planning_projection`, on the stream of the draft and the events of its Run. -/
def validatePlanningProjection (stream : Option OutputStreamSpec)
    (events : List AgentOutputEventDraft) (draft : AgentOutputEventDraft) : Except PyError Unit :=
  match stream with
  | none => .error (violation "planning projection requires a planning stream")
  | some spec =>
    if spec.outputProtocol ≠ some planningStreamSchema then
      .error (violation "planning projection requires a planning stream")
    else match spec.planningScope with
      | none => .error (violation "planning projection scope mismatch")
      | some scope =>
        if Json.pyEq (Json.get draft.payload "operationId") (.str scope.operationId) = false ∨
            Json.pyEq (Json.get draft.payload "revision") (.int scope.revision) = false ∨
            Json.pyEq (Json.get draft.payload "attempt") (.int spec.planningAttempt) = false ∨
            draft.sourceEventKey ≠ planningSourceKey py draft then
          .error (violation "planning projection scope mismatch")
        else if planningActive events scope = false then
          .error (violation "planning operation is not active")
        else if draft.kind = .planningDelta then
          validatePlanningDelta py (contentEntries events draft.invocationId) draft.payload
        else
          validatePlanningProgress py loads (contentEntries events draft.invocationId) draft.payload

end Projection

end Purra.Output
