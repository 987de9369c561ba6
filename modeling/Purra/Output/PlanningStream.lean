import Purra.Core.PyText
import Purra.Lib.Chunks
import Purra.Output.Planning

/-!
# The planning parsers, fed in chunks

The two parsers of `purra/planning_stream.py` over a Provider text that comes in chunks.
Both keep a partial line, a partial escape or a partial surrogate pair from one chunk to the
next, and the record parser counts bytes as it goes.

* `PlanningTextDeltaParser.feedText` — the delta parser, on a Python string.
* `PlanningStreamParser` — the record parser: `feed` takes the lines a line feed ends,
  `finish` the rest.
* `PlanningStreamParser.outcome`, `textOf` — what comes of the chunks of a text.
-/

namespace Purra.Output

/-! ## The text parser -/

namespace PlanningTextDeltaParser

/-- The loop body of `feed`, for a code point that may be a lone surrogate. -/
def Feed.stepPoint (f : Feed) : CodePoint → Feed
  | .scalar c => f.step c
  | .surrogate _ =>
    match f.parser.state with
    | .skip => f
    | .header | .suffix | .newline => f.goto .skip
    | .text | .escape | .unicode | .lowSlash | .lowU | .lowUnicode => f.abandon

/-- `feed`, of any Python string. -/
def feedText (p : PlanningTextDeltaParser) (text : PyStr) :
    List PlanningTextDelta × PlanningTextDeltaParser :=
  let f := (text.foldl Feed.stepPoint { parser := p }).flush
  (f.emitted, f.parser)

/-- What the parser emits for the chunks of a text. -/
def feedChunks : PlanningTextDeltaParser → List PyStr → List PlanningTextDelta
  | _, [] => []
  | p, chunk :: rest => (p.feedText chunk).1 ++ feedChunks (p.feedText chunk).2 rest

end PlanningTextDeltaParser

/-- The concatenation of the texts emitted for a record index. -/
def textOf (index : Nat) (deltas : List PlanningTextDelta) : String :=
  String.join ((deltas.filter (·.recordIndex = index)).map (·.text))

/-! ## The record parser -/

/-- `PlanningStreamParser`. -/
structure PlanningStreamParser where
  buffer : String := ""
  consumed : Nat := 0
  records : Nat := 0
  rejectedProgressRecords : Nat := 0
  plan : Option PyJson.Object := none
  closed : Bool := false
  failed : Bool := false

namespace PlanningStreamParser

/-- The text of a progress record, unless it is refused. -/
def progressText (value : Option PyJson) : Option String :=
  match value with
  | some (.str s) =>
    match s.chars? with
    | some chars =>
      let text := String.ofList chars
      if strip text = "" ∨ 280 < text.length ∨ chars.any (·.toNat < 32) = true then none
      else some text
    | none => none
  | _ => none

section

variable (loads : String → Except PyError PyJson)

/-- `_accept_record`. -/
def acceptRecord (p : PlanningStreamParser) (line : String) (size : Nat) :
    Except PyError (Option PlanningProgress × PlanningStreamParser) :=
  if 262144 < size then .error (planningStreamError "record byte limit")
  else if strip line = "" then .ok (none, { p with consumed := p.consumed + size })
  else if p.plan.isSome then .error (planningStreamError "record after final plan")
  else match loads line with
    | .ok (.obj row) =>
      if PyJson.isOne (PyJson.get row "v") = false then
        .error (planningStreamError "unsupported version or envelope")
      else
        let index := p.records + 1
        let after := { p with consumed := p.consumed + size, records := index }
        if PyJson.isText (PyJson.get row "type") "progress" = true ∧
            PyJson.hasKeys row ["v", "type", "text"] = true then
          if 16 < index then .error (planningStreamError "progress record limit")
          else match progressText (PyJson.get row "text") with
            | some text => .ok (some ⟨text, index, p.consumed, p.consumed + size⟩, after)
            | none => .ok (none,
                { after with rejectedProgressRecords := p.rejectedProgressRecords + 1 })
        else if PyJson.isText (PyJson.get row "type") "plan" = true ∧
            PyJson.hasKeys row ["v", "type", "plan"] = true then
          match PyJson.get row "plan" with
          | some (.obj plan) =>
            if PyJson.freezableFields plan then .ok (none, { after with plan := some plan })
            else .error (planningStreamError "invalid JSON value or Unicode")
          | _ => .error (planningStreamError "plan must be an object")
        else .error (planningStreamError "unknown record type or fields")
    | .ok _ => .error (planningStreamError "unsupported version or envelope")
    | .error _ => .error (planningStreamError "invalid JSON record")

/-- The loop of `feed` over the lines in the buffer. -/
def acceptLines : PlanningStreamParser → List String →
    Except PyError (List PlanningProgress × PlanningStreamParser)
  | p, [] => .ok ([], p)
  | p, line :: rest => do
    let (progress, p) ← acceptRecord loads p line (line ++ "\n").utf8ByteSize
    let (others, p) ← acceptLines p rest
    .ok (progress.toList ++ others, p)

/-- The `try` block of `feed`. -/
def read (p : PlanningStreamParser) (text : PyStr) :
    Except PyError (List PlanningProgress × PlanningStreamParser) :=
  match text.chars? with
  | none => .error (planningStreamError "invalid JSON value or Unicode")
  | some chars =>
    let buffer := p.buffer ++ String.ofList chars
    if 1048576 < p.consumed + buffer.utf8ByteSize then
      .error (planningStreamError "total byte limit")
    else do
      let (lines, last) := splitLines [] buffer.toList
      let (progress, p) ← acceptLines loads p lines
      if 262144 < last.utf8ByteSize then .error (planningStreamError "record byte limit")
      else .ok (progress, { p with buffer := last })

/-- A failed parser takes nothing more, so that what it has counted no longer matters. -/
def fail (p : PlanningStreamParser) : PlanningStreamParser :=
  { p with buffer := "", failed := true }

/-- `feed`. -/
def feed (p : PlanningStreamParser) (text : PyStr) :
    Except PyError (List PlanningProgress) × PlanningStreamParser :=
  if p.closed = true ∨ p.failed = true then (.error (planningStreamError "parser is closed"), p)
  else match p.read loads text with
    | .ok (progress, p') => (.ok progress, p')
    | .error e => (.error e, p.fail)

/-- The `try` block of `finish`. -/
def readEnd (p : PlanningStreamParser) : Except PyError (PyJson.Object × PlanningStreamParser) := do
  let p ← if p.buffer = "" then .ok p
    else do
      let (progress, p) ← acceptRecord loads p p.buffer p.buffer.utf8ByteSize
      if progress.isSome then .error (planningStreamError "unterminated progress record")
      else .ok { p with buffer := "" }
  match p.plan with
  | none => .error (planningStreamError "missing final plan")
  | some plan => .ok (plan, { p with closed := true })

/-- `finish`. -/
def finish (p : PlanningStreamParser) : Except PyError PyJson.Object × PlanningStreamParser :=
  if p.closed = true ∨ p.failed = true then
    (.error (planningStreamError "missing final plan or unterminated record"),
      { p with failed := true })
  else match p.readEnd loads with
    | .ok (plan, p') => (.ok plan, p')
    | .error e => (.error e, p.fail)

/-- Feed the chunks, until one is refused. -/
def feedChunks : PlanningStreamParser → List PyStr →
    Except PyError (List PlanningProgress × PlanningStreamParser)
  | p, [] => .ok ([], p)
  | p, chunk :: rest =>
    match p.feed loads chunk with
    | (.ok progress, p) => do
      let (others, p) ← feedChunks p rest
      .ok (progress ++ others, p)
    | (.error e, _) => .error e

/-- What comes of the chunks of a text: the plan and the progress records. -/
def outcome (chunks : List PyStr) : Except PyError (PyJson.Object × List PlanningProgress) := do
  let (progress, p) ← feedChunks loads {} chunks
  let plan ← (p.finish loads).1
  .ok (plan, progress)

end

end PlanningStreamParser

end Purra.Output
