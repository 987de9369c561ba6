import Purra.Core.Reading
import Purra.Lib.Transaction

/-!
# The clarification store

`ClarificationStore` of `purra_interaction`: questions that a host asks before it starts a Run.
Every method is one transaction on a table of one database; a row is found by the scope of the
store and the id of the request.

* `normalize`, `questions` — the data a request is made of, checked.
* `ask`, `answer`, `claim`, `reconcile`, `cancel` — the methods.

`encodedBytes` is the length of the text a value is stored as; the text itself is not part of the
table, only the value.  Ids and tokens are what `uuid4` returned.
-/

namespace Purra.Interaction

/-! ## Checkpoint data -/

/-- `_text`. -/
def text (value : Json) (limit : Nat := 512) : Except PyError String :=
  match value with
  | .str s =>
    if strip s = "" ∨ limit < s.length then
      .error (.valueError "expected bounded non-empty text")
    else .ok s
  | _ => .error (.valueError "expected bounded non-empty text")

/-- `2 ** 53 - 1`. -/
def maxSafe : Nat := 9007199254740991

/-- The refusal of a number. -/
def numberError : PyError :=
  .valueError "checkpoint numbers must be finite and safely representable"

mutual

/-- `normalize`, of `_json`. -/
def normalize : Json → Except PyError Json
  | .null => .ok .null
  | .bool b => .ok (.bool b)
  | .str s => .ok (.str s)
  | .int n => if maxSafe < n.natAbs then .error numberError else .ok (.int n)
  | .float m e =>
    if maxSafe * 2 ^ (-e).toNat < m.natAbs * 2 ^ e.toNat then .error numberError
    else if Json.pyEq (.float m e) (.int (Builtins.truncate m e)) then
      .ok (.int (Builtins.truncate m e))
    else .ok (.float m e)
  | .arr items => (normalizeItems items).map .arr
  | .obj fields => (normalizeFields fields).map .obj

/-- The elements of a list. -/
def normalizeItems : List Json → Except PyError (List Json)
  | [] => .ok []
  | item :: rest => do
    let item ← normalize item
    let rest ← normalizeItems rest
    .ok (item :: rest)

/-- The fields of an object. -/
def normalizeFields : List (String × Json) → Except PyError (List (String × Json))
  | [] => .ok []
  | (key, value) :: rest => do
    let value ← normalize value
    let rest ← normalizeFields rest
    .ok ((key, value) :: rest)

end

/-- The bound on the text that is stored. -/
def bounded (encodedBytes : Json → Nat) (value : Json) : Except PyError Json :=
  if 131072 < encodedBytes value then .error (.valueError "clarification exceeds 128 KiB")
  else .ok value

/-- `_json`, with the value that is read back from the text. -/
def json (encodedBytes : Json → Nat) (value : Json) : Except PyError Json := do
  let value ← normalize value
  bounded encodedBytes value

/-! ## Questions -/

/-- A question, checked. -/
structure Question where
  id : String
  prompt : String
  choices : List String := []
  allowFreeform : Bool := true
  deriving DecidableEq, Repr

/-- The question as it is stored. -/
def Question.stored (q : Question) : Json :=
  .obj [("id", .str q.id), ("prompt", .str q.prompt), ("choices", .arr (q.choices.map .str)),
    ("allowFreeform", .bool q.allowFreeform)]

/-- `len(set(values)) != len(values)`. -/
def repeats : List Json → Bool
  | [] => false
  | value :: rest => rest.any (Json.pyEq value) || repeats rest

/-- A value that no set takes. -/
def unhashable : Json → Bool
  | .arr _ | .obj _ => true
  | _ => false

/-- The loop body of `_questions`. -/
def question (row : Json) : Except PyError Question :=
  match row with
  | .obj fields =>
    if ∃ key ∈ fields.map Prod.fst, key ∉ ["id", "prompt", "choices", "allowFreeform"] then
      .error (.valueError "invalid question")
    else match (Json.field? fields "choices").getD (.arr []) with
      | .arr choices =>
        if 8 < choices.length then .error (.valueError "invalid choices")
        else if choices.any unhashable then .error (.typeError "unhashable type")
        else if repeats choices then .error (.valueError "invalid choices")
        else do
          let choices ← choices.mapM (text · 128)
          match (Json.field? fields "allowFreeform").getD (.bool true) with
          | .bool free =>
            if free = false ∧ choices = [] then
              .error (.valueError "question needs a valid answer mode")
            else do
              let id ← text (Json.get fields "id") 128
              let prompt ← text (Json.get fields "prompt") 8000
              .ok { id, prompt, choices, allowFreeform := free }
          | _ => .error (.valueError "question needs a valid answer mode")
      | _ => .error (.valueError "invalid choices")
  | _ => .error (.valueError "invalid question")

/-- `_questions`. -/
def questions (values : Json) : Except PyError (List Question) :=
  match values with
  | .arr rows =>
    if rows.length < 1 ∨ 3 < rows.length then
      .error (.valueError "clarification requires 1 to 3 questions")
    else do
      let result ← rows.mapM question
      if (result.map (·.id)).Nodup then .ok result
      else .error (.valueError "question ids must be unique")
  | _ => .error (.valueError "clarification requires 1 to 3 questions")

/-! ## The table -/

/-- What was asked, `request_json`. -/
structure Request where
  questions : List Question
  checkpoint : Json
  sourceRunId : Option String
  expiresAtMs : Option Int

/-- An optional text as it is stored. -/
def storedText (value : Option String) : Json := (value.map Json.str).getD .null

/-- The request as it is stored. -/
def Request.stored (request : Request) : Json :=
  .obj [("questions", .arr (request.questions.map (·.stored))), ("checkpoint", request.checkpoint),
    ("sourceRunId", storedText request.sourceRunId),
    ("expiresAtMs", (request.expiresAtMs.map Json.int).getD .null)]

/-- The states of a request. -/
inductive ClarificationState where
  | waiting | ready | resuming | resumed | canceled
  deriving DecidableEq, Repr

/-- A row of `purra_clarifications`. -/
structure Clarification where
  requestKey : String
  request : Request
  state : ClarificationState := .waiting
  revision : Nat := 1
  answerKey : Option String := none
  answers : Option Json := none
  resumeToken : Option String := none
  runId : Option String := none

/-- The table, by scope and id. -/
abbrev Table := Dict (String × String) Clarification

/-- A method of the store. -/
abbrev Method := Transaction PyError Table

/-- `UPDATE purra_clarifications SET ... WHERE scope=? AND id=?`. -/
def update (scope id : String) (f : Clarification → Clarification) (table : Table) : Table :=
  match table.get? (scope, id) with
  | some row => table.set (scope, id) (f row)
  | none => table

/-! ## The methods -/

section

variable (encodedBytes : Json → Nat) (scope : String)

/-- `ask`, before its transaction. -/
def checkRequest (key : String) (questionRows checkpoint sourceRunId expiresAtMs : Json) :
    Except PyError Request := do
  let _ ← text (.str key)
  let source ← match sourceRunId with
    | .null => .ok none
    | value => (text value).map some
  let expires ← match expiresAtMs with
    | .null => .ok none
    | .int n =>
      if 0 < n ∧ n ≤ maxSafe then .ok (some n)
      else .error (.valueError "expires_at_ms must be a positive integer")
    | _ => .error (.valueError "expires_at_ms must be a positive integer")
  let asked ← questions questionRows
  let checkpoint ← normalize checkpoint
  let request : Request := ⟨asked, checkpoint, source, expires⟩
  let _ ← bounded encodedBytes request.stored
  .ok request

/-- The request that was asked under a key. -/
def askedUnder (key : String) (table : Table) : Option ((String × String) × Clarification) :=
  table.entries.find? fun row => row.1.1 = scope ∧ row.2.requestKey = key

/-- `ask`, with the id of the request; `uuid` is the id a new request gets. -/
def ask (key : String) (questionRows checkpoint sourceRunId expiresAtMs : Json) (uuid : String) :
    Method String := do
  let request ← .ofExcept
    (checkRequest encodedBytes key questionRows checkpoint sourceRunId expiresAtMs)
  let table ← .read
  match askedUnder scope key table with
  | some existing =>
    if Json.pyEq existing.2.request.stored request.stored then pure existing.1.2
    else .raise (.valueError "clarification_idempotency_conflict")
  | none =>
    if (scope, uuid) ∈ table.keys then
      .raise (.integrityError
        "UNIQUE constraint failed: purra_clarifications.scope, purra_clarifications.id")
    else do
      .write (·.set (scope, uuid) { requestKey := key, request })
      pure uuid

/-- `get`. -/
def get (id : String) : Method Clarification := do
  let _ ← .ofExcept (text (.str id))
  let table ← .read
  match table.get? (scope, id) with
  | some row => pure row
  | none => .raise (.keyError "clarification_not_found")

/-- `_require`, at the time `now` in milliseconds. -/
def require (saved : Clarification) (state : ClarificationState) (revision : Json) (now : Int) :
    Except PyError Unit :=
  if saved.state ≠ state ∨ ¬ revision matches .int _ ∨
      ¬ Json.pyEq (.int saved.revision) revision then
    .error (.valueError "clarification_state_conflict")
  else if saved.request.expiresAtMs.any (· ≤ now) then
    .error (.valueError "clarification_expired")
  else .ok ()

/-- The check of the answer to one question. -/
def checkAnswer (answers : Json.Object) (q : Question) : Except PyError Unit := do
  let answer ← text (Json.get answers q.id) 8000
  if q.allowFreeform = false ∧ answer ∉ q.choices then
    .error (.valueError "answer is not one of the offered choices")
  else .ok ()

/-- The checks of the answers to all questions. -/
def checkAnswers (asked : List Question) (answers : Json) : Except PyError Unit :=
  match answers with
  | .obj fields =>
    let ids : List String := asked.map (·.id)
    if (∀ key ∈ fields.map Prod.fst, key ∈ ids) ∧ ∀ id ∈ ids, id ∈ fields.map Prod.fst then
      asked.forM (checkAnswer fields)
    else .error (.valueError "answers must cover exactly the requested questions")
  | _ => .error (.valueError "answers must cover exactly the requested questions")

/-- `answer`; the state that a replay returns is not needed here. -/
def answer (id : String) (revision : Json) (key : String) (answers : Json) (now : Int) :
    Method Unit := do
  let _ ← .ofExcept (text (.str key))
  let encoded ← .ofExcept (json encodedBytes answers)
  let saved ← get scope id
  if saved.answerKey = some key then
    match saved.answers with
    | some stored =>
      if Json.pyEq stored encoded then pure ()
      else .raise (.valueError "clarification_idempotency_conflict")
    | none => .raise (.typeError "the JSON object must be str, bytes or bytearray, not NoneType")
  else do
    .ofExcept (require saved .waiting revision now)
    .ofExcept (checkAnswers saved.request.questions answers)
    .write (update scope id fun row => { row with
      state := .ready
      revision := row.revision + 1
      answerKey := some key
      answers := some encoded })

/-- `claim`; `uuid` is the token. -/
def claim (id : String) (revision : Json) (now : Int) (uuid : String) : Method String := do
  let saved ← get scope id
  .ofExcept (require saved .ready revision now)
  .write (update scope id fun row => { row with
    state := .resuming
    revision := row.revision + 1
    resumeToken := some uuid })
  pure uuid

/-- The checks of `reconcile` before its transaction, with the id of the Run. -/
def checkOutcome (runId notSubmitted : Json) : Except PyError (Option String) :=
  match notSubmitted with
  | .bool submitted =>
    match runId, submitted with
    | .null, true => .ok none
    | .null, false =>
      .error (.valueError "provide an existing Run id or not_submitted=True")
    | _, true => .error (.valueError "provide an existing Run id or not_submitted=True")
    | value, false => (text value).map some
  | _ => .error (.valueError "provide an existing Run id or not_submitted=True")

/-- `reconcile`. -/
def reconcile (id : String) (token : Option String) (runId notSubmitted : Json) :
    Method Unit := do
  let outcome ← .ofExcept (checkOutcome runId notSubmitted)
  let table ← .read
  match table.get? (scope, id) with
  | none => .raise (.valueError "clarification_claim_conflict")
  | some row =>
    if row.resumeToken ≠ token then .raise (.valueError "clarification_claim_conflict")
    else if row.state = .resumed ∧ outcome = row.runId then
      (fun _ => ()) <$> get scope id
    else if row.state ≠ .resuming then .raise (.valueError "clarification_state_conflict")
    else .write (update scope id fun row => { row with
      state := if outcome = none then .ready else .resumed
      revision := row.revision + 1
      runId := outcome })

/-- `cancel`. -/
def cancel (id : String) (revision : Json) : Method Unit := do
  let saved ← get scope id
  if ¬ Json.pyEq (.int saved.revision) revision ∨
      saved.state ∉ [ClarificationState.waiting, .ready] then
    .raise (.valueError "clarification_state_conflict")
  else .write (update scope id fun row => { row with
    state := .canceled
    revision := row.revision + 1 })

end

end Purra.Interaction
