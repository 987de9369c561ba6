import Purra.Core.PythonEquality
import Purra.Interaction.Moves
import Purra.Lib.Run

/-!
# Replayed clarifications

A host that asks, or answers, twice under one key gets the first result again if what it sends is
the same.  The store compares what it reads back from the stored texts with Python's `==`, for which
a boolean is a number.

* `AskedOnce`, `AnsweredAs` — what stays of a first `ask` and a first `answer`, whatever is called
  in between.
* `replayed_iff` — **when a replay is exact**.
* `boolean_replayed` — an `ask` that is taken for a replay of another one.
-/

namespace Purra.Interaction

section

variable {encodedBytes : Json → Nat} {scope id key : String} {table table' : Table}

/-- What a call leaves of the table. -/
def after (encodedBytes : Json → Nat) (table : Table) (c : Call) : Table :=
  (c.run encodedBytes).left table

/-- The conflict of two requests under one key. -/
def conflict : PyError := .valueError "clarification_idempotency_conflict"

/-! ## What is asked -/

/-- The request that was asked under a key, and the only one. -/
structure AskedOnce (scope key id : String) (request : Request) (table : Table) : Prop where
  row : ∃ row, table.get? (scope, id) = some row ∧ row.requestKey = key ∧ row.request = request
  unique : ∀ k row, table.get? k = some row → k.1 = scope → row.requestKey = key → k = (scope, id)

variable {k : String × String} {row : Clarification}

theorem askedUnder_eq_some (h : askedUnder scope key table = some (k, row)) :
    table.get? k = some row ∧ k.1 = scope ∧ row.requestKey = key := by
  have hfound : k.1 = scope ∧ row.requestKey = key := by simpa using List.find?_some h
  exact ⟨Dict.mem_entries_iff.1 (List.mem_of_find?_eq_some h), hfound⟩

theorem askedUnder_eq_none (h : askedUnder scope key table = none)
    (hrow : table.get? k = some row) (hscope : k.1 = scope) :
    row.requestKey ≠ key := by
  intro hkey
  have hnot := List.find?_eq_none.1 h (k, row) (Dict.mem_entries_iff.2 hrow)
  exact hnot (decide_eq_true ⟨hscope, hkey⟩)

variable {request : Request}

theorem AskedOnce.askedUnder (h : AskedOnce scope key id request table) :
    ∃ row, Interaction.askedUnder scope key table = some ((scope, id), row) ∧
      row.request = request := by
  obtain ⟨row, hrow, hkey, hrequest⟩ := h.row
  cases hasked : Interaction.askedUnder scope key table with
  | none => exact absurd hkey (askedUnder_eq_none hasked hrow rfl)
  | some found =>
    obtain ⟨k, row'⟩ := found
    obtain ⟨hrow', hscope, hkey'⟩ := askedUnder_eq_some hasked
    obtain rfl := h.unique k row' hrow' hscope hkey'
    rw [hrow] at hrow'
    cases hrow'
    exact ⟨row, rfl, hrequest⟩

/-- An `ask` under a key that is not known adds a row. -/
theorem ask_new {uuid given : String} {questions checkpoint sourceRunId expiresAtMs : Json}
    (h : ask encodedBytes scope key questions checkpoint sourceRunId expiresAtMs uuid table =
      .ok (given, table')) (hasked : askedUnder scope key table = none) :
    ∃ request, checkRequest encodedBytes key questions checkpoint sourceRunId expiresAtMs =
        .ok request ∧
      given = uuid ∧ table.get? (scope, uuid) = none ∧
      table' = table.set (scope, uuid) { requestKey := key, request } := by
  obtain ⟨request, hrequest, h⟩ := Transaction.ofExcept_bind_eq_ok.1 h
  have h := Transaction.read_bind_eq_ok.1 h
  rw [hasked] at h
  obtain ⟨hnew, h⟩ := Transaction.refuse_eq_ok.1 h
  have h := Transaction.write_bind_eq_ok.1 h
  obtain ⟨hgiven, htable⟩ := Transaction.pure_eq_ok.1 h
  exact ⟨request, hrequest, hgiven, Dict.get?_eq_none_iff.2 hnew, htable⟩

/-- An `ask` under a key that is known compares. -/
theorem ask_known {uuid : String} {questions checkpoint sourceRunId expiresAtMs : Json}
    (hrequest : checkRequest encodedBytes key questions checkpoint sourceRunId expiresAtMs =
      .ok request) (hasked : askedUnder scope key table = some (k, row)) :
    ask encodedBytes scope key questions checkpoint sourceRunId expiresAtMs uuid table =
      if Json.pyEq row.request.stored request.stored then .ok (k.2, table)
      else .error conflict := by
  have hrun : ask encodedBytes scope key questions checkpoint sourceRunId expiresAtMs uuid table =
      (if Json.pyEq row.request.stored request.stored then (pure k.2 : Method String)
        else .raise conflict) table := by
    unfold ask
    rw [hrequest]
    refine (Transaction.bind_of_ok rfl).trans ((Transaction.bind_of_ok rfl).trans ?_)
    rw [hasked]
    rfl
  rw [hrun]
  split <;> rfl

/-- The first `ask` under a key. -/
theorem askedOnce_of_ask {uuid given : String} {questions checkpoint sourceRunId expiresAtMs : Json}
    (hrequest : checkRequest encodedBytes key questions checkpoint sourceRunId expiresAtMs =
      .ok request)
    (h : ask encodedBytes scope key questions checkpoint sourceRunId expiresAtMs uuid table =
      .ok (given, table')) (hasked : askedUnder scope key table = none) :
    AskedOnce scope key given request table' := by
  obtain ⟨request', hrequest', rfl, hnew, rfl⟩ := ask_new h hasked
  rw [hrequest] at hrequest'
  cases hrequest'
  refine ⟨⟨_, Dict.get?_set_self table _ _, rfl, rfl⟩, fun k row hrow hscope hkey => ?_⟩
  by_contra hne
  rw [Dict.get?_set_of_ne hne] at hrow
  exact askedUnder_eq_none hasked hrow hscope hkey

/-- A row that moves keeps what was asked. -/
theorem AskedOnce.moved (h : AskedOnce scope key id request table)
    {row' : Clarification} (hrow : table.get? k = some row)
    (hsettled : Settled row row') : AskedOnce scope key id request (table.set k row') := by
  obtain ⟨hkey, hrequest⟩ := hsettled.asked
  constructor
  · obtain ⟨known, hknown, hknownKey, hknownRequest⟩ := h.row
    by_cases hk : (scope, id) = k
    · subst hk
      rw [hrow] at hknown
      cases hknown
      exact ⟨row', Dict.get?_set_self table _ _, hkey.trans hknownKey, hrequest.trans hknownRequest⟩
    · exact ⟨known, (Dict.get?_set_of_ne hk).trans hknown, hknownKey, hknownRequest⟩
  · intro k' other hother hscope hotherKey
    by_cases hk : k' = k
    · subst hk
      rw [Dict.get?_set_self] at hother
      cases hother
      exact h.unique k' row hrow hscope (hkey.symm.trans hotherKey)
    · exact h.unique k' other ((Dict.get?_set_of_ne hk).symm.trans hother) hscope hotherKey

theorem AskedOnce.call (h : AskedOnce scope key id request table) (c : Call) :
    AskedOnce scope key id request (after encodedBytes table c) := by
  unfold after
  rcases Transaction.left_cases (c.run encodedBytes) table with ⟨_, table', hrun, heq⟩ | ⟨-, heq⟩
  · rw [heq]
    -- A new row has another key: under this one `ask` finds the known row.
    cases c with
    | ask scope' key' _ _ _ _ uuid =>
      obtain ⟨given, hask, -⟩ := Transaction.map_eq_ok.1 hrun
      cases hasked : Interaction.askedUnder scope' key' table with
      | some found =>
        obtain ⟨request', hrequest, -⟩ := Transaction.ofExcept_bind_eq_ok.1 hask
        rw [ask_known hrequest hasked] at hask
        split at hask
        · cases hask
          exact h
        · cases hask
      | none =>
        obtain ⟨request', -, -, hnew, rfl⟩ := ask_new hask hasked
        obtain ⟨row, hrow, hkey, hrequest⟩ := h.row
        have hne : (scope, id) ≠ (scope', uuid) := by
          intro hk
          rw [← hk, hrow] at hnew
          cases hnew
        refine ⟨⟨row, (Dict.get?_set_of_ne hne).trans hrow, hkey, hrequest⟩, ?_⟩
        intro k other hother hscope hotherKey
        by_cases hk : k = (scope', uuid)
        · subst hk
          rw [Dict.get?_set_self] at hother
          cases hother
          obtain rfl : scope' = scope := hscope
          obtain rfl : key' = key := hotherKey
          exact absurd hkey (askedUnder_eq_none hasked hrow rfl)
        · exact h.unique k other ((Dict.get?_set_of_ne hk).symm.trans hother) hscope hotherKey
    | answer | claim | reconcile | cancel =>
      cases Call.run_eq_ok hrun with
      | replayed => exact h
      | moved hrow hmoves => exact h.moved hrow hmoves.settled
  · rw [heq]
    exact h

/-! ## What is answered -/

/-- A request that was answered under a key. -/
structure Answered (key : String) (answers : Json) (row : Clarification) : Prop where
  state : row.state ≠ .waiting
  key : row.answerKey = some key
  answers : row.answers = some answers

theorem Moves.keeps_answered {c : Call} {row' : Clarification}
    (hmoves : Moves c k row row') {answers : Json} (h : Answered key answers row) :
    Answered key answers row' := by
  cases hmoves with
  | answered hstate => exact absurd hstate h.state
  | claimed => exact ⟨nofun, h.key, h.answers⟩
  | submitted => exact ⟨nofun, h.key, h.answers⟩
  | released => exact ⟨nofun, h.key, h.answers⟩
  | canceled => exact ⟨nofun, h.key, h.answers⟩

/-- The answers that a request of the table has, and their key. -/
def AnsweredAs (k : String × String) (key : String) (answers : Json) (table : Table) : Prop :=
  ∃ row, table.get? k = some row ∧ Answered key answers row

theorem AnsweredAs.call {answers : Json} (h : AnsweredAs k key answers table) (c : Call) :
    AnsweredAs k key answers (after encodedBytes table c) := by
  obtain ⟨row, hrow, hanswered⟩ := h
  unfold after
  generalize htable' : (c.run encodedBytes).left table = table'
  have hchanges : Changes c table table' := htable' ▸ c.left_changes table
  cases hchanges with
  | replayed => exact ⟨row, hrow, hanswered⟩
  | added hnew =>
    refine ⟨row, (Dict.get?_set_of_ne ?_).trans hrow, hanswered⟩
    rintro rfl
    rw [hnew] at hrow
    cases hrow
  | @moved _ _ k' old new hold hmoves =>
    by_cases hk : k = k'
    · subst hk
      rw [hrow] at hold
      cases hold
      exact ⟨new, Dict.get?_set_self table k new, hmoves.keeps_answered hanswered⟩
    · exact ⟨row, (Dict.get?_set_of_ne hk).trans hrow, hanswered⟩

/-- What is stored of texts is what was given. -/
theorem normalizeFields_texts {fields : Json.Object} (h : Json.Texts fields) :
    normalizeFields fields = .ok fields := by
  induction fields with
  | nil => rfl
  | cons field rest ih =>
    obtain ⟨name, value⟩ := field
    obtain ⟨s, rfl⟩ := h _ (List.mem_cons_self ..)
    rw [normalizeFields, ih fun q hq => h q (List.mem_cons_of_mem _ hq)]
    rfl

/-- Answers that are let through are texts. -/
theorem texts_of_checkAnswers {asked : List Question} {answers : JsonValue}
    (h : checkAnswers asked answers.json = .ok ()) :
    ∃ fields, answers.json = .obj fields ∧ Json.Texts fields := by
  have hheld := answers.held
  generalize answers.json = value at h hheld
  cases value with
  | obj fields =>
    refine ⟨fields, rfl, fun p hp => ?_⟩
    have hnodup : (fields.map Prod.fst).Nodup := (Json.everywhere_obj.1 hheld).1
    unfold checkAnswers at h
    dsimp only at h
    split at h
    next hkeys =>
      obtain ⟨q, hq, hid⟩ := List.mem_map.1 (hkeys.1 p.1 (List.mem_map.2 ⟨p, hp, rfl⟩))
      obtain ⟨answer, htext, -⟩ := bind_eq_ok (of_forM_eq_ok h q hq)
      obtain ⟨hvalue, -, -⟩ := text_eq_ok htext
      have hfield : Json.field? fields q.id = some p.2 := hid ▸ Json.field?_of_mem hnodup hp
      rw [Json.get, hfield] at hvalue
      exact ⟨answer, hvalue⟩
    · cases h
  | _ => cases h

/-- The first `answer` under a key stores texts. -/
theorem answered_of_answer {revision : Json} {answers : JsonValue} {now : Int}
    (hrow : table.get? (scope, id) = some row) (hkey : row.answerKey ≠ some key)
    (h : answer encodedBytes scope id revision key answers.json now table = .ok ((), table')) :
    ∃ fields, json encodedBytes answers.json = .ok (.obj fields) ∧ Json.Texts fields ∧
      AnsweredAs (scope, id) key (.obj fields) table' := by
  obtain ⟨_, -, h⟩ := Transaction.ofExcept_bind_eq_ok.1 h
  obtain ⟨stored, hstored, h⟩ := Transaction.ofExcept_bind_eq_ok.1 h
  obtain ⟨row', table₁, hget, h⟩ := Transaction.bind_eq_ok.1 h
  obtain ⟨rfl, hrow'⟩ := get_eq_ok hget
  rw [hrow] at hrow'
  cases hrow'
  rcases Transaction.ite_eq_ok.1 h with ⟨hsame, -⟩ | ⟨-, h⟩
  · exact absurd hsame hkey
  obtain ⟨_, -, h⟩ := Transaction.ofExcept_bind_eq_ok.1 h
  obtain ⟨_, hanswers, h⟩ := Transaction.ofExcept_bind_eq_ok.1 h
  obtain ⟨fields, hfields, htexts⟩ := texts_of_checkAnswers hanswers
  have hsame : stored = .obj fields := by
    obtain ⟨value, hnormalize, hbounded⟩ := bind_eq_ok hstored
    rw [hfields, normalize, normalizeFields_texts htexts] at hnormalize
    cases hnormalize
    unfold bounded at hbounded
    split at hbounded
    · cases hbounded
    · exact (Except.ok.inj hbounded).symm
  refine ⟨fields, hsame ▸ hstored, htexts, ?_⟩
  rw [Transaction.write_eq_ok.1 h, update_of_get? hrow]
  exact ⟨_, Dict.get?_set_self table _ _, ClarificationState.noConfusion, rfl, congrArg some hsame⟩

/-- An `answer` under the key of the answers compares. -/
theorem answer_known {revision answers stored encoded : Json} {now : Int} (hkey : text (.str key) = .ok key)
    (hid : text (.str id) = .ok id) (hencoded : json encodedBytes answers = .ok encoded)
    (h : AnsweredAs (scope, id) key stored table) :
    answer encodedBytes scope id revision key answers now table =
      if Json.pyEq stored encoded then .ok ((), table) else .error conflict := by
  obtain ⟨row, hrow, hanswered⟩ := h
  have hget : get scope id table = .ok (row, table) := by
    unfold get
    rw [hid]
    refine (Transaction.bind_of_ok rfl).trans ((Transaction.bind_of_ok rfl).trans ?_)
    rw [hrow]
    rfl
  have hrun : answer encodedBytes scope id revision key answers now table =
      (if Json.pyEq stored encoded then (pure () : Method Unit) else .raise conflict) table := by
    unfold answer
    rw [hkey, hencoded]
    refine (Transaction.bind_of_ok rfl).trans ((Transaction.bind_of_ok rfl).trans
      ((Transaction.bind_of_ok hget).trans ?_))
    rw [if_pos hanswered.key, hanswered.answers]
    rfl
  rw [hrun]
  split <;> rfl

/-! ## Replays -/

/-- The second of two requests under a key gets the first result, and nothing is written, exactly
when both are the same value; otherwise it is a conflict. -/
def ExactReplay {α : Type} (outcome : Except PyError (α × Table)) (replay : α × Table)
    (first second : Json) : Prop :=
  (outcome = .ok replay ↔ Json.equal first second = true) ∧
    (Json.equal first second = false → outcome = .error conflict)

/-- A replay that is decided by `==` is exact when `==` is the equality of the values. -/
theorem exactReplay_iff {α : Type} {outcome : Except PyError (α × Table)} {replay : α × Table}
    {first second : Json}
    (h : outcome = if Json.pyEq first second then .ok replay else .error conflict) :
    ExactReplay outcome replay first second ↔
      Json.pyEq first second = Json.equal first second := by
  unfold ExactReplay
  cases hequal : Json.equal first second with
  | true =>
    rw [h, Json.pyEq_of_equal hequal]
    simp
  | false =>
    cases heq : Json.pyEq first second with
    | true =>
      rw [h, heq]
      simp
    | false =>
      rw [h, heq]
      simp

/-- **When a replay is exact.**  Of `ask`, when the two requests are the same value or still differ
with their booleans read as numbers; of `answer`, always. -/
theorem replayed_iff (encodedBytes : Json → Nat) :
    (∀ (scope key given uuid uuid' : String) (table table' : Table) (calls : List Call)
      (questions checkpoint sourceRunId expiresAtMs : Json) (request : Request)
      (questions' checkpoint' sourceRunId' expiresAtMs' : Json) (request' : Request),
      askedUnder scope key table = none →
      checkRequest encodedBytes key questions checkpoint sourceRunId expiresAtMs = .ok request →
      ask encodedBytes scope key questions checkpoint sourceRunId expiresAtMs uuid table =
        .ok (given, table') →
      checkRequest encodedBytes key questions' checkpoint' sourceRunId' expiresAtMs' =
        .ok request' →
      let later := exec (after encodedBytes) table' calls
      (ExactReplay
          (ask encodedBytes scope key questions' checkpoint' sourceRunId' expiresAtMs' uuid' later)
          (given, later) request.stored request'.stored ↔
        Json.equal request.stored request'.stored = true ∨
          Json.equal (Json.numeric request.stored) (Json.numeric request'.stored) = false)) ∧
    ∀ (scope id key : String) (table table' : Table) (calls : List Call) (row : Clarification)
      (revision revision' : Json) (answers answers' : JsonValue) (now now' : Int)
      (encoded encoded' : Json),
      table.get? (scope, id) = some row → row.answerKey ≠ some key →
      json encodedBytes answers.json = .ok encoded →
      answer encodedBytes scope id revision key answers.json now table = .ok ((), table') →
      json encodedBytes answers'.json = .ok encoded' →
      let later := exec (after encodedBytes) table' calls
      ExactReplay (answer encodedBytes scope id revision' key answers'.json now' later) ((), later)
        encoded encoded' := by
  constructor
  · intro scope key given uuid uuid' table table' calls questions checkpoint sourceRunId expiresAtMs
      request questions' checkpoint' sourceRunId' expiresAtMs' request' hasked hrequest hask hrequest'
    have hfirst := askedOnce_of_ask hrequest hask hasked
    intro later
    have hlater : AskedOnce scope key given request later :=
      exec_induction_of_all (fun _ c h => h.call c) calls hfirst
    obtain ⟨row, hknown, hrow⟩ := hlater.askedUnder
    have hsecond : ask encodedBytes scope key questions' checkpoint' sourceRunId' expiresAtMs' uuid'
        later = if Json.pyEq request.stored request'.stored then .ok (given, later)
          else .error conflict := hrow ▸ ask_known hrequest' hknown
    rw [exactReplay_iff hsecond, Json.pyEq_eq_equal_numeric]
    cases hequal : Json.equal request.stored request'.stored with
    | true =>
      have hnumeric := Json.pyEq_of_equal hequal
      rw [Json.pyEq_eq_equal_numeric] at hnumeric
      simp [hnumeric]
    | false => simp
  · intro scope id key table table' calls row revision revision' answers answers' now now' encoded
      encoded' hrow hkey hencoded hanswer hencoded'
    obtain ⟨_, htext, hrest⟩ := Transaction.ofExcept_bind_eq_ok.1 hanswer
    obtain ⟨_, -, hrest⟩ := Transaction.ofExcept_bind_eq_ok.1 hrest
    obtain ⟨_, _, hget, -⟩ := Transaction.bind_eq_ok.1 hrest
    obtain ⟨_, hid, -⟩ := Transaction.ofExcept_bind_eq_ok.1 hget
    obtain ⟨fields, hfields, htexts, hanswered⟩ := answered_of_answer hrow hkey hanswer
    rw [hencoded] at hfields
    cases hfields
    intro later
    have hlater : AnsweredAs (scope, id) key (.obj fields) later :=
      exec_induction_of_all (fun _ c h => h.call c) calls hanswered
    obtain ⟨hkeyText, -⟩ := text_eq_ok htext
    obtain ⟨hidText, -⟩ := text_eq_ok hid
    cases hkeyText
    cases hidText
    exact (exactReplay_iff (answer_known htext hid hencoded' hlater)).2 (htexts.pyEq_eq encoded')

end

/-! ## A boolean that is taken for a number -/

section

/-- The question. -/
def whichFile : Json := .arr [.obj [("id", .str "q"), ("prompt", .str "Which file?")]]

/-- A checkpoint with one member. -/
def approved (value : Json) : Json := .obj [("approved", value)]

/-- The request with this checkpoint. -/
def approvedRequest (value : Json) : Request where
  questions := [⟨"q", "Which file?", [], true⟩]
  checkpoint := approved value
  sourceRunId := none
  expiresAtMs := none

/-- The length of a text that is stored below. -/
def approvedBytes : Json → Nat
  | .obj [_, ("checkpoint", .obj [("approved", .bool _)]), _, _] => 152
  | _ => 149

/-- The table with the first request. -/
def approvedTable : Table :=
  Dict.empty.set ("host", "r1") { requestKey := "form", request := approvedRequest (.bool true) }

theorem checkRequest_bool :
    checkRequest approvedBytes "form" whichFile (approved (.bool true)) .null .null =
      .ok (approvedRequest (.bool true)) := by
  rfl

theorem checkRequest_int :
    checkRequest approvedBytes "form" whichFile (approved (.int 1)) .null .null =
      .ok (approvedRequest (.int 1)) := by
  rfl

theorem ask_approved :
    ask approvedBytes "host" "form" whichFile (approved (.bool true)) .null .null "r1" Dict.empty =
      .ok ("r1", approvedTable) := by
  rfl

/-- **A second `ask` is taken for a replay**: its checkpoint has the number 1 where the first one
has `true`. -/
theorem boolean_replayed :
    ask approvedBytes "host" "form" whichFile (approved (.bool true)) .null .null "r1" Dict.empty =
        .ok ("r1", approvedTable) ∧
      checkRequest approvedBytes "form" whichFile (approved (.int 1)) .null .null =
        .ok (approvedRequest (.int 1)) ∧
      ¬ ExactReplay
        (ask approvedBytes "host" "form" whichFile (approved (.int 1)) .null .null "r2"
          approvedTable)
        ("r1", approvedTable) (approvedRequest (.bool true)).stored
        (approvedRequest (.int 1)).stored := by
  refine ⟨ask_approved, checkRequest_int, fun hexact => ?_⟩
  have hreplay : ask approvedBytes "host" "form" whichFile (approved (.int 1)) .null .null "r2"
      approvedTable = .ok ("r1", approvedTable) := by
    have hknown : askedUnder "host" "form" approvedTable =
        some (("host", "r1"), { requestKey := "form", request := approvedRequest (.bool true) }) := rfl
    have heq : Json.pyEq (approvedRequest (.bool true)).stored (approvedRequest (.int 1)).stored =
        true := by decide +kernel
    rw [ask_known checkRequest_int hknown]
    exact if_pos heq
  have hequal := hexact.1.1 hreplay
  exact absurd hequal (by decide +kernel)

theorem replayed_iff_approved :
    ¬ ExactReplay
      (ask approvedBytes "host" "form" whichFile (approved (.int 1)) .null .null "r2" approvedTable)
      ("r1", approvedTable) (approvedRequest (.bool true)).stored
      (approvedRequest (.int 1)).stored := by
  have hiff := (replayed_iff approvedBytes).1 "host" "form" "r1" "r1" "r2" Dict.empty approvedTable []
    whichFile (approved (.bool true)) .null .null (approvedRequest (.bool true))
    whichFile (approved (.int 1)) .null .null (approvedRequest (.int 1))
    rfl checkRequest_bool ask_approved checkRequest_int
  intro hexact
  exact absurd (hiff.1 hexact) (by decide +kernel)

end

end Purra.Interaction
