import Purra.Interaction.Clarifications

/-!
# Moves of a request

What a committed method of the clarification store does to the rows.

* `Covers` — answers that cover the questions.
* `Moves` — the moves of a request, each with the call that makes it.
* `Call.run_eq_ok` — a committed call adds a request, moves one, or leaves the table alone.
* `Settled` — what no call changes any more.
-/

namespace Purra.Interaction

/-! ## Answers -/

/-- The answer to a question is one the question allows. -/
def Allowed (q : Question) (answer : String) : Prop :=
  strip answer ≠ "" ∧ answer.length ≤ 8000 ∧ (q.allowFreeform = false → answer ∈ q.choices)

/-- The answers are answers to the questions and to nothing else. -/
def Covers (asked : List Question) (answers : Json) : Prop :=
  ∃ fields, answers = .obj fields ∧
    (∀ key ∈ fields.map Prod.fst, key ∈ asked.map fun q => q.id) ∧
    ∀ q ∈ asked, ∃ answer, Json.field? fields q.id = some (.str answer) ∧ Allowed q answer

theorem text_eq_ok {value : Json} {limit : Nat} {s : String} (h : text value limit = .ok s) :
    value = .str s ∧ strip s ≠ "" ∧ s.length ≤ limit := by
  unfold text at h
  split at h
  · split at h
    · cases h
    next hok =>
      cases h
      rw [not_or, not_lt] at hok
      exact ⟨rfl, hok⟩
  · cases h

/-- What is stored of an object has the keys of the object, and its texts. -/
theorem normalizeFields_eq_ok {fields stored : List (String × Json)}
    (h : normalizeFields fields = .ok stored) :
    stored.map Prod.fst = fields.map Prod.fst ∧
      ∀ key s, Json.field? fields key = some (.str s) → Json.field? stored key = some (.str s) := by
  induction fields generalizing stored with
  | nil =>
    cases h
    exact ⟨rfl, fun _ _ h => h⟩
  | cons field rest ih =>
    obtain ⟨key, value⟩ := field
    obtain ⟨value', hvalue, h⟩ := bind_eq_ok h
    obtain ⟨rest', hrest, h⟩ := bind_eq_ok h
    cases h
    obtain ⟨hkeys, htexts⟩ := ih hrest
    refine ⟨congrArg (key :: ·) hkeys, fun other s hfield => ?_⟩
    by_cases hkey : key = other
    · subst hkey
      rw [Json.field?_cons_self] at hfield ⊢
      cases hfield
      cases hvalue
      rfl
    · rw [Json.field?_cons_of_ne hkey] at hfield ⊢
      exact htexts other s hfield

/-- What is stored of answers that were let through covers the questions. -/
theorem covers_of_checkAnswers {encodedBytes : Json → Nat} {asked : List Question}
    {answers stored : Json} (hjson : json encodedBytes answers = .ok stored)
    (h : checkAnswers asked answers = .ok ()) : Covers asked stored := by
  obtain ⟨value, hnormalize, hbounded⟩ := bind_eq_ok hjson
  have hstored : value = stored := by
    unfold bounded at hbounded
    split at hbounded
    · cases hbounded
    · exact Except.ok.inj hbounded
  subst hstored
  unfold checkAnswers at h
  split at h
  next fields =>
    dsimp only at h
    split at h
    next hkeys =>
      rw [normalize] at hnormalize
      obtain ⟨fields', hfields, rfl⟩ := map_eq_ok hnormalize
      obtain ⟨hsame, htexts⟩ := normalizeFields_eq_ok hfields
      refine ⟨fields', rfl, by rw [hsame]; exact hkeys.1, fun q hq => ?_⟩
      have hanswer := of_forM_eq_ok h q hq
      obtain ⟨answer, hanswer, hchoice⟩ := bind_eq_ok hanswer
      obtain ⟨hvalue, hnonblank, hlength⟩ := text_eq_ok hanswer
      have hfield : Json.field? fields q.id = some (.str answer) := by
        unfold Json.get at hvalue
        cases hget : Json.field? fields q.id with
        | none =>
          rw [hget] at hvalue
          cases hvalue
        | some value =>
          rw [hget] at hvalue
          exact congrArg some hvalue
      refine ⟨answer, htexts q.id answer hfield, hnonblank, hlength, fun hclosed => ?_⟩
      by_contra hnot
      rw [if_pos ⟨hclosed, hnot⟩] at hchoice
      cases hchoice
    · cases h
  · cases h

/-! ## Moves -/

/-- A call of a method of the store that may write, with what the host, the clock and `uuid4`
give. -/
inductive Call where
  | ask (scope key : String) (questions checkpoint sourceRunId expiresAtMs : Json) (uuid : String)
  | answer (scope id : String) (revision : Json) (key : String) (answers : Json) (now : Int)
  | claim (scope id : String) (revision : Json) (now : Int) (uuid : String)
  | reconcile (scope id : String) (token : Option String) (runId notSubmitted : Json)
  | cancel (scope id : String) (revision : Json)

/-- The call, its value left out. -/
def Call.run (encodedBytes : Json → Nat) : Call → Method Unit
  | .ask scope key questions checkpoint sourceRunId expiresAtMs uuid =>
    (fun _ => ()) <$>
      Interaction.ask encodedBytes scope key questions checkpoint sourceRunId expiresAtMs uuid
  | .answer scope id revision key answers now =>
    Interaction.answer encodedBytes scope id revision key answers now
  | .claim scope id revision now uuid =>
    (fun _ => ()) <$> Interaction.claim scope id revision now uuid
  | .reconcile scope id token runId notSubmitted =>
    Interaction.reconcile scope id token runId notSubmitted
  | .cancel scope id revision => Interaction.cancel scope id revision

/-- The moves of a request under a key, with the call that makes each. -/
inductive Moves : Call → String × String → Clarification → Clarification → Prop
  | answered {scope id : String} {revision : Json} {key : String} {answers stored : Json}
      {now : Int} {row : Clarification} (hstate : row.state = .waiting)
      (hcovers : Covers row.request.questions stored) :
      Moves (.answer scope id revision key answers now) (scope, id) row
        { row with
          state := .ready
          revision := row.revision + 1
          answerKey := some key
          answers := some stored }
  | claimed {scope id : String} {revision : Json} {now : Int} {token : String}
      {row : Clarification} (hstate : row.state = .ready) :
      Moves (.claim scope id revision now token) (scope, id) row
        { row with
          state := .resuming
          revision := row.revision + 1
          resumeToken := some token }
  | submitted {scope id runId : String} {token : Option String} {row : Clarification}
      (hstate : row.state = .resuming) (htoken : row.resumeToken = token) :
      Moves (.reconcile scope id token (.str runId) (.bool false)) (scope, id) row
        { row with
          state := .resumed
          revision := row.revision + 1
          runId := some runId }
  | released {scope id : String} {token : Option String} {row : Clarification}
      (hstate : row.state = .resuming) (htoken : row.resumeToken = token) :
      Moves (.reconcile scope id token .null (.bool true)) (scope, id) row
        { row with
          state := .ready
          revision := row.revision + 1
          runId := none }
  | canceled {scope id : String} {revision : Json} {row : Clarification}
      (hstate : row.state = .waiting ∨ row.state = .ready) :
      Moves (.cancel scope id revision) (scope, id) row
        { row with
          state := .canceled
          revision := row.revision + 1 }

/-! ## Committed methods -/

section

variable {encodedBytes : Json → Nat} {scope id : String} {table table' : Table}

variable {row : Clarification}

theorem get_eq_ok (h : get scope id table = .ok (row, table')) :
    table = table' ∧ table.get? (scope, id) = some row := by
  obtain ⟨_, -, h⟩ := Transaction.ofExcept_bind_eq_ok.1 h
  have h := Transaction.read_bind_eq_ok.1 h
  cases hsaved : table.get? (scope, id) with
  | none =>
    rw [hsaved] at h
    exact absurd h Transaction.not_raise_eq_ok
  | some saved =>
    rw [hsaved] at h
    obtain ⟨rfl, rfl⟩ := Transaction.pure_eq_ok.1 h
    exact ⟨rfl, rfl⟩

theorem update_of_get? {f : Clarification → Clarification} (h : table.get? (scope, id) = some row) :
    update scope id f table = table.set (scope, id) (f row) := by
  rw [update, h]

variable {revision : Json}

theorem require_eq_ok {saved : Clarification} {state : ClarificationState}
    {now : Int} (h : require saved state revision now = .ok ()) : saved.state = state := by
  by_contra hstate
  unfold require at h
  rw [if_pos (Or.inl hstate)] at h
  cases h

theorem ask_eq_ok {key uuid given : String} {questions checkpoint sourceRunId expiresAtMs : Json}
    (h : ask encodedBytes scope key questions checkpoint sourceRunId expiresAtMs uuid table =
      .ok (given, table')) :
    table' = table ∨ ∃ request, table.get? (scope, uuid) = none ∧
      table' = table.set (scope, uuid) { requestKey := key, request } := by
  obtain ⟨request, -, h⟩ := Transaction.ofExcept_bind_eq_ok.1 h
  have h := Transaction.read_bind_eq_ok.1 h
  cases hasked : askedUnder scope key table with
  | some existing =>
    rw [hasked] at h
    rcases Transaction.ite_eq_ok.1 h with ⟨-, h⟩ | ⟨-, h⟩
    · exact .inl (Transaction.pure_eq_ok.1 h).2
    · exact absurd h Transaction.not_raise_eq_ok
  | none =>
    rw [hasked] at h
    obtain ⟨hnew, h⟩ := Transaction.refuse_eq_ok.1 h
    have h := Transaction.write_bind_eq_ok.1 h
    exact .inr ⟨request, Dict.get?_eq_none_iff.2 hnew, (Transaction.pure_eq_ok.1 h).2⟩

theorem answer_eq_ok {answers : Json} {key : String} {now : Int}
    (h : answer encodedBytes scope id revision key answers now table = .ok ((), table')) :
    table' = table ∨ ∃ row row', table.get? (scope, id) = some row ∧
      Moves (.answer scope id revision key answers now) (scope, id) row row' ∧
      table' = table.set (scope, id) row' := by
  obtain ⟨_, -, h⟩ := Transaction.ofExcept_bind_eq_ok.1 h
  obtain ⟨stored, hstored, h⟩ := Transaction.ofExcept_bind_eq_ok.1 h
  obtain ⟨row, table₁, hget, h⟩ := Transaction.bind_eq_ok.1 h
  obtain ⟨rfl, hrow⟩ := get_eq_ok hget
  rcases Transaction.ite_eq_ok.1 h with ⟨-, h⟩ | ⟨-, h⟩
  · cases hanswers : row.answers with
    | some known =>
      rw [hanswers] at h
      rcases Transaction.ite_eq_ok.1 h with ⟨-, h⟩ | ⟨-, h⟩
      · exact .inl (Transaction.pure_eq_ok.1 h).2
      · exact absurd h Transaction.not_raise_eq_ok
    | none =>
      rw [hanswers] at h
      exact absurd h Transaction.not_raise_eq_ok
  · obtain ⟨_, hrequire, h⟩ := Transaction.ofExcept_bind_eq_ok.1 h
    obtain ⟨_, hanswers, h⟩ := Transaction.ofExcept_bind_eq_ok.1 h
    refine .inr ⟨row, _, hrow, .answered (require_eq_ok hrequire)
      (covers_of_checkAnswers hstored hanswers), ?_⟩
    rw [Transaction.write_eq_ok.1 h, update_of_get? hrow]

theorem claim_eq_ok {now : Int} {uuid token : String}
    (h : claim scope id revision now uuid table = .ok (token, table')) :
    token = uuid ∧ ∃ row row', table.get? (scope, id) = some row ∧
      Moves (.claim scope id revision now uuid) (scope, id) row row' ∧
      table' = table.set (scope, id) row' := by
  obtain ⟨row, table₁, hget, h⟩ := Transaction.bind_eq_ok.1 h
  obtain ⟨rfl, hrow⟩ := get_eq_ok hget
  obtain ⟨_, hrequire, h⟩ := Transaction.ofExcept_bind_eq_ok.1 h
  have h := Transaction.write_bind_eq_ok.1 h
  obtain ⟨htoken, htable⟩ := Transaction.pure_eq_ok.1 h
  refine ⟨htoken, row, _, hrow, .claimed (require_eq_ok hrequire), ?_⟩
  rw [htable, update_of_get? hrow]

/-- What `reconcile` is told. -/
theorem checkOutcome_eq_ok {runId notSubmitted : Json} {outcome : Option String}
    (h : checkOutcome runId notSubmitted = .ok outcome) :
    (outcome = none ∧ runId = .null ∧ notSubmitted = .bool true) ∨
      ∃ id, outcome = some id ∧ runId = .str id ∧ notSubmitted = .bool false := by
  unfold checkOutcome at h
  split at h
  next submitted =>
    split at h
    · cases h
      exact .inl ⟨rfl, rfl, rfl⟩
    · cases h
    · cases h
    · obtain ⟨id, hid, rfl⟩ := map_eq_ok h
      exact .inr ⟨id, rfl, (text_eq_ok hid).1, rfl⟩
  · cases h

theorem reconcile_eq_ok {token : Option String} {runId notSubmitted : Json}
    (h : reconcile scope id token runId notSubmitted table = .ok ((), table')) :
    ∃ row, table.get? (scope, id) = some row ∧ row.resumeToken = token ∧
      (table' = table ∧ row.state = .resumed ∧ checkOutcome runId notSubmitted = .ok row.runId ∨
        ∃ row', Moves (.reconcile scope id token runId notSubmitted) (scope, id) row row' ∧
          table' = table.set (scope, id) row') := by
  obtain ⟨outcome, houtcome, h⟩ := Transaction.ofExcept_bind_eq_ok.1 h
  have h := Transaction.read_bind_eq_ok.1 h
  cases hrow : table.get? (scope, id) with
  | none =>
    rw [hrow] at h
    exact absurd h Transaction.not_raise_eq_ok
  | some row =>
  rw [hrow] at h
  obtain ⟨htoken, h⟩ := Transaction.refuse_eq_ok.1 h
  refine ⟨row, rfl, not_not.1 htoken, ?_⟩
  rcases Transaction.ite_eq_ok.1 h with ⟨hreplay, h⟩ | ⟨-, h⟩
  · obtain ⟨_, hget, -⟩ := Transaction.map_eq_ok.1 h
    exact .inl ⟨(get_eq_ok hget).1.symm, hreplay.1, hreplay.2 ▸ houtcome⟩
  · obtain ⟨hstate, h⟩ := Transaction.refuse_eq_ok.1 h
    have htable := (Transaction.write_eq_ok.1 h).trans (update_of_get? hrow)
    rcases checkOutcome_eq_ok houtcome with ⟨rfl, rfl, rfl⟩ | ⟨runId, rfl, rfl, rfl⟩
    · exact .inr ⟨_, .released (not_not.1 hstate) (not_not.1 htoken), htable⟩
    · exact .inr ⟨_, .submitted (not_not.1 hstate) (not_not.1 htoken), htable⟩

theorem cancel_eq_ok (h : cancel scope id revision table = .ok ((), table')) :
    ∃ row row', table.get? (scope, id) = some row ∧
      Moves (.cancel scope id revision) (scope, id) row row' ∧
      table' = table.set (scope, id) row' := by
  obtain ⟨row, table₁, hget, h⟩ := Transaction.bind_eq_ok.1 h
  obtain ⟨rfl, hrow⟩ := get_eq_ok hget
  obtain ⟨hcancel, h⟩ := Transaction.refuse_eq_ok.1 h
  rw [not_or, not_not, not_not] at hcancel
  refine ⟨row, _, hrow, .canceled (by simpa using hcancel.2), ?_⟩
  rw [Transaction.write_eq_ok.1 h, update_of_get? hrow]

/-- What a committed call does to the table. -/
inductive Changes : Call → Table → Table → Prop
  | replayed {c : Call} {table : Table} : Changes c table table
  | added {scope key uuid : String} {questions checkpoint sourceRunId expiresAtMs : Json}
      {request : Request} {table : Table} (hnew : table.get? (scope, uuid) = none) :
      Changes (.ask scope key questions checkpoint sourceRunId expiresAtMs uuid) table
        (table.set (scope, uuid) { requestKey := key, request })
  | moved {c : Call} {table : Table} {k : String × String} {row row' : Clarification}
      (hrow : table.get? k = some row) (hmoves : Moves c k row row') :
      Changes c table (table.set k row')

/-- **What a committed call does**: it adds a request, moves one, or replays. -/
theorem Call.run_eq_ok {c : Call} (h : c.run encodedBytes table = .ok ((), table')) :
    Changes c table table' := by
  cases c with
  | ask =>
    obtain ⟨_, h, -⟩ := Transaction.map_eq_ok.1 h
    rcases ask_eq_ok h with rfl | ⟨request, hnew, rfl⟩
    · exact .replayed
    · exact .added hnew
  | answer =>
    rcases answer_eq_ok h with rfl | ⟨row, row', hrow, hmoves, rfl⟩
    · exact .replayed
    · exact .moved hrow hmoves
  | claim =>
    obtain ⟨_, h, -⟩ := Transaction.map_eq_ok.1 h
    obtain ⟨-, row, row', hrow, hmoves, rfl⟩ := claim_eq_ok h
    exact .moved hrow hmoves
  | reconcile =>
    obtain ⟨row, hrow, -, ⟨rfl, -⟩ | ⟨row', hmoves, rfl⟩⟩ := reconcile_eq_ok h
    · exact .replayed
    · exact .moved hrow hmoves
  | cancel scope id revision =>
    obtain ⟨row, row', hrow, hmoves, rfl⟩ := cancel_eq_ok h
    exact .moved hrow hmoves

/-- What a call leaves: what it committed, or, refused, what it found. -/
theorem Call.left_changes (c : Call) (table : Table) :
    Changes c table ((c.run encodedBytes).left table) := by
  rcases Transaction.left_cases (c.run encodedBytes) table with ⟨_, table', h, heq⟩ | ⟨-, heq⟩
  · rw [heq]
    exact run_eq_ok h
  · rw [heq]
    exact .replayed

/-! ## What stays -/

/-- What no call changes any more: the answers once there are some, and a request that has been
resumed. -/
structure Settled (row row' : Clarification) : Prop where
  asked : row'.requestKey = row.requestKey ∧ row'.request = row.request
  answers : row.state ≠ .waiting → row'.answers = row.answers ∧ row'.state ≠ .waiting
  runId : row.state = .resumed → row' = row
  revision : row.revision ≤ row'.revision

theorem Settled.refl (row : Clarification) : Settled row row where
  asked := ⟨rfl, rfl⟩
  answers := fun h => ⟨rfl, h⟩
  runId := fun _ => rfl
  revision := le_refl _

theorem Settled.trans {row' row'' : Clarification} (h : Settled row row')
    (h' : Settled row' row'') : Settled row row'' where
  asked := ⟨h'.asked.1.trans h.asked.1, h'.asked.2.trans h.asked.2⟩
  answers := by
    intro hstate
    obtain ⟨hanswers, hstate'⟩ := h.answers hstate
    obtain ⟨hanswers', hstate''⟩ := h'.answers hstate'
    exact ⟨hanswers'.trans hanswers, hstate''⟩
  runId := by
    intro hstate
    have hrow := h.runId hstate
    exact (h'.runId (hrow ▸ hstate)).trans hrow
  revision := h.revision.trans h'.revision

theorem Moves.settled {c : Call} {k : String × String} {row' : Clarification}
    (h : Moves c k row row') : Settled row row' := by
  cases h with
  | answered hstate =>
    exact ⟨⟨rfl, rfl⟩, fun hnot => absurd hstate hnot, fun hresumed => by simp_all,
      Nat.le_succ _⟩
  | claimed hstate =>
    exact ⟨⟨rfl, rfl⟩, fun _ => ⟨rfl, by simp⟩, fun hresumed => by simp_all, Nat.le_succ _⟩
  | submitted hstate =>
    exact ⟨⟨rfl, rfl⟩, fun _ => ⟨rfl, by simp⟩, fun hresumed => by simp_all, Nat.le_succ _⟩
  | released hstate =>
    exact ⟨⟨rfl, rfl⟩, fun _ => ⟨rfl, by simp⟩, fun hresumed => by simp_all, Nat.le_succ _⟩
  | canceled hstate =>
    exact ⟨⟨rfl, rfl⟩, fun _ => ⟨rfl, by simp⟩, fun hresumed => by simp_all, Nat.le_succ _⟩

/-- **Every call** keeps what is settled. -/
theorem Changes.settled {c : Call} (h : Changes c table table') {k : String × String}
    (hrow : table.get? k = some row) :
    ∃ row', table'.get? k = some row' ∧ Settled row row' := by
  cases h with
  | replayed => exact ⟨row, hrow, .refl row⟩
  | @added scope key uuid _ _ _ _ request _ hnew =>
    have hne : k ≠ (scope, uuid) := by
      rintro rfl
      rw [hnew] at hrow
      cases hrow
    exact ⟨row, (Dict.get?_set_of_ne hne).trans hrow, .refl row⟩
  | @moved _ _ moving old new hold hmoves =>
    by_cases hkey : k = moving
    · subst hkey
      rw [hrow] at hold
      cases hold
      exact ⟨new, Dict.get?_set_self table k new, hmoves.settled⟩
    · exact ⟨row, (Dict.get?_set_of_ne hkey).trans hrow, .refl row⟩

end

end Purra.Interaction
