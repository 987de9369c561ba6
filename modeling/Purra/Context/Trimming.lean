import Purra.Context.Estimates
import Purra.Lib.Greedy
import Mathlib.Algebra.Order.BigOperators.Group.List
import Mathlib.Data.Nat.Find

/-!
# Trimming a conversation by turns

`trim_agent_messages_by_turn` (`purra/context_budget.py`): system, developer and host-context
messages are always kept, and of the rest the last turn and as many turns before it as fit, the
newest first.  A turn is what stands between two protected messages, cut again before each user
message.

* `splitTurns`, `selectTurns`, `trimAgentMessagesByTurn` — the function, with its two loops.
* `InReach` — the messages that are kept of those that are not protected, told from the
  conversation and the limits; `mem_selectedIndices_iff` says the loops keep these.
* `Trims` — what a trimmed conversation owes the one it comes from.
* `trims_iff` — **the function trims exactly when** no exchange of a call and its result is torn
  and the turns that fit by their text fit with their images: the running total of the loop
  counts the text alone.
-/

namespace Purra.Context

open Contracts

variable (py : Builtins)

/-! ## The function -/

/-- A message with its position in the conversation. -/
abbrev Row := AgentMessage × Nat

/-- The messages that are kept whatever they cost. -/
def isProtected (message : AgentMessage) : Bool :=
  message.role = .system || message.role = .developer || message.origin = .hostContext

/-- The locals of the first loop. -/
structure TurnSplit where
  protectedRows : List Row := []
  turns : List (List Row) := []
  current : List Row := []

namespace TurnSplit

/-- `if current: turns.append(current); current = []`. -/
def close (split : TurnSplit) : TurnSplit :=
  if split.current.isEmpty then split
  else { split with turns := split.turns ++ [split.current], current := [] }

/-- The loop body. -/
def push (split : TurnSplit) (row : Row) : TurnSplit :=
  if isProtected row.1 then
    { split.close with protectedRows := split.close.protectedRows ++ [row] }
  else
    let split := if row.1.role = .user then split.close else split
    { split with current := split.current ++ [row] }

end TurnSplit

/-- The first loop: the protected rows, and the turns of the others. -/
def splitTurns (messages : List AgentMessage) : TurnSplit :=
  (messages.zipIdx.foldl TurnSplit.push {}).close

/-- The text of some rows, as the second loop adds it up. -/
def rowsCost (rows : List Row) : Nat := (rows.map fun row => textCost py row.1).sum

/-- The second loop, over the turns from the newest on: the turns it selects.  Only the first one
is required. -/
def selectTurns (tokenBudget : Nat) (maxRecent : Option Nat) :
    Bool → Nat → Nat → List (List Row) → List (List Row)
  | _, _, _, [] => []
  | required, used, count, turn :: older =>
    let cost := rowsCost py turn
    let countFits := maxRecent.all (count + turn.length ≤ ·)
    if required || (countFits && used + cost ≤ tokenBudget) then
      turn :: selectTurns tokenBudget maxRecent false (used + cost) (count + turn.length) older
    else []

/-- `TrimmedAgentMessages`. -/
structure TrimmedAgentMessages where
  messages : List AgentMessage
  droppedCount : Nat
  tokenEstimate : Nat
  overflowTokens : Nat

/-- `max(1, int(max_recent_messages))`, if there is such a limit. -/
def recentLimit (maxRecentMessages : Option Int) : Option Nat :=
  maxRecentMessages.map fun limit => (max 1 limit).toNat

/-- `selected_indices`. -/
def selectedIndices (messages : List AgentMessage) (tokenBudget : Int)
    (maxRecentMessages : Option Int) : List Nat :=
  let split := splitTurns messages
  let selected := selectTurns py tokenBudget.toNat (recentLimit maxRecentMessages) true
    (2 + rowsCost py split.protectedRows) 0 split.turns.reverse
  (split.protectedRows ++ selected.flatten).map Prod.snd

/-- `trim_agent_messages_by_turn`. -/
def trimAgentMessagesByTurn (messages : List AgentMessage) (tokenBudget : Int)
    (maxRecentMessages : Option Int := none) : TrimmedAgentMessages :=
  let indices := selectedIndices py messages tokenBudget maxRecentMessages
  let selected := (messages.zipIdx.filter (·.2 ∈ indices)).map Prod.fst
  let actual := estimateAgentMessagesTokens py selected
  ⟨selected, messages.length - selected.length, actual, actual - tokenBudget.toNat⟩

/-! ## The turns -/

/-- A turn starts at a position: the message there is not protected, and is a user's or comes first
or behind a protected one. -/
def startsTurn (messages : List AgentMessage) (i : Nat) : Bool :=
  messages[i]?.any fun message => !isProtected message &&
    (message.role = .user || (messages.take i).getLast?.all isProtected)

/-- A turn starts with its first row, and with no other. -/
def IsTurn (messages : List AgentMessage) (turn : List Row) : Prop :=
  ∃ first rest, turn = first :: rest ∧ startsTurn messages first.2 = true ∧
    ∀ row ∈ rest, startsTurn messages row.2 = false

namespace TurnSplit

@[simp] theorem current_close (split : TurnSplit) : split.close.current = [] := by
  unfold close
  split
  · rename_i h
    exact List.isEmpty_iff.1 h
  · rfl

@[simp] theorem protectedRows_close (split : TurnSplit) :
    split.close.protectedRows = split.protectedRows := by
  unfold close
  split <;> rfl

@[simp] theorem flatten_close (split : TurnSplit) :
    split.close.turns.flatten = split.turns.flatten ++ split.current := by
  unfold close
  split
  · rename_i h
    rw [List.isEmpty_iff.1 h, List.append_nil]
  · simp

/-- What the first loop has done with the rows it has seen. -/
structure Sorted (messages : List AgentMessage) (split : TurnSplit) (rows : List Row) : Prop where
  protected_eq : split.protectedRows = rows.filter fun row => isProtected row.1
  turns_eq : split.turns.flatten ++ split.current = rows.filter fun row => !isProtected row.1
  turns : ∀ turn ∈ split.turns, IsTurn messages turn
  current : split.current = [] ∨ IsTurn messages split.current
  none_open : split.current = [] ↔ (rows.getLast?.all fun last => isProtected last.1) = true

variable {messages : List AgentMessage} {split : TurnSplit} {rows : List Row}

theorem Sorted.close_turns (h : Sorted messages split rows) :
    ∀ turn ∈ split.close.turns, IsTurn messages turn := by
  unfold close
  split
  · exact h.turns
  · rename_i hopen
    intro turn hturn
    rcases List.mem_append.1 hturn with hturn | hturn
    · exact h.turns turn hturn
    · rw [List.mem_singleton.1 hturn]
      exact h.current.resolve_left fun hnil => hopen (List.isEmpty_iff.2 hnil)

/-- Whether a turn starts at the row behind those seen. -/
theorem startsTurn_of_prefix {row : Row} (h : rows ++ [row] <+: messages.zipIdx) :
    startsTurn messages row.2 = (!isProtected row.1 &&
      (row.1.role = .user || rows.getLast?.all fun last => isProtected last.1)) := by
  obtain ⟨rest, hrest⟩ := h
  have hget : messages.zipIdx[rows.length]? = some row := by
    rw [← hrest, List.append_assoc, List.getElem?_append_right (Nat.le_refl _), Nat.sub_self]
    rfl
  rw [List.getElem?_zipIdx, Nat.zero_add] at hget
  obtain ⟨message, hmessage, rfl⟩ := Option.map_eq_some_iff.1 hget
  have htake : messages.take rows.length = rows.map Prod.fst := by
    have hall := congrArg (List.map Prod.fst) hrest
    rw [List.zipIdx_map_fst, List.append_assoc, List.map_append] at hall
    rw [← hall, List.take_left' (List.length_map ..)]
  unfold startsTurn
  rw [hmessage, htake, List.getLast?_map]
  cases rows.getLast? <;> rfl

theorem Sorted.push (h : Sorted messages split rows) {row : Row}
    (hfront : rows ++ [row] <+: messages.zipIdx) :
    Sorted messages (split.push row) (rows ++ [row]) := by
  have hstarts := startsTurn_of_prefix hfront
  unfold TurnSplit.push
  by_cases hrow : isProtected row.1 = true
  · rw [if_pos hrow]
    refine ⟨?_, ?_, h.close_turns, Or.inl (current_close split), ?_⟩
    · rw [List.filter_append, List.filter_singleton, hrow, ← h.protected_eq]
      simp
    · rw [List.filter_append, List.filter_singleton, hrow, ← h.turns_eq]
      simp
    · simp [hrow]
  · have hopen : isProtected row.1 = false := Bool.eq_false_iff.2 hrow
    rw [if_neg hrow]
    rw [hopen, Bool.not_false, Bool.true_and] at hstarts
    -- the row goes behind the turn that is open, or starts one
    have hsplit : ∀ other : TurnSplit, other.protectedRows = split.protectedRows →
        other.turns.flatten ++ other.current = split.turns.flatten ++ split.current →
        (∀ turn ∈ other.turns, IsTurn messages turn) →
        IsTurn messages (other.current ++ [row]) →
        Sorted messages { other with current := other.current ++ [row] } (rows ++ [row]) := by
      intro other hprotected hturns hall hcurrent
      refine ⟨?_, ?_, hall, Or.inr hcurrent, by simp [hopen]⟩
      · rw [List.filter_append, List.filter_singleton, hopen, ← h.protected_eq]
        simpa using hprotected
      · rw [List.filter_append, List.filter_singleton, hopen, ← h.turns_eq, ← hturns]
        simp
    by_cases huser : row.1.role = .user
    · rw [if_pos huser]
      refine hsplit split.close (by simp) (by simp) h.close_turns ?_
      rw [current_close]
      exact ⟨row, [], rfl, by rw [hstarts]; simp [huser], fun other hother => by cases hother⟩
    · rw [if_neg huser]
      refine hsplit split rfl rfl h.turns ?_
      simp only [huser, decide_false, Bool.false_or] at hstarts
      rcases h.current with hnil | ⟨first, rest, hcurrent, hfirst, hrest⟩
      · rw [hnil]
        exact ⟨row, [], rfl, hstarts.trans (h.none_open.1 hnil), fun other hother => by cases hother⟩
      · refine ⟨first, rest ++ [row], by rw [hcurrent]; rfl, hfirst, fun other hother => ?_⟩
        rcases List.mem_append.1 hother with hother | hother
        · exact hrest other hother
        · rw [List.mem_singleton.1 hother, hstarts, ← Bool.not_eq_true, ← h.none_open, hcurrent]
          exact List.cons_ne_nil first rest

theorem Sorted.foldl {seen : List Row} (h : Sorted messages split seen)
    (hfront : seen ++ rows <+: messages.zipIdx) :
    Sorted messages (rows.foldl TurnSplit.push split) (seen ++ rows) := by
  induction rows generalizing split seen with
  | nil => simpa using h
  | cons row rows ih =>
    rw [← List.singleton_append, ← List.append_assoc] at hfront ⊢
    exact ih (h.push ((List.prefix_append _ _).trans hfront)) hfront

end TurnSplit

section
variable (messages : List AgentMessage)

theorem sorted_splitTurns :
    (splitTurns messages).protectedRows = messages.zipIdx.filter (fun row => isProtected row.1) ∧
      (splitTurns messages).turns.flatten =
        messages.zipIdx.filter (fun row => !isProtected row.1) ∧
      ∀ turn ∈ (splitTurns messages).turns, IsTurn messages turn := by
  have hstart : TurnSplit.Sorted messages {} [] :=
    ⟨rfl, rfl, fun turn hturn => (by cases hturn), Or.inl rfl, by simp⟩
  have h : TurnSplit.Sorted messages (messages.zipIdx.foldl TurnSplit.push {}) messages.zipIdx :=
    hstart.foldl List.prefix_rfl
  refine ⟨(TurnSplit.protectedRows_close _).trans h.protected_eq, ?_, h.close_turns⟩
  unfold splitTurns
  rw [TurnSplit.flatten_close]
  exact h.turns_eq

theorem protectedRows_eq : (splitTurns messages).protectedRows =
    messages.zipIdx.filter fun row => isProtected row.1 := (sorted_splitTurns messages).1

theorem flatten_turns_eq : (splitTurns messages).turns.flatten =
    messages.zipIdx.filter fun row => !isProtected row.1 := (sorted_splitTurns messages).2.1

/-- The turns stand in the order of the conversation. -/
theorem sorted_turns : ((splitTurns messages).turns.flatten).Pairwise fun a b => a.2 < b.2 := by
  have hpositions : (messages.zipIdx.map Prod.snd).Pairwise (· < ·) := by
    rw [List.zipIdx_map_snd]
    exact List.pairwise_lt_range'
  rw [flatten_turns_eq]
  exact (List.pairwise_map.1 hpositions).filter _

end

/-- The turn of a row, between the turns before it and those after it. -/
structure TurnAt (messages : List AgentMessage) (before : List (List Row)) (first : Row)
    (rest : List Row) (after : List (List Row)) : Prop where
  turns_eq : (splitTurns messages).turns = before ++ (first :: rest) :: after
  starts : startsTurn messages first.2 = true
  goes_on : ∀ row ∈ rest, startsTurn messages row.2 = false

section TurnAt

variable {messages : List AgentMessage}

theorem exists_turnAt {turn : List Row} (h : turn ∈ (splitTurns messages).turns) :
    ∃ before first rest after, TurnAt messages before first rest after ∧ turn = first :: rest := by
  obtain ⟨before, after, hsplit⟩ := List.append_of_mem h
  obtain ⟨first, rest, rfl, hstarts, hgoes⟩ := (sorted_splitTurns messages).2.2 turn h
  exact ⟨before, first, rest, after, ⟨hsplit, hstarts, hgoes⟩, rfl⟩

/-- The rows of the turns are the unprotected messages with their positions. -/
theorem mem_flatten_turns {r : Row} : r ∈ (splitTurns messages).turns.flatten ↔
    messages[r.2]? = some r.1 ∧ isProtected r.1 = false := by
  rw [flatten_turns_eq, List.mem_filter, List.mem_zipIdx_iff_getElem?, Bool.not_eq_true']

/-- Every unprotected message is in a turn. -/
theorem exists_turnAt_row {i : Nat} {message : AgentMessage} (hget : messages[i]? = some message)
    (hopen : isProtected message = false) :
    ∃ before first rest after, TurnAt messages before first rest after ∧
      (message, i) ∈ first :: rest := by
  obtain ⟨turn, hturn, hrow⟩ := List.mem_flatten.1
    (mem_flatten_turns (r := (message, i)) |>.2 ⟨hget, hopen⟩)
  obtain ⟨before, first, rest, after, hat, rfl⟩ := exists_turnAt hturn
  exact ⟨before, first, rest, after, hat, hrow⟩

theorem startsTurn_open {i : Nat} (h : startsTurn messages i = true) :
    ∃ message, messages[i]? = some message ∧ isProtected message = false := by
  unfold startsTurn at h
  cases hget : messages[i]? with
  | none =>
    rw [hget] at h
    cases h
  | some message =>
    rw [hget, Option.any_some, Bool.and_eq_true, Bool.not_eq_true'] at h
    exact ⟨message, rfl, h.1⟩

namespace TurnAt

variable {before after : List (List Row)} {first : Row} {rest : List Row}

/-- The positions of a turn lie behind those of the turns before it, and in front of those of the
turns after it. -/
theorem sorted (h : TurnAt messages before first rest after) :
    (∀ row ∈ before.flatten, row.2 < first.2) ∧ (∀ row ∈ rest, first.2 < row.2) ∧
      ∀ row ∈ first :: rest, ∀ other ∈ after.flatten, row.2 < other.2 := by
  have hsorted := sorted_turns messages
  rw [h.turns_eq, List.flatten_append, List.flatten_cons, List.pairwise_append,
    List.pairwise_append, List.pairwise_cons] at hsorted
  exact ⟨fun row hrow => hsorted.2.2 row hrow first (List.mem_append_left _ (List.mem_cons_self ..)),
    hsorted.2.1.1.1, hsorted.2.1.2.2⟩

theorem first_le (h : TurnAt messages before first rest after) {r : Row}
    (hrow : r ∈ first :: rest) : first.2 ≤ r.2 := by
  rcases List.mem_cons.1 hrow with rfl | hrow
  · exact Nat.le_refl _
  · exact Nat.le_of_lt (h.sorted.2.1 r hrow)

/-- Another turn starts in front of this one, or behind all of it. -/
theorem starts_cases (h : TurnAt messages before first rest after) {s : Nat}
    (hs : startsTurn messages s = true) :
    s ≤ first.2 ∨ after ≠ [] ∧ ∀ row ∈ first :: rest, row.2 < s := by
  obtain ⟨message, hmessage, hopen⟩ := startsTurn_open hs
  have hmem := mem_flatten_turns (r := (message, s)) |>.2 ⟨hmessage, hopen⟩
  rw [h.turns_eq, List.flatten_append, List.flatten_cons, List.mem_append, List.mem_append] at hmem
  rcases hmem with hmem | hmem | hmem
  · exact Or.inl (Nat.le_of_lt (h.sorted.1 _ hmem))
  · rcases List.mem_cons.1 hmem with heq | hrest
    · exact Or.inl (Nat.le_of_eq (congrArg Prod.snd heq))
    · exact absurd hs (by rw [h.goes_on _ hrest]; exact Bool.noConfusion)
  · refine Or.inr ⟨?_, fun row hrow => h.sorted.2.2 row hrow _ hmem⟩
    rintro rfl
    cases hmem

/-- A turn after this one starts behind all of it. -/
theorem starts_later (h : TurnAt messages before first rest after) (hafter : after ≠ []) :
    ∃ s, startsTurn messages s = true ∧ ∀ row ∈ first :: rest, row.2 < s := by
  obtain ⟨next, later, rfl⟩ := List.exists_cons_of_ne_nil hafter
  have hnext : next ∈ (splitTurns messages).turns := by
    rw [h.turns_eq]
    simp
  obtain ⟨first', rest', rfl, hstarts, -⟩ := (sorted_splitTurns messages).2.2 next hnext
  exact ⟨first'.2, hstarts, fun row hrow => h.sorted.2.2 row hrow first' (by simp)⟩

end TurnAt

end TurnAt

/-! ## What is in reach -/

/-- The unprotected messages from a position on. -/
def openFrom (messages : List AgentMessage) (i : Nat) : List Row :=
  messages.zipIdx.filter fun row => !isProtected row.1 && i ≤ row.2

/-- What the second loop has spent: text, and messages. -/
abbrev Spent := Nat × Nat

/-- A turn on top of what is spent. -/
def Spent.add (spent : Spent) (turn : List Row) : Spent :=
  (spent.1 + rowsCost py turn, spent.2 + turn.length)

/-- What is spent stays within both limits. -/
def Spent.fits (tokenBudget : Nat) (maxRecent : Option Nat) (spent : Spent) : Bool :=
  maxRecent.all (spent.2 ≤ ·) && spent.1 ≤ tokenBudget

theorem Spent.fits_mono {tokenBudget : Nat} {maxRecent : Option Nat} {spent more : Spent}
    (hcost : spent.1 ≤ more.1) (hcount : spent.2 ≤ more.2)
    (h : Spent.fits tokenBudget maxRecent more = true) :
    Spent.fits tokenBudget maxRecent spent = true := by
  unfold Spent.fits at *
  rw [Bool.and_eq_true, decide_eq_true_eq] at h ⊢
  refine ⟨?_, by omega⟩
  cases maxRecent with
  | none => rfl
  | some limit =>
    have hlimit := h.1
    simp only [Option.all_some, decide_eq_true_eq] at hlimit ⊢
    omega

section
variable (messages : List AgentMessage) (tokenBudget : Int) (maxRecentMessages : Option Int)

/-- The protected messages and the unprotected ones from a position on fit by their text, and the
latter are no more than the window allows. -/
def FitsByText (i : Nat) : Prop :=
  Spent.fits tokenBudget.toNat (recentLimit maxRecentMessages)
    (2 + rowsCost py (messages.zipIdx.filter fun row => isProtected row.1) +
      rowsCost py (openFrom messages i), (openFrom messages i).length) = true

/-- An unprotected message is in reach: it is in the last turn, or in one that starts at or behind
a turn from which on everything fits by text. -/
def InReach (i : Nat) : Prop :=
  (∀ s, startsTurn messages s = true → s ≤ i) ∨
    ∃ s ≤ i, startsTurn messages s = true ∧ FitsByText py messages tokenBudget maxRecentMessages s

/-- A message stays: it is protected, or in reach. -/
def Stays (i : Nat) : Prop :=
  ∃ message, messages[i]? = some message ∧
    (isProtected message = true ∨ InReach py messages tokenBudget maxRecentMessages i)

variable {messages tokenBudget maxRecentMessages py}

theorem InReach.mono {i j : Nat} (h : InReach py messages tokenBudget maxRecentMessages i)
    (hle : i ≤ j) : InReach py messages tokenBudget maxRecentMessages j := by
  rcases h with h | ⟨s, hs, hstarts, hfits⟩
  · exact Or.inl fun s hstarts => (h s hstarts).trans hle
  · exact Or.inr ⟨s, hs.trans hle, hstarts, hfits⟩

theorem FitsByText.mono {i j : Nat} (h : FitsByText py messages tokenBudget maxRecentMessages i)
    (hle : i ≤ j) : FitsByText py messages tokenBudget maxRecentMessages j := by
  have hsub : (openFrom messages j).Sublist (openFrom messages i) := by
    refine List.monotone_filter_right _ fun row hrow => ?_
    simp only [Bool.and_eq_true, decide_eq_true_eq] at hrow ⊢
    exact ⟨hrow.1, hle.trans hrow.2⟩
  have hcost : rowsCost py (openFrom messages j) ≤ rowsCost py (openFrom messages i) :=
    (hsub.map _).sum_le_sum fun _ _ => Nat.zero_le _
  exact Spent.fits_mono (Nat.add_le_add_left hcost _) hsub.length_le h

/-- A row is in reach with its turn. -/
theorem TurnAt.inReach_iff {before after : List (List Row)} {first : Row} {rest : List Row}
    (h : TurnAt messages before first rest after) {r : Row} (hrow : r ∈ first :: rest) :
    InReach py messages tokenBudget maxRecentMessages r.2 ↔
      after = [] ∨ FitsByText py messages tokenBudget maxRecentMessages first.2 := by
  constructor
  · rintro (hlast | ⟨s, hs, hstarts, hfits⟩)
    · refine Or.inl (by_contra fun hafter => ?_)
      obtain ⟨s, hstarts, hlater⟩ := h.starts_later hafter
      exact absurd (hlast s hstarts) (Nat.not_le.2 (hlater r hrow))
    · rcases h.starts_cases hstarts with hle | ⟨-, hlater⟩
      · exact Or.inr (hfits.mono hle)
      · exact absurd hs (Nat.not_le.2 (hlater r hrow))
  · rintro (hafter | hfits)
    · refine Or.inl fun s hstarts => ?_
      rcases h.starts_cases hstarts with hle | ⟨hne, -⟩
      · exact hle.trans (h.first_le hrow)
      · exact absurd hafter hne
    · exact Or.inr ⟨first.2, h.first_le hrow, h.starts, hfits⟩

/-! ## What is selected -/

theorem openFrom_eq {before after : List (List Row)} {first : Row} {rest : List Row}
    (h : TurnAt messages before first rest after) :
    openFrom messages first.2 = ((first :: rest) :: after).flatten := by
  have hopen : openFrom messages first.2 =
      (splitTurns messages).turns.flatten.filter fun row => first.2 ≤ row.2 := by
    rw [flatten_turns_eq, List.filter_filter]
    exact List.filter_congr fun row _ => Bool.and_comm ..
  rw [hopen, h.turns_eq, List.flatten_append, List.filter_append, List.filter_eq_nil_iff.2,
    List.nil_append, List.filter_eq_self.2]
  · intro row hrow
    rw [decide_eq_true_eq]
    rcases List.mem_append.1 hrow with hrow | hrow
    · exact h.first_le hrow
    · exact Nat.le_of_lt (h.sorted.2.2 first (List.mem_cons_self ..) row hrow)
  · intro row hrow
    rw [decide_eq_true_eq]
    exact Nat.not_le.2 (h.sorted.1 row hrow)

end

theorem foldl_add (spent : Spent) (turns : List (List Row)) :
    turns.foldl (Spent.add py) spent =
      (spent.1 + rowsCost py turns.flatten, spent.2 + turns.flatten.length) := by
  induction turns generalizing spent with
  | nil => rfl
  | cons turn turns ih =>
    rw [List.foldl_cons, ih, List.flatten_cons]
    unfold Spent.add rowsCost
    rw [List.map_append, List.sum_append, List.length_append, Nat.add_assoc, Nat.add_assoc]

theorem selectTurns_older (tokenBudget : Nat) (maxRecent : Option Nat) (spent : Spent)
    (older : List (List Row)) :
    selectTurns py tokenBudget maxRecent false spent.1 spent.2 older =
      greedy (Spent.fits tokenBudget maxRecent) (Spent.add py) spent older := by
  induction older generalizing spent with
  | nil => rfl
  | cons turn older ih =>
    have hstep := ih (Spent.add py spent turn)
    simp only [selectTurns, greedy, Bool.false_or]
    rw [← hstep]
    rfl

section
variable (messages : List AgentMessage) (tokenBudget : Int) (maxRecentMessages : Option Int)

/-- The turns the second loop selects, the newest first. -/
def selectedTurns : List (List Row) :=
  selectTurns py tokenBudget.toNat (recentLimit maxRecentMessages) true
    (2 + rowsCost py (splitTurns messages).protectedRows) 0 (splitTurns messages).turns.reverse

/-- The last turn, and of those before it as many as fit. -/
theorem selectedTurns_eq {last : List Row} {older : List (List Row)}
    (h : (splitTurns messages).turns.reverse = last :: older) :
    selectedTurns py messages tokenBudget maxRecentMessages =
      last :: greedy (Spent.fits tokenBudget.toNat (recentLimit maxRecentMessages)) (Spent.add py)
        (Spent.add py (2 + rowsCost py (splitTurns messages).protectedRows, 0) last) older := by
  have holder := selectTurns_older py tokenBudget.toNat (recentLimit maxRecentMessages)
    (Spent.add py (2 + rowsCost py (splitTurns messages).protectedRows, 0) last) older
  unfold selectedTurns
  rw [h, ← holder]
  rfl

theorem prefix_selectedTurns :
    selectedTurns py messages tokenBudget maxRecentMessages <+: (splitTurns messages).turns.reverse := by
  cases h : (splitTurns messages).turns.reverse with
  | nil =>
    unfold selectedTurns
    rw [h]
    exact List.prefix_rfl
  | cons last older =>
    rw [selectedTurns_eq py messages tokenBudget maxRecentMessages h]
    exact (List.prefix_cons_inj last).2 (prefix_greedy _ _)

variable {messages tokenBudget maxRecentMessages} {py}
variable {before after : List (List Row)} {first : Row} {rest : List Row}

/-- **The second loop** comes to a turn that is the last one, or fits. -/
theorem TurnAt.lt_length_selected (h : TurnAt messages before first rest after) :
    after.length < (selectedTurns py messages tokenBudget maxRecentMessages).length ↔
      after = [] ∨ FitsByText py messages tokenBudget maxRecentMessages first.2 := by
  have hreverse : (splitTurns messages).turns.reverse =
      after.reverse ++ (first :: rest) :: before.reverse := by
    rw [h.turns_eq]
    simp
  cases hafter : after.reverse with
  | nil =>
    rw [hafter, List.nil_append] at hreverse
    rw [List.reverse_eq_nil_iff] at hafter
    rw [selectedTurns_eq py messages tokenBudget maxRecentMessages hreverse, hafter]
    exact iff_of_true (Nat.succ_pos _) (Or.inl rfl)
  | cons last newer =>
    rw [hafter, List.cons_append] at hreverse
    have hlength : after.length = newer.length + 1 := by
      rw [← List.length_reverse, hafter, List.length_cons]
    have hne : after ≠ [] := by
      rintro rfl
      cases hafter
    -- the turns the loop goes through up to this one, the other way round
    have hturns : (first :: rest) :: after = (last :: (newer ++ [first :: rest])).reverse := by
      rw [← List.cons_append, List.reverse_append, ← hafter, List.reverse_reverse]
      rfl
    have hperm : (((first :: rest) :: after).flatten).Perm
        (last :: (newer ++ [first :: rest])).flatten := by
      rw [hturns]
      exact (List.reverse_perm _).flatten
    rw [selectedTurns_eq py messages tokenBudget maxRecentMessages hreverse, List.length_cons,
      hlength, Nat.add_lt_add_iff_right,
      lt_length_greedy fun spent turn => Spent.fits_mono (Nat.le_add_right ..) (Nat.le_add_right ..),
      or_iff_right hne, ← List.foldl_cons, foldl_add, FitsByText, openFrom_eq h, protectedRows_eq,
      Nat.zero_add, ← hperm.length_eq]
    unfold rowsCost
    rw [(hperm.map _).sum_nat]

/-- A row is selected with its turn. -/
theorem TurnAt.mem_selected_iff (h : TurnAt messages before first rest after) {r : Row}
    (hrow : r ∈ first :: rest) :
    r.2 ∈ ((selectedTurns py messages tokenBudget maxRecentMessages).flatten.map Prod.snd) ↔
      after.length < (selectedTurns py messages tokenBudget maxRecentMessages).length := by
  have htake := List.prefix_iff_eq_take.1
    (prefix_selectedTurns py messages tokenBudget maxRecentMessages)
  generalize selectedTurns py messages tokenBudget maxRecentMessages = selected at htake ⊢
  have hreverse : (splitTurns messages).turns.reverse =
      after.reverse ++ (first :: rest) :: before.reverse := by
    rw [h.turns_eq]
    simp
  rw [hreverse] at htake
  rcases Nat.lt_or_ge after.length selected.length with hlt | hge
  · refine iff_of_true (List.mem_map_of_mem (List.mem_flatten.2 ⟨first :: rest, ?_, hrow⟩)) hlt
    rw [htake, List.mem_take_iff_getElem]
    refine ⟨after.length, ?_, ?_⟩
    · rw [List.length_append, List.length_reverse, List.length_cons]
      omega
    · simp
  · refine iff_of_false (fun hmem => ?_) (Nat.not_lt.2 hge)
    rw [List.take_append_of_le_length (by rw [List.length_reverse]; exact hge)] at htake
    obtain ⟨other, hother, hposition⟩ := List.mem_map.1 hmem
    obtain ⟨turn, hturn, hin⟩ := List.mem_flatten.1 hother
    rw [htake] at hturn
    have hafter := List.mem_reverse.1 (List.mem_of_mem_take hturn)
    have hlater := h.sorted.2.2 r hrow other (List.mem_flatten.2 ⟨turn, hafter, hin⟩)
    omega

variable (py messages tokenBudget maxRecentMessages)

/-- **The function keeps** the messages that are protected or in reach. -/
theorem mem_selectedIndices_iff {i : Nat} :
    i ∈ selectedIndices py messages tokenBudget maxRecentMessages ↔
      Stays py messages tokenBudget maxRecentMessages i := by
  have hindices : selectedIndices py messages tokenBudget maxRecentMessages =
      ((splitTurns messages).protectedRows ++
        (selectedTurns py messages tokenBudget maxRecentMessages).flatten).map Prod.snd := rfl
  rw [hindices, List.map_append, List.mem_append, protectedRows_eq]
  constructor
  · rintro (hprotected | hselected)
    · obtain ⟨row, hrow, rfl⟩ := List.mem_map.1 hprotected
      obtain ⟨hmem, hprotected⟩ := List.mem_filter.1 hrow
      exact ⟨row.1, List.mem_zipIdx_iff_getElem?.1 hmem, Or.inl hprotected⟩
    · obtain ⟨row, hrow, rfl⟩ := List.mem_map.1 hselected
      obtain ⟨turn, hturn, hin⟩ := List.mem_flatten.1 hrow
      have hturn' := List.mem_reverse.1
        ((prefix_selectedTurns py messages tokenBudget maxRecentMessages).subset hturn)
      obtain ⟨before, first, rest, after, hat, rfl⟩ := exists_turnAt hturn'
      have hopen := mem_flatten_turns.1 (List.mem_flatten.2 ⟨_, hturn', hin⟩)
      exact ⟨row.1, hopen.1, Or.inr ((hat.inReach_iff hin).2
        (hat.lt_length_selected.1 ((hat.mem_selected_iff hin).1 hselected)))⟩
  · rintro ⟨message, hmessage, hstays⟩
    cases hprotected : isProtected message with
    | true =>
      refine Or.inl (List.mem_map.2 ⟨(message, i), List.mem_filter.2 ⟨?_, hprotected⟩, rfl⟩)
      exact List.mem_zipIdx_iff_getElem?.2 hmessage
    | false =>
      have hreach := hstays.resolve_left (by rw [hprotected]; exact Bool.noConfusion)
      obtain ⟨before, first, rest, after, hat, hin⟩ := exists_turnAt_row hmessage hprotected
      exact Or.inr ((hat.mem_selected_iff (r := (message, i)) hin).2
        (hat.lt_length_selected.2 ((hat.inReach_iff (r := (message, i)) hin).1 hreach)))

end

/-! ## What the result costs -/

/-- The protected messages, and all messages from a position on. -/
def rowsFrom (messages : List AgentMessage) (i : Nat) : List Row :=
  messages.zipIdx.filter fun row => isProtected row.1 || i ≤ row.2

/-- What some rows cost as messages, images included. -/
def rowsEstimate (rows : List Row) : Nat := estimateAgentMessagesTokens py (rows.map Prod.fst)

theorem rowsEstimate_mono {rows more : List Row} (h : rows.Sublist more) :
    rowsEstimate py rows ≤ rowsEstimate py more := by
  unfold rowsEstimate estimateAgentMessagesTokens
  rw [List.map_map, List.map_map]
  exact Nat.add_le_add_left ((h.map _).sum_le_sum fun _ _ => Nat.zero_le _) 2

theorem filter_sublist_filter {α : Type} {p q : α → Bool} {l : List α}
    (h : ∀ a ∈ l, p a = true → q a = true) : (l.filter p).Sublist (l.filter q) := by
  have hboth : l.filter p = (l.filter q).filter p := by
    rw [List.filter_filter]
    refine List.filter_congr fun a ha => ?_
    cases hp : p a with
    | false => rfl
    | true => rw [h a ha hp]; rfl
  rw [hboth]
  exact List.filter_sublist

section
variable (messages : List AgentMessage) (tokenBudget : Int) (maxRecentMessages : Option Int)

/-- The rows that stay. -/
def stayingRows : List Row :=
  messages.zipIdx.filter (·.2 ∈ selectedIndices py messages tokenBudget maxRecentMessages)

theorem tokenEstimate_eq :
    (trimAgentMessagesByTurn py messages tokenBudget maxRecentMessages).tokenEstimate =
      rowsEstimate py (stayingRows py messages tokenBudget maxRecentMessages) := rfl

variable {messages tokenBudget maxRecentMessages} {py}

theorem selected_iff {row : Row} (h : row ∈ messages.zipIdx) :
    row.2 ∈ selectedIndices py messages tokenBudget maxRecentMessages ↔
      isProtected row.1 = true ∨ InReach py messages tokenBudget maxRecentMessages row.2 := by
  rw [mem_selectedIndices_iff]
  unfold Stays
  rw [List.mem_zipIdx_iff_getElem?.1 h]
  simp

/-- What stays, and costs, at least. -/
theorem rowsFrom_sublist {i : Nat} (h : messages.length ≤ i ∨
    InReach py messages tokenBudget maxRecentMessages i) :
    (rowsFrom messages i).Sublist (stayingRows py messages tokenBudget maxRecentMessages) := by
  refine filter_sublist_filter fun row hrow hfrom => ?_
  rw [decide_eq_true_eq, selected_iff hrow]
  rcases Bool.or_eq_true_iff.1 hfrom with hprotected | hle
  · exact Or.inl hprotected
  · rcases h with hend | hreach
    · have hlt := (List.getElem?_eq_some_iff.1 (List.mem_zipIdx_iff_getElem?.1 hrow)).1
      have := of_decide_eq_true hle
      omega
    · exact Or.inr (hreach.mono (of_decide_eq_true hle))

/-- What stays, and costs, at most: nothing in front of a position is in reach. -/
theorem sublist_rowsFrom {i : Nat} (h : ∀ j, InReach py messages tokenBudget maxRecentMessages j →
    (∃ message, messages[j]? = some message) → i ≤ j) :
    (stayingRows py messages tokenBudget maxRecentMessages).Sublist (rowsFrom messages i) := by
  refine filter_sublist_filter fun row hrow hstays => ?_
  rw [decide_eq_true_eq, selected_iff hrow] at hstays
  rw [Bool.or_eq_true, decide_eq_true_eq]
  exact hstays.imp_right fun hreach => h row.2 hreach ⟨_, List.mem_zipIdx_iff_getElem?.1 hrow⟩

end

/-! ## Tool calls and their results -/

/-- The ids a message calls tools under. -/
def callIds (message : AgentMessage) : List RequiredText :=
  if message.role = .tool then [] else message.toolCalls.map (·.id)

/-- The message at `j` is the result of a call of the message at `i`: the last one before it that
calls a tool under its id. -/
def Answers (messages : List AgentMessage) (i j : Nat) : Prop :=
  ∃ call result id, messages[i]? = some call ∧ messages[j]? = some result ∧ i < j ∧
    result.role = .tool ∧ result.toolCallId = some id ∧ id ∈ callIds call ∧
    ∀ k message, i < k → k < j → messages[k]? = some message → id ∉ callIds message

/-- Every tool result is preceded by its call, and every call has a result. -/
def ToolsPaired (messages : List AgentMessage) : Prop :=
  (∀ j result, messages[j]? = some result → result.role = .tool → ∃ i, Answers messages i j) ∧
  ∀ i call, messages[i]? = some call → ∀ id ∈ callIds call, ∃ j result,
    messages[j]? = some result ∧ result.toolCallId = some id ∧ Answers messages i j

section
variable (messages : List AgentMessage) (tokenBudget : Int) (maxRecentMessages : Option Int)

/-- Trimming tears an exchange: only its call is protected and its result is out of reach, or only
its result is and its call is out of reach, or a turn in reach starts between the two and the
call is in front of what is in reach. -/
inductive Torn (i j : Nat) : Prop where
  | result {call result : AgentMessage} (hcall : messages[i]? = some call)
      (hresult : messages[j]? = some result) (hprotected : isProtected call = true)
      (hopen : isProtected result = false)
      (hout : ¬ InReach py messages tokenBudget maxRecentMessages j)
  | call {call result : AgentMessage} (hcall : messages[i]? = some call)
      (hresult : messages[j]? = some result) (hopen : isProtected call = false)
      (hprotected : isProtected result = true)
      (hout : ¬ InReach py messages tokenBudget maxRecentMessages i)
  | turn {call result : AgentMessage} {s : Nat} (hcall : messages[i]? = some call)
      (hresult : messages[j]? = some result) (hopen : isProtected call = false)
      (hopen' : isProtected result = false) (hbehind : i < s) (hin : s ≤ j)
      (hstarts : startsTurn messages s = true)
      (hreach : InReach py messages tokenBudget maxRecentMessages s)
      (hout : ¬ InReach py messages tokenBudget maxRecentMessages i)

variable {messages tokenBudget maxRecentMessages} {py}

/-- An exchange that is not torn stays or goes as a whole. -/
theorem stays_iff_of_answers {i j : Nat} (h : Answers messages i j) :
    (Stays py messages tokenBudget maxRecentMessages i ↔
      Stays py messages tokenBudget maxRecentMessages j) ↔
      ¬ Torn py messages tokenBudget maxRecentMessages i j := by
  obtain ⟨call, result, id, hcall, hresult, hlt, -⟩ := h
  have hi : Stays py messages tokenBudget maxRecentMessages i ↔ isProtected call = true ∨
      InReach py messages tokenBudget maxRecentMessages i := by
    simp [Stays, hcall]
  have hj : Stays py messages tokenBudget maxRecentMessages j ↔ isProtected result = true ∨
      InReach py messages tokenBudget maxRecentMessages j := by
    simp [Stays, hresult]
  rw [hi, hj]
  constructor
  · rintro hiff htorn
    cases htorn with
    | result hcall' hresult' hprotected hopen hout =>
      cases hcall.symm.trans hcall'
      cases hresult.symm.trans hresult'
      exact (hiff.1 (Or.inl hprotected)).elim (by rw [hopen]; exact Bool.noConfusion) hout
    | call hcall' hresult' hopen hprotected hout =>
      cases hcall.symm.trans hcall'
      cases hresult.symm.trans hresult'
      exact (hiff.2 (Or.inl hprotected)).elim (by rw [hopen]; exact Bool.noConfusion) hout
    | turn hcall' _ hopen _ _ hin _ hreach hout =>
      cases hcall.symm.trans hcall'
      exact (hiff.2 (Or.inr (hreach.mono hin))).elim (by rw [hopen]; exact Bool.noConfusion)
        hout
  · intro hwhole
    constructor
    · rintro (hprotected | hreach)
      · by_contra hnot
        obtain ⟨hopen, hout⟩ := not_or.1 hnot
        exact hwhole (.result hcall hresult hprotected (Bool.eq_false_iff.2 hopen) hout)
      · exact Or.inr (hreach.mono (Nat.le_of_lt hlt))
    · intro hstays
      by_contra hnot
      obtain ⟨hopen, hout⟩ := not_or.1 hnot
      have hopen := Bool.eq_false_iff.2 hopen
      cases hprotected : isProtected result with
      | true => exact hwhole (.call hcall hresult hopen hprotected hout)
      | false =>
        -- the turn of the result is in reach, so the call is in front of it
        have hreach := hstays.resolve_left (by rw [hprotected]; exact Bool.noConfusion)
        obtain ⟨before, first, rest, after, hat, hin⟩ := exists_turnAt_row hresult hprotected
        have hfirst := (hat.inReach_iff (List.mem_cons_self ..)).2
          ((hat.inReach_iff (r := (result, j)) hin).1 hreach)
        have hbehind : i < first.2 := by
          by_contra hle
          exact hout (hfirst.mono (Nat.not_lt.1 hle))
        exact hwhole (.turn hcall hresult hopen hprotected hbehind
          (hat.first_le (r := (result, j)) hin) hat.starts hfirst hout)

variable (messages tokenBudget maxRecentMessages py)

/-- What a trimmed conversation owes the one it comes from: it is what is left of it, in order;
protected messages and the last turn are left; where calls and results were paired, a result is
left together with its call and a call with its results; and if a turn before the last one is left,
all of it is within the budget, images included. -/
structure Trims : Prop where
  sublist : (trimAgentMessagesByTurn py messages tokenBudget maxRecentMessages).messages.Sublist
    messages
  protected_left : ∀ i message, messages[i]? = some message → isProtected message = true →
    i ∈ selectedIndices py messages tokenBudget maxRecentMessages
  last_left : ∀ turn, (splitTurns messages).turns.getLast? = some turn → ∀ row ∈ turn,
    row.2 ∈ selectedIndices py messages tokenBudget maxRecentMessages
  paired : ToolsPaired messages → ∀ i j, Answers messages i j →
    (i ∈ selectedIndices py messages tokenBudget maxRecentMessages ↔
      j ∈ selectedIndices py messages tokenBudget maxRecentMessages)
  within : (∃ turn ∈ (splitTurns messages).turns.dropLast, ∀ row ∈ turn,
      row.2 ∈ selectedIndices py messages tokenBudget maxRecentMessages) →
    ((trimAgentMessagesByTurn py messages tokenBudget maxRecentMessages).tokenEstimate : Int) ≤
      tokenBudget

/-- When it does: no exchange is torn, and where a turn before the last one fits by text, all from
it on fits with its images. -/
structure Trimmable : Prop where
  together : ToolsPaired messages → ∀ i j, Answers messages i j →
    ¬ Torn py messages tokenBudget maxRecentMessages i j
  images : ∀ s later, startsTurn messages s = true → s < later →
    startsTurn messages later = true → FitsByText py messages tokenBudget maxRecentMessages s →
      (rowsEstimate py (rowsFrom messages s) : Int) ≤ tokenBudget

variable {messages tokenBudget maxRecentMessages py}

/-- A row of a turn before the last one is in reach only by its text. -/
theorem TurnAt.starts_before {before after : List (List Row)} {first : Row} {rest : List Row}
    (h : TurnAt messages before first rest after)
    (hturn : (first :: rest) ∈ (splitTurns messages).turns.dropLast) : after ≠ [] := by
  rintro rfl
  have hsorted := sorted_turns messages
  rw [h.turns_eq, List.dropLast_concat] at hturn
  exact Nat.lt_irrefl _ (h.sorted.1 first (List.mem_flatten.2 ⟨_, hturn, List.mem_cons_self ..⟩))

theorem within_of_images (himages : ∀ s later, startsTurn messages s = true → s < later →
      startsTurn messages later = true → FitsByText py messages tokenBudget maxRecentMessages s →
        (rowsEstimate py (rowsFrom messages s) : Int) ≤ tokenBudget)
    {turn : List Row} (hturn : turn ∈ (splitTurns messages).turns.dropLast)
    (hall : ∀ row ∈ turn, row.2 ∈ selectedIndices py messages tokenBudget maxRecentMessages) :
    ((trimAgentMessagesByTurn py messages tokenBudget maxRecentMessages).tokenEstimate : Int) ≤
      tokenBudget := by
  have hin := (List.dropLast_sublist _).subset hturn
  obtain ⟨before, first, rest, after, hat, rfl⟩ := exists_turnAt hin
  have hafter := hat.starts_before hturn
  obtain ⟨later, hlater, hbehind⟩ := hat.starts_later hafter
  -- the turn is kept for its text, and so is everything from the first turn on that fits
  have hfirst := mem_flatten_turns.1 (List.mem_flatten.2 ⟨_, hin, List.mem_cons_self ..⟩)
  have hreach := ((selected_iff (List.mem_zipIdx_iff_getElem?.2 hfirst.1)).1
    (hall first (List.mem_cons_self ..))).resolve_left
      (by rw [hfirst.2]; exact Bool.noConfusion)
  have hfits := ((hat.inReach_iff (List.mem_cons_self ..)).1 hreach).resolve_left hafter
  classical
  have hsome : ∃ s, startsTurn messages s = true ∧
      FitsByText py messages tokenBudget maxRecentMessages s := ⟨first.2, hat.starts, hfits⟩
  obtain ⟨hstarts, hleast⟩ := Nat.find_spec hsome
  have hle := Nat.find_min' hsome ⟨hat.starts, hfits⟩
  have hbound := himages _ later hstarts
    (Nat.lt_of_le_of_lt hle (hbehind first (List.mem_cons_self ..))) hlater hleast
  have hsub : (stayingRows py messages tokenBudget maxRecentMessages).Sublist
      (rowsFrom messages (Nat.find hsome)) := by
    refine sublist_rowsFrom fun j hj _ => ?_
    rcases hj with hlast | ⟨s, hs, hstarts, hfits⟩
    · exact hlast _ hstarts
    · exact (Nat.find_min' hsome ⟨hstarts, hfits⟩).trans hs
  rw [tokenEstimate_eq]
  exact (Int.ofNat_le.2 (rowsEstimate_mono py hsub)).trans hbound

variable (messages tokenBudget maxRecentMessages py)

/-- **Trimming** does what it owes exactly for the conversations and budgets above. -/
theorem trims_iff : Trims py messages tokenBudget maxRecentMessages ↔
    Trimmable py messages tokenBudget maxRecentMessages := by
  have hmem : ∀ i, i ∈ selectedIndices py messages tokenBudget maxRecentMessages ↔
      Stays py messages tokenBudget maxRecentMessages i :=
    fun i => mem_selectedIndices_iff py messages tokenBudget maxRecentMessages
  have hturns : ∀ turn ∈ (splitTurns messages).turns, ∀ row ∈ turn,
      InReach py messages tokenBudget maxRecentMessages row.2 →
        row.2 ∈ selectedIndices py messages tokenBudget maxRecentMessages := by
    intro turn hturn row hrow hreach
    exact (hmem row.2).2
      ⟨row.1, (mem_flatten_turns.1 (List.mem_flatten.2 ⟨turn, hturn, hrow⟩)).1, Or.inr hreach⟩
  constructor
  · intro h
    refine ⟨fun hpaired i j hanswers => ?_, fun s later hstarts hlt hlater hfits => ?_⟩
    · rw [← stays_iff_of_answers hanswers, ← hmem i, ← hmem j]
      exact h.paired hpaired i j hanswers
    · obtain ⟨message, hmessage, hopen⟩ := startsTurn_open hstarts
      obtain ⟨before, first, rest, after, hat, hin⟩ := exists_turnAt_row hmessage hopen
      have hreach : InReach py messages tokenBudget maxRecentMessages s :=
        Or.inr ⟨s, Nat.le_refl s, hstarts, hfits⟩
      have hturn : (first :: rest) ∈ (splitTurns messages).turns := by
        rw [hat.turns_eq]
        simp
      have hafter : after ≠ [] := by
        rintro rfl
        rcases hat.starts_cases hlater with hle | ⟨hne, -⟩
        · have := hat.first_le (r := (message, s)) hin
          dsimp only at this
          omega
        · exact hne rfl
      have hdrop : (first :: rest) ∈ (splitTurns messages).turns.dropLast := by
        rw [hat.turns_eq, List.dropLast_append_of_ne_nil (List.cons_ne_nil _ _),
          List.dropLast_cons_of_ne_nil hafter]
        simp
      have hwithin := h.within ⟨_, hdrop, fun row hrow => hturns _ hturn row hrow
        ((hat.inReach_iff hrow).2 ((hat.inReach_iff (r := (message, s)) hin).1 hreach))⟩
      rw [tokenEstimate_eq] at hwithin
      exact (Int.ofNat_le.2 (rowsEstimate_mono py (rowsFrom_sublist (Or.inr hreach)))).trans hwithin
  · intro h
    refine ⟨?_, ?_, ?_, ?_, ?_⟩
    · have hsub : (messages.zipIdx.filter
          (·.2 ∈ selectedIndices py messages tokenBudget maxRecentMessages)).Sublist
          messages.zipIdx := List.filter_sublist
      have hmap := hsub.map Prod.fst
      rwa [List.zipIdx_map_fst] at hmap
    · intro i message hmessage hprotected
      exact (hmem i).2 ⟨message, hmessage, Or.inl hprotected⟩
    · intro turn hturn row hrow
      obtain ⟨before, hlast⟩ := List.getLast?_eq_some_iff.1 hturn
      have hin : turn ∈ (splitTurns messages).turns := by
        rw [hlast]
        simp
      obtain ⟨first, rest, rfl, hstarts, hgoes⟩ := (sorted_splitTurns messages).2.2 turn hin
      have hat : TurnAt messages before first rest [] := ⟨hlast, hstarts, hgoes⟩
      exact hturns _ hin row hrow ((hat.inReach_iff hrow).2 (Or.inl rfl))
    · intro hpaired i j hanswers
      rw [hmem i, hmem j]
      exact (stays_iff_of_answers hanswers).2 (h.together hpaired i j hanswers)
    · rintro ⟨turn, hturn, hall⟩
      exact within_of_images h.images hturn hall

end

/-- A user's message with text. -/
def userText (text : String) : AgentMessage :=
  ⟨{ role := .user, content := .str text }, ⟨Or.inl rfl, by rintro ⟨⟩⟩⟩

/-- A user's picture, for which the host allows a thousand tokens. -/
def userPicture : AgentMessage :=
  ⟨{ role := .user
     content := .obj [("type", .str staticImageProfile), ("text", .str "look"),
       ("images", .arr [.obj [("mediaType", .str "image/png"), ("dataBase64", .str "AAAA"),
         ("inputTokens", .int 1000)]])] },
    ⟨Or.inr ⟨by decide +kernel, rfl⟩, by rintro ⟨⟩⟩⟩

/-- The picture fits the budget without the tokens it is allowed, so it is kept, and with them the
result is five times the budget. -/
theorem picture_over_budget : ¬ Trims noBuiltins [userPicture, userText "hi"] 200 none := by
  intro h
  have hwithin := h.within
  revert hwithin
  decide +kernel

end Purra.Context
