import Mathlib.Order.Basic
import Mathlib.Logic.Relation

/-!
# Rows whose revisions one counter gives out

A table of rows, each written under a revision, and a counter that every write and every
removal moves past.  A reader is told the revision of the row, and where there is none the
counter itself; this is the *token* it compares later.

* `Touched` — a row was written under the counter's next value, or removed.
* `token_lt` — whoever touches a row changes its token for good.
* `token_le` — and no token ever goes back, so an old one never fits again.
-/

namespace Purra

/-- The revisions of the rows that are there, and the counter that gives them out. -/
structure Revisions (κ ρ : Type) where
  counter : ρ
  row : κ → Option ρ

namespace Revisions

variable {κ ρ : Type} [Preorder ρ] {s s' : Revisions κ ρ} {k k' : κ} {r : ρ}

/-- What a reader of a row is told. -/
def token (s : Revisions κ ρ) (k : κ) : ρ := (s.row k).getD s.counter

/-- No row is ahead of the counter. -/
def Bounded (s : Revisions κ ρ) : Prop := ∀ k r, s.row k = some r → r ≤ s.counter

/-- One row was written or removed, and the counter moved on. -/
structure Touched (k : κ) (s s' : Revisions κ ρ) : Prop where
  ahead : s.counter < s'.counter
  row : ∀ r, s'.row k = some r → r = s'.counter
  others : ∀ k', k' ≠ k → s'.row k' = s.row k'

/-- Rows were written and removed, one after the other. -/
def Moves : Revisions κ ρ → Revisions κ ρ → Prop :=
  Relation.ReflTransGen fun s s' => ∃ k, Touched k s s'

theorem Touched.token_eq (h : Touched k s s') : s'.token k = s'.counter := by
  unfold token
  cases hrow : s'.row k with
  | none => rfl
  | some r => exact h.row r hrow

theorem Touched.bounded (h : Touched k s s') (hs : s.Bounded) : s'.Bounded := by
  intro k' r hrow
  by_cases hk : k' = k
  · subst hk
    exact (h.row r hrow).le
  · rw [h.others k' hk] at hrow
    exact (hs k' r hrow).trans h.ahead.le

theorem Bounded.token_le (hs : s.Bounded) (k : κ) : s.token k ≤ s.counter := by
  unfold token
  cases hrow : s.row k with
  | none => exact le_refl _
  | some r => exact hs k r hrow

/-- Whoever touches a row raises its token. -/
theorem Touched.token_lt (h : Touched k s s') (hs : s.Bounded) : s.token k < s'.token k := by
  rw [h.token_eq]
  exact (hs.token_le k).trans_lt h.ahead

/-- The token of another row stays, or rises with the counter. -/
theorem Touched.token_le (h : Touched k s s') (hs : s.Bounded) (k' : κ) :
    s.token k' ≤ s'.token k' := by
  by_cases hk : k' = k
  · subst hk
    exact (h.token_lt hs).le
  · unfold token
    rw [h.others k' hk]
    cases s.row k' with
    | none => exact h.ahead.le
    | some r => exact le_refl _

theorem Moves.bounded (h : Moves s s') (hs : s.Bounded) : s'.Bounded := by
  induction h with
  | refl => exact hs
  | tail _ hstep ih =>
    obtain ⟨k, htouched⟩ := hstep
    exact htouched.bounded ih

theorem Moves.counter_le (h : Moves s s') : s.counter ≤ s'.counter := by
  induction h with
  | refl => exact le_refl _
  | tail _ hstep ih =>
    obtain ⟨k, htouched⟩ := hstep
    exact ih.trans htouched.ahead.le

/-- No token ever goes back. -/
theorem Moves.token_le (h : Moves s s') (hs : s.Bounded) (k : κ) : s.token k ≤ s'.token k := by
  induction h with
  | refl => exact le_refl _
  | tail hmoves hstep ih =>
    obtain ⟨k', htouched⟩ := hstep
    exact ih.trans (htouched.token_le (Moves.bounded hmoves hs) k)

/-- A row that has changed has a new token. -/
theorem Moves.token_lt (h : Moves s s') (hs : s.Bounded) (hrow : s'.row k ≠ s.row k) :
    s.token k < s'.token k := by
  induction h with
  | refl => exact absurd rfl hrow
  | @tail t t' hmoves hstep ih =>
    obtain ⟨k', htouched⟩ := hstep
    have ht := Moves.bounded hmoves hs
    by_cases hk : k = k'
    · subst hk
      exact (Moves.token_le hmoves hs k).trans_lt (htouched.token_lt ht)
    · rw [htouched.others k hk] at hrow
      exact (ih hrow).trans_le (htouched.token_le ht k)

end Revisions

end Purra
