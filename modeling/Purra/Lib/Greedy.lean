import Mathlib.Data.List.Infix

/-!
# Taking from the front while it fits

A loop that goes through a list, adds each element to a running state and stops at the first
element after which the state no longer fits.

* `greedy` — the elements such a loop takes; `prefix_greedy` says they are the first ones.
* `lt_length_greedy` — **the loop takes an element exactly when** it fits together with all
  those in front of it, as long as adding never makes a state fit that did not.
-/

namespace Purra

variable {σ α : Type}

/-- The elements taken from the front while the running state fits. -/
def greedy (fits : σ → Bool) (add : σ → α → σ) : σ → List α → List α
  | _, [] => []
  | s, a :: l => if fits (add s a) then a :: greedy fits add (add s a) l else []

variable {fits : σ → Bool} {add : σ → α → σ}

theorem prefix_greedy (s : σ) (l : List α) : greedy fits add s l <+: l := by
  induction l generalizing s with
  | nil => exact List.prefix_rfl
  | cons a l ih =>
    unfold greedy
    split
    · exact List.prefix_cons_inj a |>.2 (ih (add s a))
    · exact List.nil_prefix

/-- What fits with more fits without. -/
theorem fits_of_fits_foldl (hadd : ∀ s a, fits (add s a) = true → fits s = true) {l : List α} {s : σ}
    (h : fits (l.foldl add s) = true) : fits s = true := by
  induction l generalizing s with
  | nil => exact h
  | cons a l ih => exact hadd s a (ih h)

/-- **The loop takes an element** when it fits together with those in front of it. -/
theorem lt_length_greedy (hadd : ∀ s a, fits (add s a) = true → fits s = true) {s : σ}
    {before : List α} {a : α} {after : List α} :
    before.length < (greedy fits add s (before ++ a :: after)).length ↔
      fits ((before ++ [a]).foldl add s) = true := by
  induction before generalizing s with
  | nil =>
    simp only [List.nil_append, greedy, List.foldl_cons, List.foldl_nil, List.length_nil]
    cases fits (add s a) <;> simp
  | cons b before ih =>
    simp only [List.cons_append, greedy, List.foldl_cons, List.length_cons]
    cases h : fits (add s b) with
    | true => simpa using ih
    | false =>
      refine iff_of_false (by simp) fun hfits => ?_
      rw [fits_of_fits_foldl hadd hfits] at h
      cases h

end Purra
