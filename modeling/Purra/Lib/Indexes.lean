import Mathlib.Data.List.Basic

/-!
# Lists by index

Code that walks an array looks an element up, and then reads, changes or skips what stands at its
index.  Once the list is split at the element, each of these is one rewrite.

* `exists_first` — the split at the first element that meets a test.
* `findIdx?_append_cons`, `getElem?_append_cons`, `drop_append_cons`, `modify_append_cons` — the
  operations at the index of the split.
* `mapIdx_eq_map` — a map by index that is the same at every index.
-/

namespace Purra

variable {α β : Type}

/-- The first element that meets `p`, and what stands around it. -/
theorem exists_first {p : α → Bool} {xs : List α} (h : xs.find? p ≠ none) :
    ∃ before x after, xs = before ++ x :: after ∧ p x = true ∧ ∀ a ∈ before, p a = false := by
  obtain ⟨x, hx⟩ := Option.ne_none_iff_exists'.1 h
  obtain ⟨hp, before, after, heq, hbefore⟩ := List.find?_eq_some_iff_append.1 hx
  exact ⟨before, x, after, heq, hp, fun a ha => by simpa using hbefore a ha⟩

theorem findIdx?_append_cons {p : α → Bool} {before after : List α} {x : α}
    (hbefore : ∀ a ∈ before, p a = false) (hx : p x = true) :
    (before ++ x :: after).findIdx? p = some before.length := by
  have hnone : before.findIdx? p = none := List.findIdx?_eq_none_iff.2 hbefore
  rw [List.findIdx?_append, hnone, List.findIdx?_cons, if_pos hx]
  simp

theorem modify_append_cons (before after : List α) (x : α) (f : α → α) :
    (before ++ x :: after).modify before.length f = before ++ f x :: after := by
  induction before with
  | nil => rfl
  | cons a before ih => exact congrArg (a :: ·) ih

theorem drop_append_cons (before after : List α) (x : α) :
    (before ++ x :: after).drop (before.length + 1) = after := by
  rw [← List.drop_drop, List.drop_left]
  rfl

theorem getElem?_append_cons (before after : List α) (x : α) :
    (before ++ x :: after)[before.length]? = some x := by
  rw [List.getElem?_append_right (Nat.le_refl _), Nat.sub_self]
  rfl

theorem mapIdx_eq_map {f : Nat → α → β} {g : α → β} {xs : List α}
    (h : ∀ i x, i < xs.length → x ∈ xs → f i x = g x) : xs.mapIdx f = xs.map g := by
  refine List.ext_getElem? fun i => ?_
  rw [List.getElem?_mapIdx, List.getElem?_map]
  cases hx : xs[i]? with
  | none => rfl
  | some x =>
    have hmem := List.mem_of_getElem? hx
    exact congrArg some (h i x (List.getElem?_eq_some_iff.1 hx).1 hmem)

end Purra
