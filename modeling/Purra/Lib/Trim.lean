import Mathlib.Data.List.DropRight

/-!
# Trimming

Text without the characters of a kind at its two ends.

* `trimWith` — drop the characters `p` accepts from the front and from the end.
* `trimWith_eq_self` — text that neither begins nor ends with such a character stays as it is.
* `trimWith_trimWith` — trimming twice is trimming once.
-/

namespace Purra

variable {p : Char → Bool}

/-- `s` without what `p` accepts at its ends. -/
def trimWith (p : Char → Bool) (s : String) : String :=
  String.ofList ((s.toList.dropWhile p).reverse.dropWhile p).reverse

theorem toList_trimWith (p : Char → Bool) (s : String) :
    (trimWith p s).toList = (s.toList.dropWhile p).rdropWhile p := by
  simp [trimWith, List.rdropWhile]

/-- Text that neither begins nor ends with what `p` accepts is left alone. -/
theorem trimWith_eq_self {s : String} (hhead : ∀ c ∈ s.toList.head?, p c = false)
    (hlast : ∀ c ∈ s.toList.getLast?, p c = false) : trimWith p s = s := by
  apply String.toList_inj.1
  rw [toList_trimWith]
  have hfront : s.toList.dropWhile p = s.toList := by
    cases h : s.toList with
    | nil => rfl
    | cons c l =>
      have hc : p c = false := hhead c (by simp [h])
      simp [hc]
  rw [hfront, List.rdropWhile_eq_self_iff]
  intro hne
  simpa using hlast (s.toList.getLast hne) (List.getLast?_eq_some_getLast hne)

theorem head_trimWith (s : String) : ∀ c ∈ (trimWith p s).toList.head?, p c = false := by
  intro c hc
  rw [toList_trimWith] at hc
  -- the trimmed text is a prefix of the front-trimmed one, which begins with nothing `p` accepts
  obtain ⟨rest, hrest⟩ := List.rdropWhile_prefix p (l := s.toList.dropWhile p)
  have hfront : c ∈ (s.toList.dropWhile p).head? := by
    rw [← hrest]
    cases h : List.rdropWhile p (s.toList.dropWhile p) with
    | nil => simp [h] at hc
    | cons d l => simpa [h] using hc
  have := List.head?_dropWhile_not p s.toList
  rw [hfront] at this
  simpa using this

theorem trimWith_trimWith (s : String) : trimWith p (trimWith p s) = trimWith p s := by
  apply trimWith_eq_self
  · exact head_trimWith s
  · intro c hc
    rw [toList_trimWith] at hc
    have hne : (s.toList.dropWhile p).rdropWhile p ≠ [] := by
      intro h
      simp [h] at hc
    have hlast := List.rdropWhile_last_not p (s.toList.dropWhile p) hne
    rw [List.getLast?_eq_some_getLast hne] at hc
    cases hc
    simpa using hlast

end Purra
