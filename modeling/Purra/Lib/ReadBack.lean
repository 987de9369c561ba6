import Mathlib.Data.List.Forall2

/-!
# Texts that can be read back

A code writes a value as a list of letters.  A value can be *read back* when nothing else reads
like it: whatever may stand behind it, the letters tell where it ends, and what it was up to a
relation `R`.

* `ReadsBack` — one value under a code.
* `readsBack_word` — a word over an alphabet ends where the alphabet does.
* `ReadsBack.flatMap` — a sequence whose items can be read back, behind it a letter that starts
  none of them.
* `readsBack_of_length`, `ReadsBack.flatMap_of_length` — words of one length, and sequences of as
  many items.
-/

namespace Purra

section

variable {α γ : Type} {code : α → List γ} {R : α → α → Prop} {Follows : List γ → Prop}

/-- Whatever may follow, only values that are `R`-related to `x` read like it. -/
def ReadsBack (code : α → List γ) (R : α → α → Prop) (Follows : List γ → Prop) (x : α) : Prop :=
  ∀ y r s, Follows r → Follows s → code x ++ r = code y ++ s → R x y ∧ r = s

/-- A word over an alphabet ends where the alphabet does. -/
theorem readsBack_word {letter : γ → Bool} (hcode : ∀ x, ∀ c ∈ code x, letter c = true) (x : α) :
    ReadsBack code (fun x y => code x = code y) (fun r => ∀ c ∈ r.head?, letter c = false) x := by
  have htake : ∀ (x : α) (r : List γ), (∀ c ∈ r.head?, letter c = false) →
      (code x ++ r).takeWhile letter = code x := by
    intro x r hr
    rw [List.takeWhile_append_of_pos (hcode x)]
    cases r with
    | nil => simp
    | cons c r => simp [hr c rfl]
  intro y r s hr hs h
  have hsame : code x = code y := by
    rw [← htake x r hr, h, htake y s hs]
  rw [hsame] at h
  exact ⟨hsame, List.append_cancel_left h⟩

/-- The items of a sequence can be read back one after the other, as none of them starts like what
stands behind the sequence. -/
theorem ReadsBack.flatMap {stop : γ} {xs : List α} (hx : ∀ x ∈ xs, ReadsBack code R Follows x)
    (hfollows : ∀ (ys : List α) (r : List γ), Follows (ys.flatMap code ++ stop :: r))
    (hstop : ∀ y, ∃ c cs, code y = c :: cs ∧ c ≠ stop) :
    ReadsBack (fun l => l.flatMap code ++ [stop]) (List.Forall₂ R) (fun _ => True) xs := by
  intro ys r s _ _ h
  simp only [List.append_assoc, List.singleton_append] at h
  induction xs generalizing ys with
  | nil =>
    cases ys with
    | nil => exact ⟨.nil, (List.cons.inj h).2⟩
    | cons y ys =>
      obtain ⟨c, cs, hy, hc⟩ := hstop y
      rw [List.flatMap_cons, hy] at h
      exact absurd (List.cons.inj h).1.symm hc
  | cons x xs ih =>
    cases ys with
    | nil =>
      obtain ⟨c, cs, hx, hc⟩ := hstop x
      rw [List.flatMap_cons, hx] at h
      exact absurd (List.cons.inj h).1 hc
    | cons y ys =>
      rw [List.flatMap_cons, List.flatMap_cons, List.append_assoc, List.append_assoc] at h
      obtain ⟨hxy, hrest⟩ :=
        hx x (List.mem_cons_self ..) y _ _ (hfollows xs r) (hfollows ys s) h
      obtain ⟨hall, hrs⟩ := ih (fun z hz => hx z (List.mem_cons_of_mem x hz)) ys hrest
      exact ⟨.cons hxy hall, hrs⟩

/-- Words of one length end after as many letters. -/
theorem readsBack_of_length {n : Nat} (hcode : ∀ x, (code x).length = n) (x : α) :
    ReadsBack code (fun x y => code x = code y) Follows x := by
  intro y r s _ _ h
  exact List.append_inj h (by rw [hcode x, hcode y])

/-- The items of a sequence can be read back one after the other if it is known how many there
are. -/
theorem ReadsBack.flatMap_of_length {xs : List α}
    (hx : ∀ x ∈ xs, ReadsBack code R (fun _ => True) x) {ys : List α} {r s : List γ}
    (hlength : xs.length = ys.length) (h : xs.flatMap code ++ r = ys.flatMap code ++ s) :
    List.Forall₂ R xs ys ∧ r = s := by
  induction xs generalizing ys with
  | nil =>
    cases ys with
    | nil => exact ⟨.nil, h⟩
    | cons y ys => cases hlength
  | cons x xs ih =>
    cases ys with
    | nil => cases hlength
    | cons y ys =>
      rw [List.flatMap_cons, List.flatMap_cons, List.append_assoc, List.append_assoc] at h
      obtain ⟨hxy, hrest⟩ := hx x (List.mem_cons_self ..) y _ _ trivial trivial h
      obtain ⟨hall, hrs⟩ := ih (fun z hz => hx z (List.mem_cons_of_mem x hz))
        (Nat.succ.inj hlength) hrest
      exact ⟨.cons hxy hall, hrs⟩

/-- What can be read back behind anything can be read back behind less. -/
theorem ReadsBack.mono {R' : α → α → Prop} {Follows' : List γ → Prop} {x : α}
    (h : ReadsBack code R Follows x) (hR : ∀ y, R x y → R' x y) (hF : ∀ r, Follows' r → Follows r) :
    ReadsBack code R' Follows' x := by
  intro y r s hr hs heq
  obtain ⟨hxy, hrs⟩ := h y r s (hF r hr) (hF s hs) heq
  exact ⟨hR y hxy, hrs⟩

end

end Purra
