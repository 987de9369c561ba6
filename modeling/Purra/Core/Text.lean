import Purra.Core.Normalization
import Purra.Lib.Trim

/-!
# Checked text

A contract field typed `str` is passed through `required_text` before it is stored,
so what a record holds is stripped and not blank.  `RequiredText` is that kind of
text; records and commands are built from it, and an id that no check let through
cannot be written down.

* `strip_strip` — stripping twice is stripping once, so a checked text passes the
  next check unchanged (`of_text`).
* `word_inj`, `digits_inj` — words and numbers may be read off an id made of them.
* `numbered` — the ids a repository counts out, a word and a number; two of them with
  one word are equal only for one number (`numbered_inj`).
-/

namespace Purra

theorem toList_strip (s : String) :
    (strip s).toList = (s.toList.dropWhile isSpace).rdropWhile isSpace := toList_trimWith isSpace s

/-- Text that neither begins nor ends with whitespace is left alone by `strip`. -/
theorem strip_eq_self {s : String} (hhead : ∀ c ∈ s.toList.head?, isSpace c = false)
    (hlast : ∀ c ∈ s.toList.getLast?, isSpace c = false) : strip s = s :=
  trimWith_eq_self hhead hlast

theorem head_strip (s : String) : ∀ c ∈ (strip s).toList.head?, isSpace c = false :=
  head_trimWith s

theorem strip_strip (s : String) : strip (strip s) = strip s := trimWith_trimWith s

/-! ## Digits and words -/

theorem digits_inj {m n : Nat} (h : (toString m).toList = (toString n).toList) : m = n := by
  have hdigits : Nat.toDigits 10 m = Nat.toDigits 10 n :=
    Nat.toList_repr.symm.trans (h.trans Nat.toList_repr)
  calc m = Nat.ofDigitChars 10 (Nat.toDigits 10 m) 0 := Nat.ofDigitChars_ten_toDigits.symm
    _ = Nat.ofDigitChars 10 (Nat.toDigits 10 n) 0 := by rw [hdigits]
    _ = n := Nat.ofDigitChars_ten_toDigits

theorem not_mem_digits {c : Char} (hc : c.isDigit = false) (n : Nat) : c ∉ (toString n).toList := by
  intro h
  have hdigit := Nat.isDigit_of_mem_toDigits (by decide) (by decide) (Nat.toList_repr ▸ h)
  rw [hc] at hdigit
  cases hdigit

/-- Words without a separator may be read off in front of it. -/
theorem word_inj {c : Char} {word word' rest rest' : List Char} (hword : c ∉ word)
    (hword' : c ∉ word') (h : word ++ c :: rest = word' ++ c :: rest') :
    word = word' ∧ rest = rest' := by
  induction word generalizing word' with
  | nil =>
    cases word' with
    | nil => exact ⟨rfl, List.tail_eq_of_cons_eq h⟩
    | cons d word' =>
      have hd : c = d := List.head_eq_of_cons_eq h
      exact absurd (hd ▸ List.mem_cons_self) hword'
  | cons d word ih =>
    cases word' with
    | nil =>
      have hd : d = c := List.head_eq_of_cons_eq h
      exact absurd (hd ▸ List.mem_cons_self) hword
    | cons d' word' =>
      obtain ⟨rfl, hrest⟩ := List.cons.inj h
      obtain ⟨rfl, rfl⟩ := ih (fun hmem => hword (List.mem_cons_of_mem _ hmem))
        (fun hmem => hword' (List.mem_cons_of_mem _ hmem)) hrest
      exact ⟨rfl, rfl⟩

/-! ## Checked text -/

/-- A field that went through `required_text`: stripped, and not blank. -/
structure RequiredText where
  text : String
  stripped : strip text = text
  nonblank : text ≠ ""
  deriving DecidableEq, Repr

instance : LawfulBEq (RequiredText × RequiredText) := inferInstance

namespace RequiredText

theorem ext {a b : RequiredText} (h : a.text = b.text) : a = b := by
  cases a
  cases b
  cases h
  rfl

/-- A text written in the source. -/
def lit (text : String) (h : strip text = text ∧ text ≠ "" := by decide +kernel) : RequiredText :=
  ⟨text, h.1, h.2⟩

/-- `required_text`, as the constructor of a checked field. -/
def of (value field : String) : Except PyError RequiredText :=
  if h : strip value = "" then .error (.valueError (field ++ " is required"))
  else .ok ⟨strip value, strip_strip value, h⟩

theorem of_eq_ok {value field : String} {t : RequiredText} :
    of value field = .ok t ↔ strip value = t.text := by
  unfold of
  split
  · rename_i h
    constructor
    · intro he
      cases he
    · intro he
      exact absurd (he.symm.trans h) t.nonblank
  · constructor
    · intro he
      cases he
      rfl
    · intro he
      exact congrArg Except.ok (ext he)

@[simp] theorem of_text (t : RequiredText) (field : String) : of t.text field = .ok t :=
  of_eq_ok.2 t.stripped

/-- `optional_text`, as the constructor of an optional field. -/
def optional (value : Option String) : Option RequiredText :=
  match value with
  | none => none
  | some text =>
    if h : strip text = "" then none else some ⟨strip text, strip_strip text, h⟩

/-! ## Numbered ids -/

theorem isSpace_of_isDigit {c : Char} (h : c.isDigit = true) : isSpace c = false := by
  have hrange : 48 ≤ c.toNat ∧ c.toNat ≤ 57 := by
    simp only [Char.isDigit, Bool.and_eq_true, decide_eq_true_eq] at h
    exact ⟨by simpa using UInt32.le_iff_toNat_le.1 h.1, by simpa using UInt32.le_iff_toNat_le.1 h.2⟩
  simp only [isSpace]
  simp
  omega

/-- A word followed by a number: an id taken from a counter. -/
def numbered (word : String) (hword : ∀ c ∈ word.toList.head?, isSpace c = false) (n : Nat) :
    RequiredText where
  text := word ++ toString n
  stripped := by
    have hdigits : (toString n).toList = Nat.toDigits 10 n := Nat.toList_repr
    have hne : Nat.toDigits 10 n ≠ [] := Nat.toDigits_ne_nil
    have hdigit : ∀ c ∈ Nat.toDigits 10 n, isSpace c = false := fun c hc =>
      isSpace_of_isDigit (Nat.isDigit_of_mem_toDigits (by decide) (by decide) hc)
    apply strip_eq_self
    · intro c hc
      rw [String.toList_append, List.head?_append] at hc
      cases hw : word.toList.head? with
      | none =>
        rw [hw, Option.none_or, hdigits] at hc
        exact hdigit c (List.mem_of_head? hc)
      | some d =>
        rw [hw, Option.some_or, Option.mem_some_iff] at hc
        exact hc ▸ hword d hw
    · intro c hc
      rw [String.toList_append, hdigits, List.getLast?_append_of_ne_nil _ hne] at hc
      exact hdigit c (List.mem_of_getLast? hc)
  nonblank := by
    intro h
    have hlist := congrArg String.toList h
    rw [String.toList_append] at hlist
    have hnil : (toString n).toList = [] := (List.append_eq_nil_iff.1 hlist).2
    exact Nat.toDigits_ne_nil (Nat.toList_repr.symm.trans hnil)

theorem numbered_inj {word : String} {hword : ∀ c ∈ word.toList.head?, isSpace c = false}
    {m n : Nat} : numbered word hword m = numbered word hword n ↔ m = n := by
  constructor
  · intro h
    have htext : word ++ toString m = word ++ toString n := congrArg RequiredText.text h
    have hlist := congrArg String.toList htext
    rw [String.toList_append, String.toList_append, List.append_cancel_left_eq] at hlist
    exact digits_inj hlist
  · rintro rfl
    rfl

end RequiredText

end Purra
