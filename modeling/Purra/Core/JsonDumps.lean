import Mathlib.Tactic.NormNum
import Mathlib.Tactic.Ring
import Purra.Core.Reading
import Purra.Core.Structured
import Purra.Lib.ReadBack
import Purra.Lib.Sequence

/-!
# Canonical JSON texts

The digests of a command are taken of `json.dumps(value, sort_keys=True)` with the tightest
separators, so they tell commands apart as far as this text does.

* `jsonDumps` — the text; how a float is printed is Python's `repr`, a parameter.
* `Json.sorted`, `Json.Same` — a value with the members of its objects in the order of their
  names; two values are the same JSON when their members differ in their order at most.
* `jsonDumps_sorted_iff` — **the text tells a value exactly**: same text, same JSON.
-/

namespace Purra

variable (py : Builtins)

/-! ## `json.dumps` -/

/-- A character of a JSON string, without `ensure_ascii`. -/
def dumpedChar (c : Char) : List Char :=
  if c = '"' ∨ c = '\\' then ['\\', c]
  else if c = '\n' then ['\\', 'n']
  else if c = '\r' then ['\\', 'r']
  else if c = '\t' then ['\\', 't']
  else if c.toNat = 8 then ['\\', 'b']
  else if c.toNat = 12 then ['\\', 'f']
  else if c.toNat < 32 then '\\' :: 'u' :: hexDigits 4 c.toNat
  else [c]

/-- A JSON string. -/
def dumpedText (s : String) : List Char := '"' :: (s.toList.flatMap dumpedChar ++ ['"'])

/-- Members behind one another, with a comma between them. -/
def dumpedMembers : List (List Char) → List Char
  | [] => []
  | [member] => member
  | member :: members => member ++ ',' :: dumpedMembers members

mutual

/-- `json.dumps` without `ensure_ascii` and with the tightest separators. -/
def jsonDumps : Json → List Char
  | .null => "null".toList
  | .bool b => (if b then "true" else "false").toList
  | .int n => (toString n).toList
  | .float mantissa exponent => (py.repr (.float mantissa exponent)).toList
  | .str s => dumpedText s
  | .arr items => '[' :: (dumpedMembers (jsonDumpsItems items) ++ [']'])
  | .obj fields => '\x7b' :: (dumpedMembers (jsonDumpsFields fields) ++ ['\x7d'])

/-- The items of an array. -/
def jsonDumpsItems : List Json → List (List Char)
  | [] => []
  | item :: items => jsonDumps item :: jsonDumpsItems items

/-- The members of an object. -/
def jsonDumpsFields : List (String × Json) → List (List Char)
  | [] => []
  | (key, item) :: fields => (dumpedText key ++ ':' :: jsonDumps item) :: jsonDumpsFields fields

end

variable {py}

theorem jsonDumpsItems_eq (items : List Json) :
    jsonDumpsItems py items = items.map (jsonDumps py) := by
  induction items with
  | nil => rfl
  | cons item items ih => rw [jsonDumpsItems, ih, List.map_cons]

/-- A member of an object. -/
def dumpedMember (py : Builtins) (p : String × Json) : List Char :=
  dumpedText p.1 ++ ':' :: jsonDumps py p.2

theorem jsonDumpsFields_eq (fields : List (String × Json)) :
    jsonDumpsFields py fields = fields.map (dumpedMember py) := by
  induction fields with
  | nil => rfl
  | cons p fields ih => rw [jsonDumpsFields, ih, List.map_cons, dumpedMember]

theorem dumpedMembers_cons (member : List Char) (members : List (List Char)) :
    dumpedMembers (member :: members) = member ++ members.flatMap (',' :: ·) := by
  induction members generalizing member with
  | nil => simp [dumpedMembers]
  | cons next members ih =>
    rw [dumpedMembers, ih, List.flatMap_cons, List.cons_append]
    exact nofun

/-! ## The same JSON -/

namespace Json

mutual

/-- The same value, the members of its objects in the same order. -/
def alike : Json → Json → Bool
  | .null, .null => true
  | .bool a, .bool b => a = b
  | .int m, .int n => m = n
  | .float m e, .float n f => sameNumber (m, e) (n, f)
  | .str a, .str b => a = b
  | .arr xs, .arr ys => alikeItems xs ys
  | .obj xs, .obj ys => alikeFields xs ys
  | _, _ => false

/-- Items alike, one by one. -/
def alikeItems : List Json → List Json → Bool
  | [], [] => true
  | x :: xs, y :: ys => alike x y && alikeItems xs ys
  | _, _ => false

/-- Members alike, one by one. -/
def alikeFields : List (String × Json) → List (String × Json) → Bool
  | [], [] => true
  | (k, v) :: xs, (l, w) :: ys => k = l && alike v w && alikeFields xs ys
  | _, _ => false

end

theorem alikeItems_iff {xs ys : List Json} :
    alikeItems xs ys = true ↔ List.Forall₂ (fun x y => alike x y = true) xs ys := by
  induction xs generalizing ys with
  | nil => cases ys <;> simp [alikeItems]
  | cons x xs ih => cases ys <;> simp [alikeItems, ih]

theorem alikeFields_iff {xs ys : List (String × Json)} :
    alikeFields xs ys = true ↔
      List.Forall₂ (fun p q => p.1 = q.1 ∧ alike p.2 q.2 = true) xs ys := by
  induction xs generalizing ys with
  | nil => cases ys <;> simp [alikeFields]
  | cons x xs ih => cases ys <;> simp [alikeFields, ih]

mutual

/-- The members of every object in the order of their names. -/
def sorted : Json → Json
  | .null => .null
  | .bool b => .bool b
  | .int n => .int n
  | .float m e => .float m e
  | .str s => .str s
  | .arr items => .arr (sortedItems items)
  | .obj fields => .obj ((sortedFields fields).mergeSort fun p q => p.1 ≤ q.1)

/-- Every item sorted. -/
def sortedItems : List Json → List Json
  | [] => []
  | item :: items => sorted item :: sortedItems items

/-- Every member sorted. -/
def sortedFields : List (String × Json) → List (String × Json)
  | [] => []
  | (key, item) :: fields => (key, sorted item) :: sortedFields fields

end

theorem sortedItems_eq (items : List Json) : sortedItems items = items.map sorted := by
  induction items with
  | nil => rfl
  | cons item items ih => rw [sortedItems, ih, List.map_cons]

theorem sortedFields_eq (fields : List (String × Json)) :
    sortedFields fields = fields.map fun p => (p.1, sorted p.2) := by
  induction fields with
  | nil => rfl
  | cons p fields ih => rw [sortedFields, ih, List.map_cons]

/-- The same JSON: equal up to the order of the members of an object. -/
def Same (x y : Json) : Prop := alike x.sorted y.sorted = true

instance (x y : Json) : Decidable (Same x y) := inferInstanceAs (Decidable (_ = _))

@[simp] theorem same_str {a b : String} : Same (.str a) (.str b) ↔ a = b := by
  simp [Same, sorted, alike]

@[simp] theorem same_int {m n : Int} : Same (.int m) (.int n) ↔ m = n := by
  simp [Same, sorted, alike]

@[simp] theorem same_bool {a b : Bool} : Same (.bool a) (.bool b) ↔ a = b := by
  simp [Same, sorted, alike]

@[simp] theorem same_arr {xs ys : List Json} :
    Same (.arr xs) (.arr ys) ↔ List.Forall₂ Same xs ys := by
  simp only [Same, sorted, alike, sortedItems_eq, alikeItems_iff]
  rw [List.forall₂_map_left_iff, List.forall₂_map_right_iff]
  rfl

theorem forall₂_same_str {xs ys : List String} :
    List.Forall₂ Same (xs.map .str) (ys.map .str) ↔ xs = ys := by
  rw [List.forall₂_map_left_iff, List.forall₂_map_right_iff]
  simp only [same_str]
  exact ⟨fun h => List.forall₂_eq_eq_eq ▸ h, fun h => h ▸ List.forall₂_same.2 fun _ _ => rfl⟩

/-- Two objects with the same names in the same order are the same if their members are. -/
theorem same_obj (rows : List (String × Json × Json)) :
    Same (.obj (rows.map fun row => (row.1, row.2.1))) (.obj (rows.map fun row => (row.1, row.2.2))) ↔
      ∀ row ∈ rows, Same row.2.1 row.2.2 := by
  have hsort : ∀ f : String × Json × Json → Json,
      (sortedFields (rows.map fun row => (row.1, f row))).mergeSort (fun p q => p.1 ≤ q.1) =
        (rows.mergeSort fun p q => p.1 ≤ q.1).map fun row => (row.1, sorted (f row)) := by
    intro f
    rw [sortedFields_eq, List.map_map, List.map_mergeSort]
    · rfl
    · intro a _ b _
      rfl
  rw [Same, sorted, sorted, hsort fun row => row.2.1, hsort fun row => row.2.2, alike,
    alikeFields_iff, List.forall₂_map_left_iff, List.forall₂_map_right_iff, List.forall₂_same]
  constructor
  · intro h row hrow
    exact (h row (List.mem_mergeSort.2 hrow)).2
  · intro h row hrow
    exact ⟨rfl, h row (List.mem_mergeSort.1 hrow)⟩

end Json

/-! ## Strings can be read back -/

/-- The value of a lower case hexadecimal digit. -/
def hexValue (c : Char) : Nat := if c.toNat < 58 then c.toNat - 48 else c.toNat - 87

theorem hexValue_digitChar (n : Nat) (h : n < 16) : hexValue (Nat.digitChar n) = n := by
  have hall : ∀ n : Fin 16, hexValue (Nat.digitChar n.1) = n.1 := by decide
  exact hall ⟨n, h⟩

/-- The character at the head of the inside of a JSON string, and what stands behind it. -/
def readChar : List Char → Option (Char × List Char)
  | '\\' :: 'n' :: rest => some ('\n', rest)
  | '\\' :: 'r' :: rest => some ('\r', rest)
  | '\\' :: 't' :: rest => some ('\t', rest)
  | '\\' :: 'b' :: rest => some (Char.ofNat 8, rest)
  | '\\' :: 'f' :: rest => some (Char.ofNat 12, rest)
  | '\\' :: 'u' :: _ :: _ :: c :: d :: rest =>
    some (Char.ofNat (16 * hexValue c + hexValue d), rest)
  | '\\' :: c :: rest => some (c, rest)
  | c :: rest => some (c, rest)
  | [] => none

theorem readChar_dumpedChar (c : Char) (rest : List Char) :
    readChar (dumpedChar c ++ rest) = some (c, rest) := by
  unfold dumpedChar
  split
  · rename_i h
    rcases h with rfl | rfl <;> rfl
  split
  · subst c
    rfl
  split
  · subst c
    rfl
  split
  · subst c
    rfl
  split
  · rename_i h
    rw [← Char.ofNat_toNat c, h]
    rfl
  split
  · rename_i h
    rw [← Char.ofNat_toNat c, h]
    rfl
  split
  · rename_i h
    have hhigh := hexValue_digitChar (c.toNat / 16 % 16) (Nat.mod_lt _ (by decide))
    have hlow := hexValue_digitChar (c.toNat % 16) (Nat.mod_lt _ (by decide))
    show some (Char.ofNat (16 * hexValue (Nat.digitChar (c.toNat / 16 % 16)) +
      hexValue (Nat.digitChar (c.toNat % 16))), rest) = _
    rw [hhigh, hlow, show 16 * (c.toNat / 16 % 16) + c.toNat % 16 = c.toNat by omega,
      Char.ofNat_toNat]
  · rename_i hplain _ _ _ _ _ _
    have hc : c ≠ '\\' := fun h => hplain (Or.inr h)
    simp [readChar, hc]

theorem readsBack_dumpedChar (c : Char) :
    ReadsBack dumpedChar (· = ·) (fun _ => True) c := by
  intro d r s _ _ h
  have hread := readChar_dumpedChar c r
  rw [h, readChar_dumpedChar] at hread
  cases hread
  exact ⟨rfl, rfl⟩

/-- No character of a string starts like its closing quote. -/
theorem dumpedChar_ne_quote (c : Char) : ∃ d ds, dumpedChar c = d :: ds ∧ d ≠ '"' := by
  by_cases hplain : dumpedChar c = [c]
  · refine ⟨c, [], hplain, ?_⟩
    rintro rfl
    exact absurd hplain (by decide)
  · unfold dumpedChar at hplain ⊢
    split_ifs at hplain ⊢
    all_goals first
      | exact ⟨'\\', _, rfl, by decide⟩
      | exact absurd rfl hplain

theorem readsBack_dumpedText (s : String) :
    ReadsBack dumpedText (· = ·) (fun _ => True) s := by
  intro t r r' _ _ h
  have hchars : ReadsBack (fun l => l.flatMap dumpedChar ++ ['"']) (List.Forall₂ (· = ·))
      (fun _ => True) s.toList :=
    ReadsBack.flatMap (fun c _ => readsBack_dumpedChar c) (fun _ _ => trivial) dumpedChar_ne_quote
  obtain ⟨hall, hrest⟩ := hchars t.toList r r' trivial trivial (List.cons.inj h).2
  exact ⟨String.ext_iff.2 (List.forall₂_eq_eq_eq ▸ hall), hrest⟩

/-! ## Numbers can be read back -/

/-- A letter of a printed number. -/
def numberLetter (c : Char) : Bool := c.isDigit || c = '-' || c = '.' || c = 'e' || c = '+'

/-- How Python prints a finite float: the same text for the same float only, and never one of an
integer. -/
structure FloatRepr (py : Builtins) : Prop where
  letters : ∀ m e, ∀ c ∈ (py.repr (.float m e)).toList, numberLetter c = true
  marked : ∀ m e, ∃ c ∈ (py.repr (.float m e)).toList, c = '.' ∨ c = 'e'
  exact : ∀ m e n f,
    py.repr (.float m e) = py.repr (.float n f) ↔ Json.sameNumber (m, e) (n, f) = true

theorem mem_toList_int {n : Int} {c : Char} (h : c ∈ (toString n).toList) :
    c.isDigit = true ∨ c = '-' := by
  cases n with
  | ofNat m => exact Or.inl (Nat.isDigit_of_mem_toDigits (by decide) (by decide) (Nat.toList_repr ▸ h))
  | negSucc m =>
    have hmem : c ∈ ("-" ++ (m + 1).repr).toList := h
    rw [String.toList_append, List.mem_append] at hmem
    rcases hmem with hmem | hmem
    · exact Or.inr (by simpa using hmem)
    · exact Or.inl (Nat.isDigit_of_mem_toDigits (by decide) (by decide) (Nat.toList_repr ▸ hmem))

theorem toList_int_inj {m n : Int} (h : (toString m).toList = (toString n).toList) : m = n := by
  have hdash : ∀ m n : Nat, (toString m).toList ≠ '-' :: (toString n).toList := by
    intro m n heq
    exact not_mem_digits (c := '-') (by decide) m (heq ▸ List.mem_cons_self ..)
  have hneg : ∀ n : Nat, (toString (Int.negSucc n)).toList = '-' :: (toString (n + 1)).toList := by
    intro n
    show ("-" ++ (n + 1).repr).toList = _
    rw [String.toList_append]
    rfl
  cases m with
  | ofNat m =>
    cases n with
    | ofNat n => exact congrArg Int.ofNat (digits_inj h)
    | negSucc n => exact absurd (h.trans (hneg n)) (hdash m (n + 1))
  | negSucc m =>
    cases n with
    | ofNat n => exact absurd (h.symm.trans (hneg m)) (hdash n (m + 1))
    | negSucc n =>
      rw [hneg, hneg] at h
      have := digits_inj (List.cons.inj h).2
      congr 1
      omega

namespace Json

/-- What a text may begin with, by the kind of its value. -/
def kind : Json → Nat
  | .null => 0
  | .bool true => 1
  | .bool false => 2
  | .int _ | .float _ _ => 3
  | .str _ => 4
  | .arr _ => 5
  | .obj _ => 6

/-- The kind of the values that begin with a letter. -/
def kindOf (c : Char) : Nat :=
  if c = 'n' then 0 else if c = 't' then 1 else if c = 'f' then 2 else if c = '"' then 4
  else if c = '[' then 5 else if c = '\x7b' then 6 else if numberLetter c then 3 else 7

theorem kindOf_numberLetter {c : Char} (h : numberLetter c = true) : kindOf c = 3 := by
  have hne : ∀ d : Char, numberLetter d = false → c ≠ d := by
    rintro d hd rfl
    rw [hd] at h
    cases h
  simp [kindOf, hne 'n' (by decide), hne 't' (by decide), hne 'f' (by decide), hne '"' (by decide),
    hne '[' (by decide), hne '\x7b' (by decide), h]

end Json

/-- The text of a number. -/
def numberText (py : Builtins) : Int ⊕ Int × Int → List Char
  | .inl n => jsonDumps py (.int n)
  | .inr (m, e) => jsonDumps py (.float m e)

section

variable (hpy : FloatRepr py)
include hpy

omit hpy in
theorem numberLetter_int {n : Int} {c : Char} (h : c ∈ (toString n).toList) :
    numberLetter c = true := by
  rcases mem_toList_int h with h | rfl
  · simp [numberLetter, h]
  · rfl

theorem numberLetter_numberText (x : Int ⊕ Int × Int) :
    ∀ c ∈ numberText py x, numberLetter c = true := by
  intro c hc
  rcases x with n | ⟨m, e⟩
  · exact numberLetter_int hc
  · exact hpy.letters m e c hc

theorem int_ne_float (n m e : Int) : jsonDumps py (.int n) ≠ jsonDumps py (.float m e) := by
  intro h
  obtain ⟨c, hc, hmark⟩ := hpy.marked m e
  have hmem : c ∈ (toString n).toList := by
    have hn : jsonDumps py (.int n) = (toString n).toList := rfl
    rw [← hn, h]
    exact hc
  rcases mem_toList_int hmem with hdigit | rfl
  · rcases hmark with rfl | rfl <;> exact absurd hdigit (by decide)
  · rcases hmark with hmark | hmark <;> exact absurd hmark (by decide)

theorem alike_of_numberText {x y : Json} {a b : Int ⊕ Int × Int}
    (hx : x = a.elim .int fun p => .float p.1 p.2) (hy : y = b.elim .int fun p => .float p.1 p.2)
    (h : numberText py a = numberText py b) : x.alike y = true := by
  subst hx hy
  rcases a with n | ⟨m, e⟩ <;> rcases b with k | ⟨l, f⟩
  · simpa [Json.alike] using toList_int_inj h
  · exact absurd h (int_ne_float hpy n l f)
  · exact absurd h.symm (int_ne_float hpy k m e)
  · exact (hpy.exact m e l f).1 (String.ext_iff.2 h)

/-- The first letter of a text tells the kind of its value. -/
theorem jsonDumps_head (x : Json) : ∃ c cs, jsonDumps py x = c :: cs ∧ Json.kindOf c = x.kind := by
  have hnumber : ∀ a : Int ⊕ Int × Int, numberText py a ≠ [] →
      ∃ c cs, numberText py a = c :: cs ∧ Json.kindOf c = 3 := by
    intro a ha
    obtain ⟨c, cs, heq⟩ := List.exists_cons_of_ne_nil ha
    refine ⟨c, cs, heq, Json.kindOf_numberLetter (numberLetter_numberText hpy a c ?_)⟩
    exact heq ▸ List.mem_cons_self ..
  cases x with
  | null => exact ⟨'n', _, rfl, by decide⟩
  | bool b => cases b with
    | true => exact ⟨'t', _, rfl, by decide⟩
    | false => exact ⟨'f', _, rfl, by decide⟩
  | int n =>
    refine hnumber (.inl n) fun h => ?_
    have hnil : (toString n).toList = [] := h
    cases n with
    | ofNat m => exact Nat.toDigits_ne_nil (Nat.toList_repr.symm.trans hnil)
    | negSucc m =>
      have hdash : ("-" ++ (m + 1).repr).toList = [] := hnil
      simp at hdash
  | float m e =>
    refine hnumber (.inr (m, e)) fun h => ?_
    obtain ⟨c, hc, -⟩ := hpy.marked m e
    have hnil : (py.repr (.float m e)).toList = [] := h
    rw [hnil] at hc
    cases hc
  | str s => exact ⟨'"', _, rfl, rfl⟩
  | arr items => exact ⟨'[', _, rfl, rfl⟩
  | obj fields => exact ⟨'\x7b', _, rfl, rfl⟩

end

/-! ## Values can be read back -/

/-- What may stand behind a value inside a text: nothing, a comma or a closing bracket. -/
def BehindValue (r : List Char) : Prop := ∀ c ∈ r.head?, c = ',' ∨ c = ']' ∨ c = '\x7d'

theorem not_numberLetter_behind {r : List Char} (h : BehindValue r) :
    ∀ c ∈ r.head?, numberLetter c = false := by
  intro c hc
  rcases h c hc with rfl | rfl | rfl <;> rfl

/-- The members between two brackets can be read back if each of them can. -/
theorem readsBack_members {α : Type} {code : α → List Char} {R : α → α → Prop} {close : Char}
    {xs : List α} (hx : ∀ x ∈ xs, ReadsBack code R BehindValue x) (hclose : close = ']' ∨ close = '\x7d')
    (hhead : ∀ y, ∃ c cs, code y = c :: cs ∧ c ≠ close) :
    ReadsBack (fun l => dumpedMembers (l.map code) ++ [close]) (List.Forall₂ R) (fun _ => True)
      xs := by
  have hcomma : ',' ≠ close := by
    rcases hclose with rfl | rfl <;> decide
  have hends : ∀ (ys : List α) (r : List Char),
      BehindValue (ys.flatMap (fun y => ',' :: code y) ++ close :: r) := by
    intro ys r c hc
    cases ys with
    | nil =>
      cases hc
      exact Or.inr hclose
    | cons y ys =>
      cases hc
      exact Or.inl rfl
  have htail : ∀ x ∈ xs, ReadsBack (fun y => ',' :: code y) R BehindValue x := fun x hmem y r s hr hs h =>
    hx x hmem y r s hr hs (List.cons.inj h).2
  have hmembers : ∀ (y : α) (ys : List α) (r : List Char),
      dumpedMembers ((y :: ys).map code) ++ [close] ++ r =
        code y ++ (ys.flatMap (fun y => ',' :: code y) ++ close :: r) := by
    intro y ys r
    simp [dumpedMembers_cons, List.flatMap_map]
  intro ys r s _ _ h
  cases xs with
  | nil =>
    cases ys with
    | nil => exact ⟨.nil, (List.cons.inj h).2⟩
    | cons y ys =>
      obtain ⟨c, cs, hy, hc⟩ := hhead y
      rw [hmembers, hy] at h
      exact absurd (List.cons.inj h).1.symm hc
  | cons x xs =>
    cases ys with
    | nil =>
      obtain ⟨c, cs, hx, hc⟩ := hhead x
      rw [hmembers, hx] at h
      exact absurd (List.cons.inj h).1 hc
    | cons y ys =>
      rw [hmembers, hmembers] at h
      obtain ⟨hxy, hrest⟩ := hx x (List.mem_cons_self ..) y _ _ (hends xs r) (hends ys s) h
      have htails : ReadsBack (fun l => l.flatMap (fun y => ',' :: code y) ++ [close])
          (List.Forall₂ R) (fun _ => True) xs :=
        ReadsBack.flatMap (fun x hmem => htail x (List.mem_cons_of_mem _ hmem))
          (fun ys r => hends ys r) (fun y => ⟨',', code y, rfl, hcomma⟩)
      obtain ⟨hall, hrs⟩ := htails ys r s trivial trivial (by simpa using hrest)
      exact ⟨.cons hxy hall, hrs⟩

section

variable (hpy : FloatRepr py)
include hpy

theorem readsBack_number {x : Json} {a : Int ⊕ Int × Int}
    (hx : x = a.elim .int fun p => .float p.1 p.2) :
    ReadsBack (jsonDumps py) (fun x y => x.alike y = true) BehindValue x := by
  intro y r s hr hs h
  have hxtext : jsonDumps py x = numberText py a := by
    rcases a with n | ⟨m, e⟩ <;> (subst hx; rfl)
  obtain ⟨c, cs, hy, hkind⟩ := jsonDumps_head hpy y
  have hthree : y.kind = 3 := by
    obtain ⟨d, ds, hd, hkindx⟩ := jsonDumps_head hpy x
    rw [hd, hy] at h
    have hcd := (List.cons.inj h).1
    have hx3 : x.kind = 3 := by
      rcases a with n | ⟨m, e⟩ <;> (subst hx; rfl)
    rw [← hkind, ← hcd, hkindx, hx3]
  obtain ⟨b, hb⟩ : ∃ b : Int ⊕ Int × Int, y = b.elim .int fun p => .float p.1 p.2 := by
    cases y with
    | int n => exact ⟨.inl n, rfl⟩
    | float m e => exact ⟨.inr (m, e), rfl⟩
    | bool b => cases b <;> cases hthree
    | _ => cases hthree
  have hytext : jsonDumps py y = numberText py b := by
    rcases b with n | ⟨m, e⟩ <;> (subst hb; rfl)
  rw [hxtext, hytext] at h
  obtain ⟨hsame, hrs⟩ := readsBack_word (numberLetter_numberText hpy) a b r s
    (not_numberLetter_behind hr) (not_numberLetter_behind hs) h
  exact ⟨alike_of_numberText hpy hx hb hsame, hrs⟩

/-- Values that begin alike are of one kind. -/
theorem kind_of_text {x y : Json} {r s : List Char}
    (h : jsonDumps py x ++ r = jsonDumps py y ++ s) : x.kind = y.kind := by
  obtain ⟨c, cs, hx, hkind⟩ := jsonDumps_head hpy x
  obtain ⟨d, ds, hy, hkind'⟩ := jsonDumps_head hpy y
  rw [hx, hy] at h
  rw [← hkind, ← hkind', (List.cons.inj h).1]

theorem jsonDumps_ne_close (close : Char) (hclose : close = ']' ∨ close = '\x7d') (y : Json) :
    ∃ c cs, jsonDumps py y = c :: cs ∧ c ≠ close := by
  obtain ⟨c, cs, hy, hkind⟩ := jsonDumps_head hpy y
  refine ⟨c, cs, hy, ?_⟩
  rintro rfl
  have hseven : Json.kindOf c = 7 := by
    rcases hclose with rfl | rfl <;> rfl
  rw [hseven] at hkind
  cases y with
  | bool b => cases b <;> cases hkind
  | _ => cases hkind

/-- A value can be read back wherever it stands in a text. -/
theorem readsBack_jsonDumps :
    ∀ x : Json, ReadsBack (jsonDumps py) (fun x y => x.alike y = true) BehindValue x := by
  refine @Json.rec
    (fun x => ReadsBack (jsonDumps py) (fun x y => x.alike y = true) BehindValue x)
    (fun xs => ∀ x ∈ xs, ReadsBack (jsonDumps py) (fun x y => x.alike y = true) BehindValue x)
    (fun fields => ∀ p ∈ fields,
      ReadsBack (jsonDumps py) (fun x y => x.alike y = true) BehindValue p.2)
    (fun p => ReadsBack (jsonDumps py) (fun x y => x.alike y = true) BehindValue p.2)
    ?null ?bool ?int ?float ?str ?arr ?obj ?nil ?cons ?fnil ?fcons ?member
  case null =>
    intro y r s _ _ h
    have hkind := kind_of_text hpy h
    cases y with
    | null => exact ⟨rfl, List.append_cancel_left h⟩
    | bool b => cases b <;> cases hkind
    | _ => cases hkind
  case bool =>
    intro b y r s _ _ h
    have hkind := kind_of_text hpy h
    cases y with
    | bool b' =>
      cases b <;> cases b' <;>
        first
          | exact ⟨rfl, List.append_cancel_left h⟩
          | cases hkind
    | _ => cases b <;> cases hkind
  case int => exact fun n => readsBack_number hpy (a := .inl n) rfl
  case float => exact fun m e => readsBack_number hpy (a := .inr (m, e)) rfl
  case str =>
    intro a y r s _ _ h
    have hkind := kind_of_text hpy h
    cases y with
    | str b =>
      obtain ⟨hab, hrs⟩ := readsBack_dumpedText a b r s trivial trivial h
      exact ⟨by simpa [Json.alike] using hab, hrs⟩
    | bool b => cases b <;> cases hkind
    | _ => cases hkind
  case arr =>
    intro xs ih y r s _ _ h
    have hkind := kind_of_text hpy h
    cases y with
    | arr ys =>
      obtain ⟨hall, hrs⟩ := readsBack_members ih (Or.inl rfl) (jsonDumps_ne_close hpy _ (Or.inl rfl))
        ys r s trivial trivial (by
          have := (List.cons.inj h).2
          rwa [jsonDumpsItems_eq, jsonDumpsItems_eq] at this)
      exact ⟨Json.alikeItems_iff.2 hall, hrs⟩
    | bool b => cases b <;> cases hkind
    | _ => cases hkind
  case obj =>
    intro fields ih y r s _ _ h
    have hkind := kind_of_text hpy h
    have hmember : ∀ p ∈ fields, ReadsBack (dumpedMember py)
        (fun p q => p.1 = q.1 ∧ p.2.alike q.2 = true) BehindValue p := by
      intro p hp q r s hr hs h
      rw [dumpedMember, dumpedMember, List.append_assoc, List.append_assoc] at h
      obtain ⟨hkey, hrest⟩ := readsBack_dumpedText p.1 q.1 _ _ trivial trivial h
      obtain ⟨hvalue, hrs⟩ := ih p hp q.2 r s hr hs (List.cons.inj hrest).2
      exact ⟨⟨hkey, hvalue⟩, hrs⟩
    cases y with
    | obj others =>
      obtain ⟨hall, hrs⟩ := readsBack_members hmember (Or.inr rfl)
        (fun q => ⟨'"', _, rfl, by decide⟩) others r s trivial trivial (by
          have := (List.cons.inj h).2
          rwa [jsonDumpsFields_eq, jsonDumpsFields_eq] at this)
      exact ⟨Json.alikeFields_iff.2 hall, hrs⟩
    | bool b => cases b <;> cases hkind
    | _ => cases hkind
  case nil => exact fun x hx => absurd hx List.not_mem_nil
  case cons => exact fun x xs hx hxs => List.forall_mem_cons.2 ⟨hx, hxs⟩
  case fnil => exact fun p hp => absurd hp List.not_mem_nil
  case fcons => exact fun p fields hp hfields => List.forall_mem_cons.2 ⟨hp, hfields⟩
  case member => exact fun key value h => h

/-- Values that are alike have one text. -/
theorem jsonDumps_of_alike : ∀ x y : Json, x.alike y = true → jsonDumps py x = jsonDumps py y := by
  refine @Json.rec
    (fun x => ∀ y, x.alike y = true → jsonDumps py x = jsonDumps py y)
    (fun xs => ∀ x ∈ xs, ∀ y, x.alike y = true → jsonDumps py x = jsonDumps py y)
    (fun fields => ∀ p ∈ fields, ∀ y, p.2.alike y = true →
      jsonDumps py p.2 = jsonDumps py y)
    (fun p => ∀ y, p.2.alike y = true → jsonDumps py p.2 = jsonDumps py y)
    ?null ?bool ?int ?float ?str ?arr ?obj ?nil ?cons ?fnil ?fcons ?member
  case null =>
    intro y h
    cases y <;> first | rfl | cases h
  case bool =>
    intro b y h
    cases y <;> simp [Json.alike] at h
    rw [h]
  case int =>
    intro n y h
    cases y <;> simp [Json.alike] at h
    rw [h]
  case float =>
    intro m e y h
    cases y with
    | float n f => exact congrArg String.toList ((hpy.exact m e n f).2 h)
    | _ => cases h
  case str =>
    intro a y h
    cases y <;> simp [Json.alike] at h
    rw [h]
  case arr =>
    intro xs ih y h
    cases y with
    | arr ys =>
      have hall := Json.alikeItems_iff.1 h
      have hmap := map_eq_of_forall₂ hall ih
      rw [jsonDumps, jsonDumps, jsonDumpsItems_eq, jsonDumpsItems_eq, hmap]
    | _ => cases h
  case obj =>
    intro fields ih y h
    cases y with
    | obj others =>
      have hall := Json.alikeFields_iff.1 h
      have hmap : fields.map (dumpedMember py) = others.map (dumpedMember py) := by
        refine map_eq_of_forall₂ hall fun p hp q hpq => ?_
        rw [dumpedMember, dumpedMember, hpq.1, ih p hp q.2 hpq.2]
      rw [jsonDumps, jsonDumps, jsonDumpsFields_eq, jsonDumpsFields_eq, hmap]
    | _ => cases h
  case nil => exact fun x hx => absurd hx List.not_mem_nil
  case cons => exact fun x xs hx hxs => List.forall_mem_cons.2 ⟨hx, hxs⟩
  case fnil => exact fun p hp => absurd hp List.not_mem_nil
  case fcons => exact fun p fields hp hfields => List.forall_mem_cons.2 ⟨hp, hfields⟩
  case member => exact fun key value h => h

/-- **The canonical text tells the JSON.** -/
theorem jsonDumps_sorted_iff {x y : Json} :
    jsonDumps py x.sorted = jsonDumps py y.sorted ↔ x.Same y := by
  constructor
  · intro h
    have hends : BehindValue [] := nofun
    exact (readsBack_jsonDumps hpy x.sorted y.sorted [] [] hends hends (by rw [h])).1
  · intro h
    exact jsonDumps_of_alike hpy x.sorted y.sorted h

end

/-! ## An exact printer -/

/-- The number `mantissa * 2 ^ exponent`. -/
def floatValue (mantissa exponent : Int) : ℚ := mantissa * 2 ^ exponent

theorem sameNumber_iff {m e n f : Int} :
    Json.sameNumber (m, e) (n, f) = true ↔ floatValue m e = floatValue n f := by
  have hscale : ∀ low k x : Int, low ≤ k →
      floatValue x k = ((x * 2 ^ (k - low).toNat : Int) : ℚ) * 2 ^ low := by
    intro low k x hle
    have hpow : (2 : ℚ) ^ k = 2 ^ (k - low).toNat * 2 ^ low := by
      rw [← zpow_natCast, Int.toNat_of_nonneg (by omega), ← zpow_add₀ (by norm_num)]
      congr 1
      omega
    rw [floatValue, hpow]
    push_cast
    ring
  have hlow : (2 : ℚ) ^ min e f ≠ 0 := zpow_ne_zero _ (by norm_num)
  rw [hscale (min e f) e m (min_le_left e f), hscale (min e f) f n (min_le_right e f),
    mul_left_inj' hlow, Int.cast_inj]
  exact decide_eq_true_iff

/-- A printer that gives a float as a fraction. -/
def exactRepr : Builtins where
  repr
    | .float mantissa exponent =>
      toString (floatValue mantissa exponent).num ++ "." ++
        toString (floatValue mantissa exponent).den
    | _ => ""
  parseInt _ := .error (.valueError "invalid literal for int()")

theorem floatRepr_exactRepr : FloatRepr exactRepr where
  letters m e c hc := by
    simp only [exactRepr, String.toList_append, List.mem_append] at hc
    rcases hc with (hc | hc) | hc
    · exact numberLetter_int hc
    · have hdot : c = '.' := by simpa using hc
      rw [hdot]
      rfl
    · exact numberLetter_int (n := (floatValue m e).den) hc
  marked m e := by
    refine ⟨'.', ?_, Or.inl rfl⟩
    simp [exactRepr, String.toList_append]
  exact m e n f := by
    rw [sameNumber_iff]
    constructor
    · intro h
      have hlist := congrArg String.toList h
      simp only [exactRepr, String.toList_append, List.append_assoc] at hlist
      have hdot : ∀ n : Int, '.' ∉ (toString n).toList := by
        intro n hmem
        rcases mem_toList_int hmem with h | h <;> exact absurd h (by decide)
      obtain ⟨hnum, hden⟩ := word_inj (hdot _) (hdot _) hlist
      exact Rat.ext (toList_int_inj hnum) (digits_inj hden)
    · intro h
      simp only [exactRepr, h]

end Purra
