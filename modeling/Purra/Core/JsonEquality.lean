import Mathlib.Data.List.Forall2
import Purra.Core.JsonValues

/-!
# Equality of JSON values

When two values are equal as JSON: numbers by their value, whatever their type, and objects
whatever the order of their members.  Unlike Python's `==`, a boolean is not a number.

* `Json.equal` — the equality.
* `Json.Everywhere` — what holds of a value and of all values inside it.
* `JsonValue` — a value as Python can hold it: its floats are binary64 numbers, and no object has
  two members of one name.
-/

namespace Purra

namespace Json

/-! ## Equality -/

mutual

/-- Equal as JSON. -/
def equal : Json → Json → Bool
  | .null, .null => true
  | .bool a, .bool b => a = b
  | .int m, .int n => sameNumber (m, 0) (n, 0)
  | .int m, .float n f => sameNumber (m, 0) (n, f)
  | .float m e, .int n => sameNumber (m, e) (n, 0)
  | .float m e, .float n f => sameNumber (m, e) (n, f)
  | .str a, .str b => a = b
  | .arr xs, .arr ys => equalItems xs ys
  | .obj xs, .obj ys => xs.length = ys.length && equalFields xs ys
  | _, _ => false

/-- Equal item by item. -/
def equalItems : List Json → List Json → Bool
  | [], [] => true
  | x :: xs, y :: ys => equal x y && equalItems xs ys
  | _, _ => false

/-- Every member of the first object is in the second with an equal value. -/
def equalFields : List (String × Json) → List (String × Json) → Bool
  | [], _ => true
  | (k, v) :: xs, ys => (match field? ys k with
    | some w => equal v w
    | none => false) && equalFields xs ys

end

theorem equalItems_iff {xs ys : List Json} :
    equalItems xs ys = true ↔ List.Forall₂ (fun x y => equal x y = true) xs ys := by
  induction xs generalizing ys with
  | nil => cases ys <;> simp [equalItems]
  | cons x xs ih => cases ys <;> simp [equalItems, ih]

theorem equalFields_iff {xs ys : List (String × Json)} :
    equalFields xs ys = true ↔
      ∀ p ∈ xs, ∃ w, field? ys p.1 = some w ∧ equal p.2 w = true := by
  induction xs with
  | nil => simp [equalFields]
  | cons p xs ih =>
    obtain ⟨k, v⟩ := p
    rw [equalFields, Bool.and_eq_true, ih, List.forall_mem_cons]
    cases field? ys k <;> simp

theorem equal_arr {xs ys : List Json} :
    equal (.arr xs) (.arr ys) = true ↔ List.Forall₂ (fun x y => equal x y = true) xs ys := by
  rw [equal, equalItems_iff]

theorem equal_obj {xs ys : List (String × Json)} :
    equal (.obj xs) (.obj ys) = true ↔
      xs.length = ys.length ∧ ∀ p ∈ xs, ∃ w, field? ys p.1 = some w ∧ equal p.2 w = true := by
  rw [equal, Bool.and_eq_true, equalFields_iff, decide_eq_true_iff]

/-! ## Fields -/

theorem mem_of_field? {o : Object} {key : String} {v : Json} (h : field? o key = some v) :
    (key, v) ∈ o := by
  obtain ⟨⟨key', v'⟩, hfind, rfl⟩ := Option.map_eq_some_iff.1 h
  have hkey : key' = key := by simpa using List.find?_some hfind
  exact hkey ▸ List.mem_of_find?_eq_some hfind

/-- A member of an object without two of one name is the one that is found. -/
theorem field?_of_mem {o : Object} {key : String} {v : Json} (hnodup : (o.map Prod.fst).Nodup)
    (h : (key, v) ∈ o) : field? o key = some v := by
  induction o with
  | nil => cases h
  | cons p o ih =>
    rw [List.map_cons, List.nodup_cons] at hnodup
    rcases List.mem_cons.1 h with rfl | h
    · simp [field?]
    · have hne : p.1 ≠ key := by
        rintro rfl
        exact hnodup.1 (List.mem_map.2 ⟨_, h, rfl⟩)
      have hrest := ih hnodup.2 h
      unfold field? at hrest ⊢
      rw [List.find?_cons_of_neg (by simpa using hne)]
      exact hrest

theorem field?_isSome_iff {o : Object} {key : String} :
    (∃ v, field? o key = some v) ↔ key ∈ o.map Prod.fst := by
  constructor
  · rintro ⟨v, h⟩
    exact List.mem_map.2 ⟨_, mem_of_field? h, rfl⟩
  · intro h
    obtain ⟨p, hp, rfl⟩ := List.mem_map.1 h
    cases hfield : field? o p.1 with
    | some v => exact ⟨v, rfl⟩
    | none =>
      rw [field?, Option.map_eq_none_iff, List.find?_eq_none] at hfield
      have hne := hfield p hp
      simp at hne

/-! ## Everywhere in a value -/

mutual

/-- What holds of a value and of every value inside it. -/
def Everywhere (P : Json → Prop) : Json → Prop
  | .null => P .null
  | .bool b => P (.bool b)
  | .int n => P (.int n)
  | .float m e => P (.float m e)
  | .str s => P (.str s)
  | .arr items => P (.arr items) ∧ EverywhereItems P items
  | .obj fields => P (.obj fields) ∧ EverywhereFields P fields

/-- `Everywhere`, in every item. -/
def EverywhereItems (P : Json → Prop) : List Json → Prop
  | [] => True
  | item :: items => Everywhere P item ∧ EverywhereItems P items

/-- `Everywhere`, in every member. -/
def EverywhereFields (P : Json → Prop) : List (String × Json) → Prop
  | [] => True
  | p :: fields => Everywhere P p.2 ∧ EverywhereFields P fields

end

variable {P Q : Json → Prop}

theorem everywhereItems_iff {items : List Json} :
    EverywhereItems P items ↔ ∀ x ∈ items, Everywhere P x := by
  induction items with
  | nil => simp [EverywhereItems]
  | cons item items ih => simp [EverywhereItems, ih]

theorem everywhereFields_iff {fields : List (String × Json)} :
    EverywhereFields P fields ↔ ∀ p ∈ fields, Everywhere P p.2 := by
  induction fields with
  | nil => simp [EverywhereFields]
  | cons p fields ih => simp [EverywhereFields, ih]

theorem everywhere_arr {items : List Json} :
    Everywhere P (.arr items) ↔ P (.arr items) ∧ ∀ x ∈ items, Everywhere P x := by
  rw [Everywhere, everywhereItems_iff]

theorem everywhere_obj {fields : List (String × Json)} :
    Everywhere P (.obj fields) ↔ P (.obj fields) ∧ ∀ p ∈ fields, Everywhere P p.2 := by
  rw [Everywhere, everywhereFields_iff]

/-- Induction over a value, with what holds of the items and of the members. -/
theorem inductionOn {motive : Json → Prop} (x : Json) (null : motive .null)
    (bool : ∀ b, motive (.bool b)) (int : ∀ n, motive (.int n))
    (float : ∀ m e, motive (.float m e)) (str : ∀ s, motive (.str s))
    (arr : ∀ items, (∀ x ∈ items, motive x) → motive (.arr items))
    (obj : ∀ fields, (∀ p ∈ fields, motive p.2) → motive (.obj fields)) : motive x := by
  refine @Json.rec motive (fun items => ∀ x ∈ items, motive x)
    (fun fields => ∀ p ∈ fields, motive p.2) (fun p => motive p.2) null bool int float str arr obj
    ?_ ?_ ?_ ?_ ?_ x
  · exact fun x hx => absurd hx List.not_mem_nil
  · exact fun x xs hx hxs => List.forall_mem_cons.2 ⟨hx, hxs⟩
  · exact fun p hp => absurd hp List.not_mem_nil
  · exact fun p fields hp hfields => List.forall_mem_cons.2 ⟨hp, hfields⟩
  · exact fun key value h => h

/-! ## Values that Python can hold -/

/-- `mantissa * 2 ^ exponent` is a binary64 number. -/
def IsBinary64 (mantissa exponent : Int) : Prop :=
  mantissa.natAbs < 2 ^ 53 ∧ -1074 ≤ exponent ∧ exponent ≤ 971

instance (mantissa exponent : Int) : Decidable (IsBinary64 mantissa exponent) :=
  inferInstanceAs (Decidable (_ ∧ _))

/-- A float is a binary64 number; the keys of a `dict` differ. -/
def Held : Json → Prop
  | .float m e => IsBinary64 m e
  | .obj fields => (fields.map Prod.fst).Nodup
  | _ => True

instance (x : Json) : Decidable (Held x) := by
  cases x <;> unfold Held <;> infer_instance

mutual

/-- Whether a value that can be decided holds everywhere. -/
def decideEverywhere [DecidablePred P] : (x : Json) → Decidable (Everywhere P x)
  | .null => inferInstanceAs (Decidable (P .null))
  | .bool b => inferInstanceAs (Decidable (P (.bool b)))
  | .int n => inferInstanceAs (Decidable (P (.int n)))
  | .float m e => inferInstanceAs (Decidable (P (.float m e)))
  | .str s => inferInstanceAs (Decidable (P (.str s)))
  | .arr items => @instDecidableAnd _ _ (inferInstance : Decidable (P (.arr items)))
      (decideEverywhereItems items)
  | .obj fields => @instDecidableAnd _ _ (inferInstance : Decidable (P (.obj fields)))
      (decideEverywhereFields fields)

/-- `decideEverywhere`, for items. -/
def decideEverywhereItems [DecidablePred P] :
    (items : List Json) → Decidable (EverywhereItems P items)
  | [] => .isTrue trivial
  | item :: items => @instDecidableAnd _ _ (decideEverywhere item) (decideEverywhereItems items)

/-- `decideEverywhere`, for members. -/
def decideEverywhereFields [DecidablePred P] :
    (fields : List (String × Json)) → Decidable (EverywhereFields P fields)
  | [] => .isTrue trivial
  | p :: fields => @instDecidableAnd _ _ (decideEverywhere p.2) (decideEverywhereFields fields)

end

instance [DecidablePred P] (x : Json) : Decidable (Everywhere P x) := decideEverywhere x

end Json

/-- A JSON value as Python can hold it. -/
structure JsonValue where
  json : Json
  held : json.Everywhere Json.Held

end Purra
