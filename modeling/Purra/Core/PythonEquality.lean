import Purra.Core.JsonEquality
import Purra.Core.Reading

/-!
# Python's equality of JSON values

How `==` differs from the equality of JSON values: to Python the booleans are the numbers 0 and 1.

* `Json.numeric` — a value with its booleans read as numbers.
* `Json.pyEq_eq_equal_numeric` — **`==` is the equality of the values so read**.
* `Json.pyEq_of_equal` — values that are equal as JSON are equal to Python.
* `Json.Texts` — the objects on which the two agree with every other value.
-/

namespace Purra.Json

mutual

/-- Booleans as numbers. -/
def numeric : Json → Json
  | .null => .null
  | .bool b => .int (if b then 1 else 0)
  | .int n => .int n
  | .float m e => .float m e
  | .str s => .str s
  | .arr items => .arr (numericItems items)
  | .obj fields => .obj (numericFields fields)

/-- Item by item. -/
def numericItems : List Json → List Json
  | [] => []
  | item :: items => numeric item :: numericItems items

/-- Member by member. -/
def numericFields : List (String × Json) → List (String × Json)
  | [] => []
  | (key, value) :: fields => (key, numeric value) :: numericFields fields

end

theorem numericFields_eq_map (fields : List (String × Json)) :
    numericFields fields = fields.map fun p => (p.1, numeric p.2) := by
  induction fields with
  | nil => rfl
  | cons p fields ih => rw [numericFields, ih, List.map_cons]

theorem field?_numericFields (fields : List (String × Json)) (key : String) :
    field? (numericFields fields) key = (field? fields key).map numeric := by
  induction fields with
  | nil => rfl
  | cons p fields ih =>
    obtain ⟨key', value⟩ := p
    rw [numericFields]
    by_cases hkey : key' = key
    · subst hkey
      rw [field?_cons_self, field?_cons_self]
      rfl
    · rw [field?_cons_of_ne hkey, field?_cons_of_ne hkey, ih]

/-- **Python's `==`** is the equality of JSON values whose booleans are numbers. -/
theorem pyEq_eq_equal_numeric (a b : Json) : pyEq a b = equal (numeric a) (numeric b) := by
  induction a using Json.inductionOn generalizing b with
  | null => cases b <;> rfl
  | bool a => cases b <;> rfl
  | int m => cases b <;> rfl
  | float m e => cases b <;> rfl
  | str s => cases b <;> rfl
  | arr items ih =>
    cases b with
    | arr items' =>
      show pyEqItems items items' = equalItems (numericItems items) (numericItems items')
      induction items generalizing items' with
      | nil => cases items' <;> rfl
      | cons item items ihs =>
        cases items' with
        | nil => rfl
        | cons item' items' =>
          rw [pyEqItems, numericItems, numericItems, equalItems, ih item (List.mem_cons_self ..),
            ihs (fun x hx => ih x (List.mem_cons_of_mem _ hx))]
    | _ => rfl
  | obj fields ih =>
    cases b with
    | obj fields' =>
      have hfields : pyEqFields fields fields' =
          equalFields (numericFields fields) (numericFields fields') := by
        induction fields with
        | nil => rfl
        | cons p fields ihs =>
          obtain ⟨key, value⟩ := p
          rw [pyEqFields, numericFields, equalFields, field?_numericFields,
            ihs fun q hq => ih q (List.mem_cons_of_mem _ hq)]
          cases field? fields' key with
          | none => rfl
          | some value' =>
            exact congrArg (· && _) (ih (key, value) (List.mem_cons_self ..) value')
      show (decide (fields.length = fields'.length) && pyEqFields fields fields') =
        (decide ((numericFields fields).length = (numericFields fields').length) &&
          equalFields (numericFields fields) (numericFields fields'))
      rw [hfields, numericFields_eq_map, numericFields_eq_map, List.length_map, List.length_map]
    | _ => rfl

/-- Values that are equal as JSON are equal to Python. -/
theorem pyEq_of_equal {a b : Json} (h : equal a b = true) : pyEq a b = true := by
  induction a using Json.inductionOn generalizing b with
  | null => cases b <;> exact h
  | bool a =>
    cases b with
    | bool b =>
      obtain rfl : a = b := of_decide_eq_true h
      cases a <;> rfl
    | _ => cases h
  | int m => cases b <;> first | exact h | cases h
  | float m e => cases b <;> first | exact h | cases h
  | str s => cases b <;> exact h
  | arr items ih =>
    cases b with
    | arr items' =>
      have hitems := equal_arr.1 h
      show pyEqItems items items' = true
      clear h
      induction hitems with
      | nil => rfl
      | @cons item item' items items' hitem hitems ihs =>
        rw [pyEqItems, ih item (List.mem_cons_self ..) hitem,
          ihs fun x hx => ih x (List.mem_cons_of_mem _ hx)]
        rfl
    | _ => cases h
  | obj fields ih =>
    cases b with
    | obj fields' =>
      obtain ⟨hlength, hmembers⟩ := equal_obj.1 h
      have hfields : pyEqFields fields fields' = true := by
        clear h hlength
        induction fields with
        | nil => rfl
        | cons p fields ihs =>
          obtain ⟨key, value⟩ := p
          obtain ⟨value', hfield, hvalue⟩ := hmembers (key, value) (List.mem_cons_self ..)
          rw [pyEqFields, hfield, ihs (fun q hq => ih q (List.mem_cons_of_mem _ hq))
            fun q hq => hmembers q (List.mem_cons_of_mem _ hq), Bool.and_true]
          exact ih (key, value) (List.mem_cons_self ..) hvalue
      show (decide (fields.length = fields'.length) && pyEqFields fields fields') = true
      rw [hfields, Bool.and_true]
      exact decide_eq_true hlength
    | _ => cases h

/-- The values of an object are texts. -/
def Texts (fields : Object) : Prop := ∀ p ∈ fields, ∃ s, p.2 = .str s

/-- To a text, every value is the same to Python as to JSON. -/
theorem pyEq_str_eq (s : String) (b : Json) : pyEq (.str s) b = equal (.str s) b := by
  cases b <;> rfl

/-- An object of texts is equal to the same values in Python as in JSON. -/
theorem Texts.pyEq_eq {fields : Object} (h : Texts fields) (b : Json) :
    pyEq (.obj fields) b = equal (.obj fields) b := by
  cases b with
  | obj fields' =>
    have hfields : pyEqFields fields fields' = equalFields fields fields' := by
      induction fields with
      | nil => rfl
      | cons p fields ih =>
        obtain ⟨key, value⟩ := p
        obtain ⟨s, rfl⟩ := h _ (List.mem_cons_self ..)
        rw [pyEqFields, equalFields, ih fun q hq => h q (List.mem_cons_of_mem _ hq)]
        cases field? fields' key with
        | none => rfl
        | some value' => exact congrArg (· && _) (pyEq_str_eq s value')
    show (decide _ && pyEqFields fields fields') = (decide _ && equalFields fields fields')
    rw [hfields]
  | _ => rfl

end Purra.Json
