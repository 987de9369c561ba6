import Purra.Core.JsonValues
import Purra.Core.Text

/-!
# Reading a mapping

The decoders of the durable contracts read plain mappings field by field:
`value.get(key)`, `value.get(key) or default`, and then one of the constructors `str`,
`int` and `bool`.  This file gives these readings on JSON values.

`Builtins` stands for the two parts of Python's constructors that no decoder relies on:
how a number that is no integer, or a container, is printed, and which texts `int` takes.
-/

namespace Purra

/-- What `str` and `int` do outside the plain cases. -/
structure Builtins where
  /-- `str` of a float or of a container. -/
  repr : Json → String
  /-- `int` of a text. -/
  parseInt : String → Except PyError Int

namespace Builtins

variable (py : Builtins)

/-- `str(value)`. -/
def str : Json → String
  | .null => "None"
  | .bool b => if b then "True" else "False"
  | .int n => toString n
  | .str s => s
  | v => py.repr v

/-- The integer part of `mantissa * 2 ^ exponent`. -/
def truncate (mantissa exponent : Int) : Int :=
  if 0 ≤ exponent then mantissa * 2 ^ exponent.toNat else mantissa.tdiv (2 ^ (-exponent).toNat)

/-- `int(value)`. -/
def int : Json → Except PyError Int
  | .bool b => .ok (if b then 1 else 0)
  | .int n => .ok n
  | .float mantissa exponent => .ok (truncate mantissa exponent)
  | .str s => py.parseInt s
  | .null | .arr _ | .obj _ =>
    .error (.typeError "int() argument must be a string, a bytes-like object or a real number")

@[simp] theorem str_str (s : String) : py.str (.str s) = s := rfl

@[simp] theorem int_int (n : Int) : py.int (.int n) = .ok n := rfl

end Builtins

namespace Json

/-- `value.get(key)`. -/
def get (o : Object) (key : String) : Json := (field? o key).getD .null

/-- `value or default`. -/
def orElse (v default : Json) : Json := if truthy v then v else default

@[simp] theorem field?_cons_self (key : String) (v : Json) (o : Object) :
    field? ((key, v) :: o) key = some v := by
  simp [field?]

variable {key : String}

theorem field?_cons_of_ne {key' : String} (h : key' ≠ key) (v : Json) (o : Object) :
    field? ((key', v) :: o) key = field? o key := by
  simp [field?, h]

variable {o : Object}

theorem field?_append_of_mem (h : key ∈ o.map Prod.fst)
    {more : Object} : field? (o ++ more) key = field? o key := by
  obtain ⟨p, hp, hkey⟩ := List.mem_map.1 h
  have hsome : (o.find? (·.1 = key)).isSome := by
    rw [List.find?_isSome]
    exact ⟨p, hp, decide_eq_true hkey⟩
  obtain ⟨q, hq⟩ := Option.isSome_iff_exists.1 hsome
  unfold field?
  rw [List.find?_append, hq]
  rfl

@[simp] theorem orElse_str (s : String) : orElse (.str s) (.str "") = .str s := by
  by_cases h : s = ""
  · simp [orElse, truthy, h]
  · simp [orElse, truthy, h]

@[simp] theorem orElse_int (n : Int) : orElse (.int n) (.int 0) = .int n := by
  by_cases h : n = 0
  · simp [orElse, truthy, h]
  · simp [orElse, truthy, h]

@[simp] theorem orElse_arr (items : List Json) : orElse (.arr items) (.arr []) = .arr items := by
  cases items with
  | nil => rfl
  | cons item rest => rfl

/-- The objects among the items of a list. -/
def objects (items : List Json) : List Object :=
  items.filterMap fun
    | .obj fields => some fields
    | _ => none

@[simp] theorem objects_map_obj {α : Type} (f : α → Object) (l : List α) :
    objects (l.map fun a => .obj (f a)) = l.map f := by
  induction l with
  | nil => rfl
  | cons a l ih => simp [objects]

/-- The items of a list or a tuple. -/
def items? : Json → Option (List Json)
  | .arr items => some items
  | _ => none

/-- The fields of a mapping. -/
def fields? : Json → Option Object
  | .obj fields => some fields
  | _ => none

/-- A text or `None`. -/
def optionalStr : Option String → Json
  | none => .null
  | some s => .str s

/-- An integer or `None`. -/
def optionalInt : Option Int → Json
  | none => .null
  | some n => .int n

/-- `str(value[key]) if value.get(key) is not None else None`. -/
def toOptionalStr (py : Builtins) : Json → Option String
  | .null => none
  | v => some (py.str v)

@[simp] theorem toOptionalStr_optionalStr (py : Builtins) (s : Option String) :
    toOptionalStr py (optionalStr s) = s := by
  cases s with
  | none => rfl
  | some s => rfl

/-- `{key: value for … if value not in blanks}`. -/
def without (blanks : List Json) (o : Object) : Object :=
  o.filter fun p => !blanks.any (pyEq p.2)

/-- Blanks are values that Python takes for false. -/
def Blank (blanks : List Json) : Prop := ∀ v, blanks.any (pyEq v) = true → truthy v = false

variable {blanks : List Json}

/-- What is left of a field when the blank ones are dropped. -/
theorem get_without (hnd : (o.map Prod.fst).Nodup) (key : String) : get (without blanks o) key =
      if blanks.any (pyEq (get o key)) then .null else get o key := by
  induction o with
  | nil => simp [without, get, field?]
  | cons p o ih =>
    rw [List.map_cons, List.nodup_cons] at hnd
    have ih := ih hnd.2
    obtain ⟨key', v⟩ := p
    by_cases hkey : key' = key
    · subst hkey
      have hself : get ((key', v) :: o) key' = v := by simp [get]
      have habsent : field? (without blanks o) key' = none := by
        unfold field? without
        rw [Option.map_eq_none_iff, List.find?_eq_none]
        intro q hq hqk
        refine hnd.1 (List.mem_map.2 ⟨q, (List.mem_filter.1 hq).1, ?_⟩)
        simpa using hqk
      rw [hself]
      by_cases hblank : blanks.any (pyEq v) = true
      · have hdrop : without blanks ((key', v) :: o) = without blanks o :=
          List.filter_cons_of_neg (by simp [hblank])
        rw [hdrop, if_pos hblank, get, habsent]
        rfl
      · have hkeep : without blanks ((key', v) :: o) = (key', v) :: without blanks o :=
          List.filter_cons_of_pos (by simp [hblank])
        rw [hkeep, if_neg hblank]
        simp [get]
    · have hother : get ((key', v) :: o) key = get o key := by
        unfold get
        rw [field?_cons_of_ne hkey]
      rw [hother, ← ih]
      by_cases hblank : blanks.any (pyEq v) = true
      · have hdrop : without blanks ((key', v) :: o) = without blanks o :=
          List.filter_cons_of_neg (by simp [hblank])
        rw [hdrop]
      · have hkeep : without blanks ((key', v) :: o) = (key', v) :: without blanks o :=
          List.filter_cons_of_pos (by simp [hblank])
        rw [hkeep]
        unfold get
        rw [field?_cons_of_ne hkey]

/-- A field read with a default does not show whether it was dropped as blank. -/
theorem orElse_get_without (hblank : Blank blanks)
    (hnd : (o.map Prod.fst).Nodup) (key : String) (default : Json) :
    orElse (get (without blanks o) key) default = orElse (get o key) default := by
  rw [get_without hnd]
  split
  · rename_i h
    have hfalse : truthy (get o key) = false := hblank _ h
    have hnull : truthy .null = false := rfl
    unfold orElse
    simp only [hfalse, hnull, Bool.false_eq_true, if_false]
  · rfl

theorem truthy_get_without (hblank : Blank blanks) (hnd : (o.map Prod.fst).Nodup) (key : String) :
    truthy (get (without blanks o) key) = truthy (get o key) := by
  rw [get_without hnd]
  split
  · rename_i h
    rw [hblank _ h]
    rfl
  · rfl

theorem get_without_of_truthy (hblank : Blank blanks)
    (hnd : (o.map Prod.fst).Nodup) (h : truthy (get o key) = true) :
    get (without blanks o) key = get o key := by
  rw [get_without hnd, if_neg]
  intro hany
  rw [hblank _ hany] at h
  cases h

theorem get_without_null (hnd : (o.map Prod.fst).Nodup)
    (h : get o key = .null) : get (without blanks o) key = .null := by
  rw [get_without hnd, h]
  split
  · rfl
  · rfl

end Json

end Purra
