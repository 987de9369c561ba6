import Mathlib.Algebra.Group.Int.Defs
import Mathlib.Algebra.GroupWithZero.Nat
import Mathlib.Data.List.TakeDrop

/-!
# JSON values

The JSON data the contracts freeze and thaw (`purra/json_values.py`).  Freezing
and thawing change the container types only, so one type stands for both forms.

Numbers keep Python's two types: an integer, or a finite binary float given by
its exact value `mantissa * 2 ^ exponent`.  `pyEq` is Python's `==` on such
values: numbers (and the two booleans, which are integers there) compare by
value, objects without regard to key order.
-/

namespace Purra

/-- A JSON value. -/
inductive Json where
  | null
  | bool (b : Bool)
  | int (n : Int)
  | float (mantissa exponent : Int)
  | str (s : String)
  | arr (items : List Json)
  | obj (fields : List (String × Json))
  deriving Repr

namespace Json

/-- A JSON object's fields, in insertion order. -/
abbrev Object := List (String × Json)

/-- The value of a field. -/
def field? (o : Object) (key : String) : Option Json := (o.find? (·.1 = key)).map Prod.snd

/-- Set a field: in place when the key is present, at the end when it is new. -/
def setField (key : String) (v : Json) : Object → Object
  | [] => [(key, v)]
  | p :: o => if p.1 = key then (key, v) :: o else p :: setField key v o

/-- `{**a, **b}`. -/
def merge (a b : Object) : Object := b.foldl (fun o p => setField p.1 p.2 o) a

/-- The number a value counts as in a comparison: mantissa and binary exponent. -/
def asNumber : Json → Option (Int × Int)
  | .bool b => some (if b then 1 else 0, 0)
  | .int n => some (n, 0)
  | .float m e => some (m, e)
  | _ => none

/-- `m * 2 ^ e = n * 2 ^ f`, compared over the smaller of the two exponents. -/
def sameNumber (x y : Int × Int) : Bool :=
  let low := min x.2 y.2
  x.1 * 2 ^ (x.2 - low).toNat = y.1 * 2 ^ (y.2 - low).toNat

mutual

/-- Python's `==` on JSON values. -/
def pyEq : Json → Json → Bool
  | .null, .null => true
  | .str a, .str b => a = b
  | .arr xs, .arr ys => pyEqItems xs ys
  | .obj xs, .obj ys => xs.length = ys.length && pyEqFields xs ys
  | .bool a, y => match asNumber y with
    | some n => sameNumber (if a then 1 else 0, 0) n
    | none => false
  | .int a, y => match asNumber y with
    | some n => sameNumber (a, 0) n
    | none => false
  | .float m e, y => match asNumber y with
    | some n => sameNumber (m, e) n
    | none => false
  | _, _ => false

/-- `==` on sequences. -/
def pyEqItems : List Json → List Json → Bool
  | [], [] => true
  | x :: xs, y :: ys => pyEq x y && pyEqItems xs ys
  | _, _ => false

/-- Every field of the first object is in the second with an equal value. -/
def pyEqFields : List (String × Json) → List (String × Json) → Bool
  | [], _ => true
  | (k, v) :: xs, ys => (match field? ys k with
    | some w => pyEq v w
    | none => false) && pyEqFields xs ys

end

/-- `==` on mappings. -/
def objectEq (a b : Object) : Bool := a.length = b.length && pyEqFields a b

theorem pyEq_str (s : String) : pyEq (.str s) (.str s) = true := by simp [pyEq]

theorem pyEq_int (n : Int) : pyEq (.int n) (.int n) = true := by
  simp [pyEq, asNumber, sameNumber]

theorem pyEq_int_of_ne {m n : Int} (h : m ≠ n) : pyEq (.int m) (.int n) = false := by
  simpa [pyEq, asNumber, sameNumber] using h

/-- Python truth of a field read with `.get`: absent and JSON `null` are false, and so are zero,
`False` and every empty container. -/
def truthy : Json → Bool
  | .null => false
  | .bool b => b
  | .int n => n ≠ 0
  | .float m _ => m ≠ 0
  | .str s => s ≠ ""
  | .arr items => items ≠ []
  | .obj fields => fields ≠ []

end Json

end Purra
