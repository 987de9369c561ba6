import Purra.Core.JsonValues

/-!
# Python strings

A Python string is a sequence of code points, and lone surrogates are among them: a
Provider may send them, `json.loads` may make them of an escape, and only encoding them
fails.

* `CodePoint`, `PyStr` — strings as Python has them.
* `PyJson` — what `json.loads` returns: strings are Python's, and a number may have
  overflowed to an infinity.
* `PyJson.freezable` — what `freeze_json_mapping` accepts of it.
-/

namespace Purra

/-- A code point of a Python string. -/
inductive CodePoint where
  | scalar (c : Char)
  /-- `0xD800 + n`. -/
  | surrogate (n : Fin 2048)
  deriving DecidableEq, Repr

/-- `str`. -/
abbrev PyStr : Type := List CodePoint

instance : LawfulBEq PyStr := inferInstance

namespace PyStr

/-- A string without surrogates. -/
def ofChars (chars : List Char) : PyStr := chars.map .scalar

/-- The characters of a string, if it can be encoded. -/
def chars? : PyStr → Option (List Char)
  | [] => some []
  | .scalar c :: rest => (chars? rest).map (c :: ·)
  | .surrogate _ :: _ => none

@[simp] theorem chars?_ofChars (chars : List Char) : chars? (ofChars chars) = some chars := by
  induction chars with
  | nil => rfl
  | cons c rest ih => simpa [ofChars, chars?] using ih

theorem eq_ofChars {text : PyStr} {chars : List Char} (h : chars? text = some chars) :
    text = ofChars chars := by
  induction text generalizing chars with
  | nil =>
    cases h
    rfl
  | cons c rest ih =>
    cases c with
    | surrogate n => cases h
    | scalar c =>
      obtain ⟨others, hothers, rfl⟩ := Option.map_eq_some_iff.1 h
      rw [ih hothers]
      rfl

/-- A concatenation can be encoded if both parts can. -/
theorem chars?_append (a b : PyStr) :
    chars? (a ++ b) = (chars? a).bind fun front => (chars? b).map (front ++ ·) := by
  induction a with
  | nil => cases hb : chars? b <;> simp [chars?, hb]
  | cons c rest ih =>
    cases c with
    | surrogate n => rfl
    | scalar c =>
      rw [List.cons_append, chars?, ih, chars?]
      cases chars? rest with
      | none => rfl
      | some front => cases chars? b <;> rfl

end PyStr

/-- A `float` that `json.loads` returns. -/
inductive PyFloat where
  /-- `mantissa * 2 ^ exponent`. -/
  | finite (mantissa exponent : Int)
  | infinite (negative : Bool)
  deriving DecidableEq, Repr

/-- A value that `json.loads` returns; the members of an object are those of a `dict`. -/
inductive PyJson where
  | null
  | bool (b : Bool)
  | int (n : Int)
  | float (value : PyFloat)
  | str (s : PyStr)
  | arr (items : List PyJson)
  | obj (fields : List (PyStr × PyJson))
  deriving Repr

namespace PyJson

/-- A JSON object's members. -/
abbrev Object := List (PyStr × PyJson)

/-- `row.get(key)`, for a key that is a literal of the source. -/
def get (o : Object) (key : String) : Option PyJson :=
  (o.find? (·.1 = PyStr.ofChars key.toList)).map Prod.snd

/-- `set(row) == keys`. -/
def hasKeys (o : Object) (keys : List String) : Bool :=
  o.all (fun p => keys.any fun key => p.1 = PyStr.ofChars key.toList) &&
    keys.all fun key => o.any fun p => p.1 = PyStr.ofChars key.toList

/-- `value == text`. -/
def isText (value : Option PyJson) (text : String) : Bool :=
  match value with
  | some (.str s) => s = PyStr.ofChars text.toList
  | _ => false

/-- `type(value) in (int, float) and value == 1`. -/
def isOne (value : Option PyJson) : Bool :=
  match value with
  | some (.int n) => n = 1
  | some (.float (.finite m e)) => Json.sameNumber (m, e) (1, 0)
  | _ => false

mutual

/-- `freeze_json_value` accepts the value: it has no number that is not finite. -/
def freezable : PyJson → Bool
  | .float (.infinite _) => false
  | .arr items => freezableItems items
  | .obj fields => freezableFields fields
  | _ => true

/-- `freezable`, of every item. -/
def freezableItems : List PyJson → Bool
  | [] => true
  | item :: rest => freezable item && freezableItems rest

/-- `freezable`, of every member. -/
def freezableFields : List (PyStr × PyJson) → Bool
  | [] => true
  | p :: rest => freezable p.2 && freezableFields rest

end

end PyJson

end Purra
