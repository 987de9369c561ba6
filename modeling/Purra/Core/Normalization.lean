import Purra.Lib.Dict

/-!
# Errors and value normalisers

The exceptions the stores raise (`purra/errors.py` and Python's own) and the
small normalisers every contract runs its fields through
(`purra/normalization.py`, `purra/adapters/_store_kit.py`).

A field typed `str` is stripped of surrounding whitespace before anything else
looks at it, so `strip` follows `str.strip`: it removes the characters Python
counts as whitespace, which are more than the ASCII ones.
-/

namespace Purra

/-- The exceptions the modelled code raises. -/
inductive PyError where
  /-- `ValueError`. -/
  | valueError (message : String)
  /-- `TypeError`. -/
  | typeError (message : String)
  /-- `LookupError`. -/
  | lookupError (message : String)
  /-- `RuntimeError`. -/
  | runtimeError (message : String)
  /-- `AttributeError`, from reading a method off a value of the wrong type. -/
  | attributeError (message : String)
  /-- `KeyError`. -/
  | keyError (key : String)
  /-- `sqlite3.IntegrityError`, from a row that breaks a uniqueness constraint. -/
  | integrityError (message : String)
  /-- `ContractViolationError` of `purra/errors.py`: a stable code and diagnostic details. -/
  | contractViolation (message code : String) (details : List (String × String))
  /-- `OverflowError`. -/
  | overflowError (message : String)
  /-- `ContextOverflowError`: a stable reason, the quantities that do not fit, and other details. -/
  | contextOverflow (message reasonCode : String) (details : List (String × Int))
    (texts : List (String × String) := [])
  /-- `UnsupportedModelFeatureError`. -/
  | unsupportedModelFeature (message code : String) (retryable : Bool)
  deriving DecidableEq, Repr

variable {α β ε : Type} {f : α → Except ε β}

/-- A checked computation that returned went through each of its checks. -/
theorem bind_eq_ok {x : Except ε α} {b : β}
    (h : (x >>= f) = .ok b) : ∃ a, x = .ok a ∧ f a = .ok b := by
  cases x with
  | error e => cases h
  | ok a => exact ⟨a, rfl, h⟩

theorem map_eq_ok {f : α → β} {x : Except ε α} {b : β}
    (h : x.map f = .ok b) : ∃ a, x = .ok a ∧ f a = b := by
  cases x with
  | error e => cases h
  | ok a =>
    cases h
    exact ⟨a, rfl, rfl⟩

/-- A checked traversal that returned checked every element. -/
theorem mapM_eq_ok :
    ∀ {l : List α} {l' : List β}, l.mapM f = .ok l' → List.Forall₂ (fun a b => f a = .ok b) l l' := by
  intro l
  induction l with
  | nil =>
    intro l' h
    cases h
    exact .nil
  | cons a l ih =>
    intro l' h
    rw [List.mapM_cons] at h
    obtain ⟨b, hb, h⟩ := bind_eq_ok h
    obtain ⟨rest, hrest, h⟩ := bind_eq_ok h
    cases h
    exact .cons hb (ih hrest)

variable {l : List α}

/-- What a checked traversal returned comes from the elements. -/
theorem mem_of_mapM_eq_ok {l' : List β}
    (h : l.mapM f = .ok l') {b : β} (hb : b ∈ l') : ∃ a ∈ l, f a = .ok b := by
  have hall := mapM_eq_ok h
  clear h
  induction hall with
  | nil => cases hb
  | cons hab _ ih =>
    rcases List.mem_cons.1 hb with rfl | hb
    · exact ⟨_, List.mem_cons_self .., hab⟩
    · obtain ⟨a, ha, hfa⟩ := ih hb
      exact ⟨a, List.mem_cons_of_mem _ ha, hfa⟩

/-- Every element has its part in what a checked traversal returned. -/
theorem exists_mem_of_mapM_eq_ok {l' : List β}
    (h : l.mapM f = .ok l') {a : α} (ha : a ∈ l) : ∃ b ∈ l', f a = .ok b := by
  have hall := mapM_eq_ok h
  clear h
  induction hall with
  | nil => cases ha
  | cons hab _ ih =>
    rcases List.mem_cons.1 ha with rfl | ha
    · exact ⟨_, List.mem_cons_self .., hab⟩
    · obtain ⟨b, hb, hfb⟩ := ih ha
      exact ⟨b, List.mem_cons_of_mem _ hb, hfb⟩

/-- A checked traversal that cannot fail is a map. -/
theorem mapM_eq_map {g : α → β} (h : ∀ a ∈ l, f a = .ok (g a)) : l.mapM f = .ok (l.map g) := by
  induction l with
  | nil => rfl
  | cons a l ih =>
    rw [List.mapM_cons, h a (List.mem_cons_self ..),
      ih fun b hb => h b (List.mem_cons_of_mem a hb)]
    rfl

/-- Reading back every element that was written. -/
theorem mapM_map_eq {encode : α → β} {decode : β → Except ε α}
    (h : ∀ a, decode (encode a) = .ok a) (l : List α) : (l.map encode).mapM decode = .ok l := by
  induction l with
  | nil => rfl
  | cons a l ih =>
    rw [List.map_cons, List.mapM_cons, h, ih]
    rfl

/-- A check that passed goes on with its value. -/
theorem ok_bind (a : α) (f : α → Except ε β) : (Except.ok a >>= f) = f a := rfl

/-- A loop of checks passes every element, or raises what one of them raises. -/
theorem forM_cases (f : α → Except ε Unit) (l : List α) :
    l.forM f = .ok () ∧ (∀ a ∈ l, f a = .ok ()) ∨
      ∃ a ∈ l, ∃ e, f a = .error e ∧ l.forM f = .error e := by
  induction l with
  | nil => exact Or.inl ⟨rfl, fun _ h => absurd h List.not_mem_nil⟩
  | cons a l ih =>
    have hcons : (a :: l).forM f = (f a >>= fun _ => l.forM f) := rfl
    rw [hcons]
    cases ha : f a with
    | error e => exact Or.inr ⟨a, List.mem_cons_self .., e, ha, rfl⟩
    | ok u =>
      rcases ih with ⟨hl, hall⟩ | ⟨b, hb, e, he, hl⟩
      · exact Or.inl ⟨hl, List.forall_mem_cons.2 ⟨ha, hall⟩⟩
      · exact Or.inr ⟨b, List.mem_cons_of_mem a hb, e, he, hl⟩

theorem of_forM_eq_ok {f : α → Except ε Unit} (h : l.forM f = .ok ()) : ∀ a ∈ l, f a = .ok () := by
  rcases forM_cases f l with ⟨-, hall⟩ | ⟨_, _, e, _, he⟩
  · exact hall
  · rw [h] at he
    cases he

/-- `if condition: raise error`. -/
def rejectIf (condition : Prop) [Decidable condition] (error : PyError) : Except PyError Unit :=
  if condition then .error error else .ok ()

theorem rejectIf_eq_ok {condition : Prop} [Decidable condition] {error : PyError} {u : Unit} :
    rejectIf condition error = .ok u ↔ ¬ condition := by
  unfold rejectIf
  split
  · rename_i h
    exact iff_of_false (fun h => by cases h) (not_not.2 h)
  · rename_i h
    exact iff_of_true rfl h

theorem rejectIf_of_not {condition : Prop} {dec : Decidable condition} (h : ¬ condition)
    (error : PyError) : rejectIf condition error = .ok () := if_neg h

/-! ## Text -/

/-- The characters `str.isspace` accepts. -/
def isSpace (c : Char) : Bool :=
  let n := c.toNat
  (9 ≤ n && n ≤ 13) || (28 ≤ n && n ≤ 32) || n = 133 || n = 160 || n = 5760 ||
    (8192 ≤ n && n ≤ 8202) || n = 8232 || n = 8233 || n = 8239 || n = 8287 || n = 12288

/-- `str.strip`. -/
def strip (s : String) : String :=
  String.ofList ((s.toList.dropWhile isSpace).reverse.dropWhile isSpace).reverse

/-- `required_text` and `required_text_field`: the stripped text, which may not be empty. -/
def requiredText (value field : String) : Except PyError String :=
  if strip value = "" then .error (.valueError (field ++ " is required")) else .ok (strip value)

theorem requiredText_of_ne {value : String} (h : strip value ≠ "") (field : String) :
    requiredText value field = .ok (strip value) := if_neg h

theorem requiredText_of_eq {value : String} (h : strip value = "") (field : String) :
    requiredText value field = .error (.valueError (field ++ " is required")) := if_pos h

theorem requiredText_eq_ok {value field text : String} (h : requiredText value field = .ok text) :
    strip value ≠ "" ∧ text = strip value := by
  by_cases hv : strip value = ""
  · rw [requiredText_of_eq hv] at h
    cases h
  · rw [requiredText_of_ne hv] at h
    cases h
    exact ⟨hv, rfl⟩

/-- `optional_text`: the stripped text, `none` when nothing is left of it. -/
def optionalText (value : Option String) : Option String :=
  match value with
  | none => none
  | some text => if strip text = "" then none else some (strip text)

/-! ## Numbers -/

/-- `positive_int`. -/
def positiveInt (value : Int) (field : String) : Except PyError Nat :=
  if value ≤ 0 then .error (.valueError (field ++ " must be positive")) else .ok value.toNat

/-- `non_negative_int`. -/
def nonNegativeInt (value : Int) (field : String) : Except PyError Nat :=
  if value < 0 then .error (.valueError (field ++ " must be non-negative")) else .ok value.toNat

/-- `optional_positive_int`. -/
def optionalPositiveInt (value : Option Int) (field : String) : Except PyError (Option Nat) :=
  match value with
  | none => .ok none
  | some n => (positiveInt n field).map some

/-- `optional_non_negative_int`. -/
def optionalNonNegativeInt (value : Option Int) (field : String) : Except PyError (Option Nat) :=
  match value with
  | none => .ok none
  | some n => (nonNegativeInt n field).map some

theorem positiveInt_eq_ok {value : Int} {field : String} {n : Nat}
    (h : positiveInt value field = .ok n) : 0 < n := by
  unfold positiveInt at h
  split at h
  · cases h
  · cases h
    omega

theorem positiveInt_nat {n : Nat} (h : 0 < n) (field : String) :
    positiveInt (n : Int) field = .ok n := by
  unfold positiveInt
  rw [if_neg (by omega)]
  rfl

@[simp] theorem nonNegativeInt_nat (n : Nat) (field : String) :
    nonNegativeInt (n : Int) field = .ok n := by
  unfold nonNegativeInt
  rw [if_neg (by omega)]
  rfl

end Purra
