import Mathlib.Data.List.Sort
import Purra.Core.JsonValues
import Purra.Core.Normalization

/-!
# Interoperable JSON and its identity

`purra/structured.py`, as far as approval data uses it: the bounded snapshot of a
JSON value and the digest of its identity text.

A snapshot visits a value once, with a budget of nodes and bytes.  It turns a
float that is an integer into that integer and changes nothing else, so a
snapshot of a snapshot is the snapshot again (`snapshot_idem`).

SHA-256 itself is a parameter `sha256` of whatever takes a digest: nothing here
depends on which function it is.
-/

namespace Purra

/-- `StructuredOutputLimits`, with the limits a snapshot of an output observes. -/
structure SnapshotLimits where
  depth : Nat
  nodes : Nat
  bytes : Nat

/-- The defaults of `StructuredOutputLimits`. -/
def outputLimits : SnapshotLimits := ⟨64, 65536, 1048576⟩

/-- `_SAFE_INTEGER`. -/
def safeInteger : Nat := 9007199254740991

/-! ## The snapshot -/

/-- How many bytes `json.dumps` without `ensure_ascii` spends on a character. -/
def dumpedCharBytes (c : Char) : Nat :=
  if c = '"' ∨ c = '\\' ∨ c = '\n' ∨ c = '\r' ∨ c = '\t' ∨ c.toNat = 8 ∨ c.toNat = 12 then 2
  else if c.toNat < 32 then 6
  else c.utf8Size

/-- How many bytes it spends on a string. -/
def dumpedBytes (s : String) : Nat := 2 + (s.toList.map dumpedCharBytes).sum

/-- The integer a binary float is, if it is one. -/
def floatInteger (mantissa exponent : Int) : Option Int :=
  if 0 ≤ exponent then some (mantissa * 2 ^ exponent.toNat)
  else if mantissa % 2 ^ (-exponent).toNat = 0 then some (mantissa / 2 ^ (-exponent).toNat)
  else none

/-- What a visit has left: nodes, and bytes spent so far. -/
abbrev SnapshotBudget := Nat × Nat

namespace SnapshotBudget

/-- The next node, at the given level. -/
def enter (limits : SnapshotLimits) (level : Nat) (budget : SnapshotBudget) :
    Except PyError SnapshotBudget :=
  if budget.1 = 0 ∨ limits.depth < level then
    .error (.valueError "JSON resource limit exceeded")
  else .ok (budget.1 - 1, budget.2)

/-- Bytes for a node whose parts have been paid for. -/
def spend (limits : SnapshotLimits) (bytes : Nat) (budget : SnapshotBudget) :
    Except PyError SnapshotBudget :=
  if limits.bytes < budget.2 + bytes then .error (.valueError "JSON byte limit exceeded")
  else .ok (budget.1, budget.2 + bytes)

end SnapshotBudget

/-- `visit` on a number. -/
def visitNumber (limits : SnapshotLimits) (whole : Option Int) (item : Json)
    (budget : SnapshotBudget) : Except PyError (Json × SnapshotBudget) := do
  match whole with
  | none => .ok (item, ← budget.spend limits 24)
  | some n =>
    if safeInteger < n.natAbs then .error (.valueError "number outside interoperable range")
    else .ok (.int n, ← budget.spend limits 24)

/-- `visit` on a string. -/
def visitText (limits : SnapshotLimits) (s : String) (budget : SnapshotBudget) :
    Except PyError SnapshotBudget :=
  if limits.bytes < s.length then .error (.valueError "JSON byte limit exceeded")
  else budget.spend limits (dumpedBytes s)

mutual

/-- `visit`. -/
def visit (limits : SnapshotLimits) (level : Nat) (item : Json) (budget : SnapshotBudget) :
    Except PyError (Json × SnapshotBudget) := do
  let budget ← budget.enter limits level
  match item with
  | .str s => .ok (.str s, ← visitText limits s budget)
  | .null => .ok (.null, ← budget.spend limits 5)
  | .bool b => .ok (.bool b, ← budget.spend limits 5)
  | .int n => visitNumber limits (some n) (.int n) budget
  | .float m e => visitNumber limits (floatInteger m e) (.float m e) budget
  | .arr items =>
    let (items, budget) ← visitItems limits (level + 1) items budget
    .ok (.arr items, ← budget.spend limits (2 + 2 * items.length))
  | .obj fields =>
    let (fields, budget) ← visitFields limits (level + 1) fields budget
    .ok (.obj fields, ← budget.spend limits (2 + 2 * fields.length))

/-- The children of a sequence. -/
def visitItems (limits : SnapshotLimits) (level : Nat) (items : List Json)
    (budget : SnapshotBudget) : Except PyError (List Json × SnapshotBudget) := do
  match items with
  | [] => .ok ([], budget)
  | item :: items =>
    let (item, budget) ← visit limits level item budget
    let (items, budget) ← visitItems limits level items budget
    .ok (item :: items, budget)

/-- The children of a mapping: a key is a node of its own. -/
def visitFields (limits : SnapshotLimits) (level : Nat) (fields : List (String × Json))
    (budget : SnapshotBudget) : Except PyError (List (String × Json) × SnapshotBudget) := do
  match fields with
  | [] => .ok ([], budget)
  | (key, child) :: fields =>
    let budget ← budget.enter limits level
    let budget ← visitText limits key budget
    let (child, budget) ← visit limits level child budget
    let (fields, budget) ← visitFields limits level fields budget
    .ok ((key, child) :: fields, budget)

end

/-- `_snapshot` under the default limits. -/
def snapshot (value : Json) : Except PyError Json := do
  let (value, _) ← visit outputLimits 0 value (outputLimits.nodes, 0)
  .ok value

/-! ## A snapshot of a snapshot -/

theorem visitNumber_idem {limits : SnapshotLimits} {whole : Option Int} {item v : Json}
    {budget budget' : SnapshotBudget} (hwhole : whole = none → ∃ m e, item = .float m e ∧
      floatInteger m e = none) (h : visitNumber limits whole item budget = .ok (v, budget')) :
    (∃ n, v = .int n ∧ visitNumber limits (some n) (.int n) budget = .ok (v, budget')) ∨
      ∃ m e, v = .float m e ∧ visitNumber limits (floatInteger m e) v budget = .ok (v, budget') := by
  cases whole with
  | none =>
    obtain ⟨m, e, rfl, hfloat⟩ := hwhole rfl
    refine Or.inr ⟨m, e, ?_⟩
    obtain ⟨spent, hspent, h⟩ := bind_eq_ok h
    cases h
    refine ⟨rfl, ?_⟩
    rw [hfloat]
    unfold visitNumber
    rw [hspent]
    rfl
  | some n =>
    refine Or.inl ⟨n, ?_⟩
    have hbefore := h
    unfold visitNumber at h
    simp only at h
    split at h
    · cases h
    · rename_i hsafe
      obtain ⟨spent, hspent, h⟩ := bind_eq_ok h
      cases h
      refine ⟨rfl, ?_⟩
      unfold visitNumber
      simp only
      rw [if_neg hsafe, hspent]
      rfl

mutual

theorem visit_idem {limits : SnapshotLimits} {level : Nat} {item v : Json}
    {budget budget' : SnapshotBudget} (h : visit limits level item budget = .ok (v, budget')) :
    visit limits level v budget = .ok (v, budget') := by
  unfold visit at h
  obtain ⟨entered, hentered, h⟩ := bind_eq_ok h
  cases item with
  | str s | null | bool b =>
    obtain ⟨spent, hspent, h⟩ := bind_eq_ok h
    cases h
    unfold visit
    rw [hentered]
    simp only [bind, Except.bind] at hspent ⊢
    rw [hspent]
  | int n =>
    rcases visitNumber_idem (fun h => by cases h) h with ⟨k, rfl, hk⟩ | ⟨m, e, rfl, hf⟩
    · unfold visit
      rw [hentered]
      exact hk
    · unfold visit
      rw [hentered]
      exact hf
  | float m e =>
    rcases visitNumber_idem (fun hnone => ⟨m, e, rfl, hnone⟩) h with ⟨k, rfl, hk⟩ | ⟨m', e', rfl, hf⟩
    · unfold visit
      rw [hentered]
      exact hk
    · unfold visit
      rw [hentered]
      exact hf
  | arr items =>
    obtain ⟨⟨items', visited⟩, hvisited, h⟩ := bind_eq_ok h
    obtain ⟨spent, hspent, h⟩ := bind_eq_ok h
    cases h
    have hidem := visitItems_idem hvisited
    unfold visit
    rw [hentered]
    simp only [bind, Except.bind] at hspent ⊢
    rw [hidem]
    simp only
    rw [hspent]
  | obj fields =>
    obtain ⟨⟨fields', visited⟩, hvisited, h⟩ := bind_eq_ok h
    obtain ⟨spent, hspent, h⟩ := bind_eq_ok h
    cases h
    have hidem := visitFields_idem hvisited
    unfold visit
    rw [hentered]
    simp only [bind, Except.bind] at hspent ⊢
    rw [hidem]
    simp only
    rw [hspent]

theorem visitItems_idem {limits : SnapshotLimits} {level : Nat} {items vs : List Json}
    {budget budget' : SnapshotBudget}
    (h : visitItems limits level items budget = .ok (vs, budget')) :
    visitItems limits level vs budget = .ok (vs, budget') := by
  cases items with
  | nil =>
    cases h
    rfl
  | cons item items =>
    unfold visitItems at h
    obtain ⟨⟨v, visited⟩, hvisited, h⟩ := bind_eq_ok h
    obtain ⟨⟨rest, spent⟩, hrest, h⟩ := bind_eq_ok h
    cases h
    unfold visitItems
    rw [visit_idem hvisited]
    simp only [bind, Except.bind]
    rw [visitItems_idem hrest]

theorem visitFields_idem {limits : SnapshotLimits} {level : Nat} {fields vs : List (String × Json)}
    {budget budget' : SnapshotBudget}
    (h : visitFields limits level fields budget = .ok (vs, budget')) :
    visitFields limits level vs budget = .ok (vs, budget') := by
  cases fields with
  | nil =>
    cases h
    rfl
  | cons p fields =>
    obtain ⟨key, child⟩ := p
    unfold visitFields at h
    obtain ⟨entered, hentered, h⟩ := bind_eq_ok h
    obtain ⟨spent, hspent, h⟩ := bind_eq_ok h
    obtain ⟨⟨v, visited⟩, hvisited, h⟩ := bind_eq_ok h
    obtain ⟨⟨rest, left⟩, hrest, h⟩ := bind_eq_ok h
    cases h
    unfold visitFields
    rw [hentered]
    simp only [bind, Except.bind]
    rw [hspent]
    simp only
    rw [visit_idem hvisited]
    simp only
    rw [visitFields_idem hrest]

end

/-- **A snapshot is its own snapshot.** -/
theorem snapshot_idem {value v : Json} (h : snapshot value = .ok v) : snapshot v = .ok v := by
  obtain ⟨⟨w, budget⟩, hvisit, h⟩ := bind_eq_ok h
  cases h
  unfold snapshot
  rw [visit_idem hvisit]
  rfl

/-! ## The identity text -/

/-- Hexadecimal digits, most significant first. -/
def hexDigits : Nat → Nat → List Char
  | 0, _ => []
  | digits + 1, n => hexDigits digits (n / 16) ++ [Nat.digitChar (n % 16)]

/-- The bits of the binary64 number `mantissa * 2 ^ exponent`. -/
def doubleBits (mantissa exponent : Int) : Nat :=
  if mantissa = 0 then 0
  else
    let size := mantissa.natAbs
    let top := (size.log2 : Int) + exponent
    let sign := if mantissa < 0 then 2 ^ 63 else 0
    if -1022 ≤ top then
      sign + (top + 1023).toNat * 2 ^ 52 + (size * 2 ^ 52 / 2 ^ size.log2 - 2 ^ 52)
    else sign + size * 2 ^ (exponent + 1074).toNat

/-- `struct.pack(">d", ...).hex()`, with its tag. -/
def identityNumber (mantissa exponent : Int) : String :=
  "d" ++ String.ofList (hexDigits 16 (doubleBits mantissa exponent))

/-- The tagged length and hexadecimal UTF-8 of a text. -/
def identityText (s : String) : String :=
  let bytes := s.toList.flatMap String.utf8EncodeChar
  "s" ++ toString bytes.length ++ ":" ++
    String.ofList (bytes.flatMap fun byte => hexDigits 2 byte.toNat)

mutual

/-- `_identity`. -/
def identity : Json → String
  | .null => "n"
  | .bool b => if b then "t" else "f"
  | .int n => identityNumber n 0
  | .float m e => identityNumber m e
  | .str s => identityText s
  | .arr items => "a" ++ toString items.length ++ ":" ++ String.join (identityItems items)
  | .obj fields => "o" ++ toString fields.length ++ ":" ++
      String.join (((identityFields fields).insertionSort fun p q => p.1 ≤ q.1).map Prod.snd)

/-- The identities of the items of a sequence. -/
def identityItems : List Json → List String
  | [] => []
  | item :: items => identity item :: identityItems items

/-- The fields of a mapping under their keys, each with the identity of key and value. -/
def identityFields : List (String × Json) → List (String × String)
  | [] => []
  | (key, child) :: fields => (key, identityText key ++ identity child) :: identityFields fields

end

/-- `json_identity_digest`. -/
def jsonIdentityDigest (sha256 : String → String) (value : Json) : Except PyError String := do
  let normalized ← snapshot value
  .ok (sha256 ("purra.json-identity/v1" ++ "\n" ++ identity normalized))

/-- `_ARGUMENTS.validate_value`: the schema asks for an object and nothing else, so what remains is
the snapshot. -/
def validateArguments (arguments : Json.Object) : Except PyError Json.Object :=
  match snapshot (.obj arguments) with
  | .ok (.obj fields) => .ok fields
  | _ => .error (.contractViolation "Structured output contract validation failed"
      "structured_output_invalid_json"
      [("path", "$"), ("keyword", "value"), ("reason", "constraint_failed")])

theorem validateArguments_idem {arguments fields : Json.Object}
    (h : validateArguments arguments = .ok fields) : validateArguments fields = .ok fields := by
  unfold validateArguments at h
  split at h
  · rename_i fields' hsnapshot
    cases h
    unfold validateArguments
    rw [snapshot_idem hsnapshot]
  · cases h

end Purra
