import Purra.Core.JsonText
import Purra.Core.StructuredIdentity

/-!
# The depth of an output document

`purra/structured.py`: before an output document is parsed, its text is scanned for brackets that
nest too deeply, and once it is parsed the snapshot bounds the depth of the value.

* `depthGuard` — the scan of the text; it counts the brackets outside the strings.
* `strictLoads` — `json.loads` with the hooks of `parse`: no object has two members of one name.
* `PyJson.nesting`, `PyJson.deepest` — how deeply containers nest in a value, and the deepest level
  that a snapshot visits.
* `depthGuard_iff` — the guard passes a document exactly if its containers do not nest deeper than
  one level beyond the depth.
* `parseDocument_eq_ok_iff` — what the guard refuses would be refused anyway.
-/

namespace Purra

/-! ## The guard -/

/-- The loop of `parse` over the text, at a level, inside a string or behind a backslash there. -/
def depthGuard (limit level : Int) (quoted escaped : Bool) : List Char → Bool
  | [] => true
  | c :: text =>
    if quoted = true then
      if escaped = true then depthGuard limit level quoted false text
      else if c = '\\' then depthGuard limit level quoted true text
      else if c = '"' then depthGuard limit level false escaped text
      else depthGuard limit level quoted escaped text
    else if c = '"' then depthGuard limit level true escaped text
    else if c = '[' ∨ c = '\x7b' then
      decide (level + 1 ≤ limit) && depthGuard limit (level + 1) quoted escaped text
    else if c = ']' ∨ c = '\x7d' then depthGuard limit (level - 1) quoted escaped text
    else depthGuard limit level quoted escaped text

/-! ## The document -/

namespace JsonText

section

variable (toFloat : List Char → PyFloat)

mutual

/-- `scan_once`, with the hook that refuses two members of one name. -/
def strictOnce : Nat → List Char → Option (PyJson × List Char)
  | 0, _ => none
  | budget + 1, text =>
    match text with
    | '"' :: rest => (scanString rest).map fun r => (.str r.1, r.2)
    | '\x7b' :: rest =>
      match rest.dropWhile isBlank with
      | '\x7d' :: rest => some (.obj [], rest)
      | rest => strictMembers budget [] rest
    | '[' :: rest =>
      match rest.dropWhile isBlank with
      | ']' :: rest => some (.arr [], rest)
      | rest => strictItems budget [] rest
    | 'n' :: 'u' :: 'l' :: 'l' :: rest => some (.null, rest)
    | 't' :: 'r' :: 'u' :: 'e' :: rest => some (.bool true, rest)
    | 'f' :: 'a' :: 'l' :: 's' :: 'e' :: rest => some (.bool false, rest)
    | _ => scanNumber toFloat text

/-- The members of an object, at a member's name; `pairs` refuses a name that is there. -/
def strictMembers : Nat → PyJson.Object → List Char → Option (PyJson × List Char)
  | 0, _, _ => none
  | budget + 1, members, text =>
    match text with
    | '"' :: rest => do
      let (key, rest) ← scanString rest
      match rest.dropWhile isBlank with
      | ':' :: rest => do
        let (value, rest) ← strictOnce budget (rest.dropWhile isBlank)
        if key ∈ members.map Prod.fst then none
        else
          match rest.dropWhile isBlank with
          | '\x7d' :: rest => some (.obj (members ++ [(key, value)]), rest)
          | ',' :: rest => strictMembers budget (members ++ [(key, value)]) (rest.dropWhile isBlank)
          | _ => none
      | _ => none
    | _ => none

/-- The items of an array, at an item. -/
def strictItems : Nat → List PyJson → List Char → Option (PyJson × List Char)
  | 0, _, _ => none
  | budget + 1, items, text => do
    let (item, rest) ← strictOnce budget text
    match rest.dropWhile isBlank with
    | ']' :: rest => some (.arr (items ++ [item]), rest)
    | ',' :: rest => strictItems budget (items ++ [item]) (rest.dropWhile isBlank)
    | _ => none

end

end

end JsonText

open JsonText in
/-- `json.loads(text, object_pairs_hook=pairs, parse_constant=constant)`. -/
def strictLoads (toFloat : List Char → PyFloat) (budget : Nat) (text : String) :
    Except PyError PyJson :=
  match strictOnce toFloat budget (text.toList.dropWhile isBlank) with
  | some (value, rest) =>
    if rest.dropWhile isBlank = [] then .ok value else .error (.valueError "Extra data")
  | none => .error (.valueError "Expecting value")

mutual

/-- The deepest level at which a snapshot of a value visits something. -/
def Json.deepest : Json → Nat
  | .arr items => Json.deepestItems items
  | .obj fields => Json.deepestFields fields
  | _ => 0

/-- `deepest`, of the items: they are one level below. -/
def Json.deepestItems : List Json → Nat
  | [] => 0
  | item :: items => max (Json.deepest item + 1) (Json.deepestItems items)

/-- `deepest`, of the members: a name is visited like a value. -/
def Json.deepestFields : List (String × Json) → Nat
  | [] => 0
  | p :: fields => max (Json.deepest p.2 + 1) (Json.deepestFields fields)

end

namespace PyJson

mutual

/-- How deeply containers nest in a value. -/
def nesting : PyJson → Nat
  | .arr items => nestingItems items + 1
  | .obj fields => nestingFields fields + 1
  | _ => 0

/-- `nesting`, of the items. -/
def nestingItems : List PyJson → Nat
  | [] => 0
  | item :: items => max (nesting item) (nestingItems items)

/-- `nesting`, of the members. -/
def nestingFields : List (PyStr × PyJson) → Nat
  | [] => 0
  | p :: fields => max (nesting p.2) (nestingFields fields)

end

mutual

/-- The deepest level of a value, as a snapshot counts it. -/
def deepest : PyJson → Nat
  | .arr items => deepestItems items
  | .obj fields => deepestFields fields
  | _ => 0

/-- `deepest`, of the items: they are one level below. -/
def deepestItems : List PyJson → Nat
  | [] => 0
  | item :: items => max (deepest item + 1) (deepestItems items)

/-- `deepest`, of the members: a name is visited like a value. -/
def deepestFields : List (PyStr × PyJson) → Nat
  | [] => 0
  | p :: fields => max (deepest p.2 + 1) (deepestFields fields)

end

mutual

/-- The value without Python's extras: no lone surrogate, and no number that is not finite. -/
def toJson? : PyJson → Option Json
  | .null => some .null
  | .bool b => some (.bool b)
  | .int n => some (.int n)
  | .float (.finite m e) => some (.float m e)
  | .float (.infinite _) => none
  | .str s => (PyStr.chars? s).map fun chars => .str (String.ofList chars)
  | .arr items => (toJsonItems? items).map .arr
  | .obj fields => (toJsonFields? fields).map .obj

/-- `toJson?`, of every item. -/
def toJsonItems? : List PyJson → Option (List Json)
  | [] => some []
  | item :: items => (toJson? item).bind fun x => (toJsonItems? items).map (x :: ·)

/-- `toJson?`, of every member. -/
def toJsonFields? : List (PyStr × PyJson) → Option (List (String × Json))
  | [] => some []
  | p :: fields => (PyStr.chars? p.1).bind fun chars => (toJson? p.2).bind fun x =>
      (toJsonFields? fields).map ((String.ofList chars, x) :: ·)

end

end PyJson

/-- `_snapshot`, under given limits. -/
def snapshotWithin (limits : SnapshotLimits) (value : Json) : Except PyError Json := do
  let (value, _) ← visit limits 0 value (limits.nodes, 0)
  .ok value

/-- `_snapshot` of what `json.loads` returns: a lone surrogate cannot be encoded, and an infinity is
outside the range. -/
def snapshotParsed (limits : SnapshotLimits) (value : PyJson) : Except PyError Json :=
  match value.toJson? with
  | none => .error (.valueError "number outside interoperable range")
  | some value => snapshotWithin limits value

/-- `parse`, up to the snapshot of the document's value. -/
def parseDocument (limits : SnapshotLimits) (toFloat : List Char → PyFloat) (budget : Nat)
    (text : String) : Except PyError Json := do
  if limits.bytes < text.length then .error (.valueError "invalid document")
  else if limits.bytes < text.utf8ByteSize then .error (.valueError "document too large")
  else if depthGuard (limits.depth + 1) 0 false false text.toList = false then
    .error (.valueError "document too deep")
  else
    let value ← strictLoads toFloat budget text
    snapshotParsed limits value

/-! ## The guard on the parts of a document -/

section

variable {limit level : Int}

/-- A character that the guard passes over. -/
def PlainChar (c : Char) : Prop := c ≠ '"' ∧ c ≠ '[' ∧ c ≠ '\x7b' ∧ c ≠ ']' ∧ c ≠ '\x7d'

instance (c : Char) : Decidable (PlainChar c) := inferInstanceAs (Decidable (_ ∧ _))

variable {c : Char}

theorem depthGuard_cons_plain (hc : PlainChar c) (text : List Char) :
    depthGuard limit level false false (c :: text) = depthGuard limit level false false text := by
  obtain ⟨hquote, hopen, hbrace, hclose, hend⟩ := hc
  simp [depthGuard, hquote, hopen, hbrace, hclose, hend]

theorem depthGuard_append_plain {front : List Char} (hfront : ∀ c ∈ front, PlainChar c)
    (text : List Char) :
    depthGuard limit level false false (front ++ text) = depthGuard limit level false false text := by
  induction front with
  | nil => rfl
  | cons c front ih =>
    rw [List.forall_mem_cons] at hfront
    rw [List.cons_append, depthGuard_cons_plain hfront.1, ih hfront.2]

theorem depthGuard_dropBlank (text : List Char) :
    depthGuard limit level false false (text.dropWhile JsonText.isBlank) =
      depthGuard limit level false false text := by
  have hblank : ∀ c ∈ text.takeWhile JsonText.isBlank, PlainChar c := by
    intro c hc
    have hc' := List.mem_takeWhile_imp hc
    simp only [JsonText.isBlank, Bool.or_eq_true, decide_eq_true_eq] at hc'
    rcases hc' with ((rfl | rfl) | rfl) | rfl <;> decide
  have hsplit : depthGuard limit level false false
      (text.takeWhile JsonText.isBlank ++ text.dropWhile JsonText.isBlank) =
        depthGuard limit level false false (text.dropWhile JsonText.isBlank) :=
    depthGuard_append_plain hblank _
  rw [List.takeWhile_append_dropWhile] at hsplit
  exact hsplit.symm

theorem depthGuard_open (hc : c = '[' ∨ c = '\x7b') (text : List Char) :
    depthGuard limit level false false (c :: text) =
      (decide (level + 1 ≤ limit) && depthGuard limit (level + 1) false false text) := by
  have hquote : c ≠ '"' := by
    rcases hc with rfl | rfl <;> decide
  rw [depthGuard, if_neg Bool.false_ne_true, if_neg hquote, if_pos hc]

theorem depthGuard_close (hc : c = ']' ∨ c = '\x7d') (text : List Char) :
    depthGuard limit level false false (c :: text) = depthGuard limit (level - 1) false false text := by
  have hquote : c ≠ '"' := by
    rcases hc with rfl | rfl <;> decide
  have hopen : ¬(c = '[' ∨ c = '\x7b') := by
    rcases hc with rfl | rfl <;> decide
  rw [depthGuard, if_neg Bool.false_ne_true, if_neg hquote, if_neg hopen, if_pos hc]

theorem depthGuard_quote (text : List Char) :
    depthGuard limit level false false ('"' :: text) = depthGuard limit level true false text := by
  rw [depthGuard, if_neg Bool.false_ne_true, if_pos rfl]

/-- A character inside a string, neither its end nor an escape. -/
theorem depthGuard_inside (hquote : c ≠ '"') (hslash : c ≠ '\\') (text : List Char) :
    depthGuard limit level true false (c :: text) = depthGuard limit level true false text := by
  rw [depthGuard, if_pos rfl, if_neg Bool.false_ne_true, if_neg hslash, if_neg hquote]

/-- An escape inside a string, up to the character behind the backslash. -/
theorem depthGuard_escape (c : Char) (text : List Char) :
    depthGuard limit level true false ('\\' :: c :: text) = depthGuard limit level true false text := by
  rw [depthGuard, if_pos rfl, if_neg Bool.false_ne_true, if_pos rfl, depthGuard, if_pos rfl,
    if_pos rfl]

theorem ne_of_hexit {n : Nat} (h : JsonText.hexit c = some n) : c ≠ '"' ∧ c ≠ '\\' := by
  constructor
  · rintro rfl
    cases h
  · rintro rfl
    cases h

variable {rest text : List Char}

/-- The guard passes over a string. -/
theorem depthGuard_string {s : PyStr} (h : JsonText.StringText rest text s) :
    depthGuard limit level true false text = depthGuard limit level false false rest := by
  induction h with
  | quote =>
    rw [depthGuard, if_pos rfl, if_neg Bool.false_ne_true, if_neg (by decide), if_pos rfl]
  | unicode hdecode _ ih =>
    obtain ⟨i, j, k, l, ha, hb, hc, hd, -⟩ := JsonText.decodeHex_eq_some hdecode
    rw [depthGuard_escape, depthGuard_inside (ne_of_hexit ha).1 (ne_of_hexit ha).2,
      depthGuard_inside (ne_of_hexit hb).1 (ne_of_hexit hb).2,
      depthGuard_inside (ne_of_hexit hc).1 (ne_of_hexit hc).2,
      depthGuard_inside (ne_of_hexit hd).1 (ne_of_hexit hd).2, ih]
  | escape _ _ _ ih => rw [depthGuard_escape, ih]
  | char hquote hslash _ _ ih => rw [depthGuard_inside hquote hslash, ih]

theorem depthGuard_scanString {s : PyStr} (h : JsonText.scanString text = some (s, rest)) :
    depthGuard limit level false false ('"' :: text) = depthGuard limit level false false rest := by
  rw [depthGuard_quote, depthGuard_string (JsonText.stringText_of_scanString h)]

/-! ## Numbers -/

/-- What a part of a number takes of a text: characters that the guard passes over. -/
def TakesPlain (text : List Char) (part : List Char × List Char) : Prop :=
  text = part.1 ++ part.2 ∧ ∀ c ∈ part.1, PlainChar c

theorem plainChar_of_isDigit (h : JsonText.isDigit c = true) : PlainChar c := by
  refine ⟨?_, ?_, ?_, ?_, ?_⟩ <;>
  · rintro rfl
    cases h

theorem takesPlain_span (text : List Char) : TakesPlain text (text.span JsonText.isDigit) := by
  rw [List.span_eq_takeWhile_dropWhile]
  exact ⟨List.takeWhile_append_dropWhile.symm,
    fun c hc => plainChar_of_isDigit (List.mem_takeWhile_imp hc)⟩

theorem takesPlain_nil (text : List Char) : TakesPlain text ([], text) := ⟨rfl, nofun⟩

theorem takesPlain_integerPart {part : List Char × List Char}
    (h : JsonText.integerPart text = some part) : TakesPlain text part := by
  unfold JsonText.integerPart at h
  split at h
  · cases h
    exact ⟨rfl, List.forall_mem_singleton.2 (by decide)⟩
  · split at h
    · cases h
      exact takesPlain_span _
    · cases h
  · cases h

theorem takesPlain_fractionPart (text : List Char) : TakesPlain text (JsonText.fractionPart text) := by
  unfold JsonText.fractionPart
  split
  · split
    · rename_i c rest _
      obtain ⟨heq, hplain⟩ := takesPlain_span (c :: rest)
      refine ⟨congrArg ('.' :: ·) heq, List.forall_mem_cons.2 ⟨by decide, hplain⟩⟩
    · exact takesPlain_nil _
  · exact takesPlain_nil _

theorem takesPlain_exponentPart (text : List Char) : TakesPlain text (JsonText.exponentPart text) := by
  unfold JsonText.exponentPart
  split
  swap
  · exact takesPlain_nil _
  rename_i e sign rest
  split
  swap
  · exact takesPlain_nil _
  rename_i he
  have hplain : PlainChar e := by
    rcases he with rfl | rfl <;> decide
  have hdigits : ∀ (front tail : List Char) {digits behind : List Char},
      e :: sign :: rest = front ++ tail → (∀ c ∈ front, PlainChar c) →
      tail.span JsonText.isDigit = (digits, behind) →
      TakesPlain (e :: sign :: rest) (front ++ digits, behind) := by
    intro front tail digits behind htext hfront hsplit
    obtain ⟨heq, hspan⟩ := takesPlain_span tail
    rw [hsplit] at heq hspan
    refine ⟨?_, List.forall_mem_append.2 ⟨hfront, hspan⟩⟩
    rw [htext, List.append_assoc]
    exact congrArg (front ++ ·) heq
  dsimp only
  by_cases hsign : sign = '+' ∨ sign = '-'
  · have hplain' : PlainChar sign := by
      rcases hsign with rfl | rfl <;> decide
    rw [if_pos hsign]
    split
    · exact takesPlain_nil _
    · rename_i hsplit
      exact hdigits [e, sign] rest rfl
        (List.forall_mem_cons.2 ⟨hplain, List.forall_mem_singleton.2 hplain'⟩) hsplit
  · rw [if_neg hsign]
    split
    · exact takesPlain_nil _
    · rename_i hsplit
      exact hdigits [e] (sign :: rest) rfl (List.forall_mem_singleton.2 hplain) hsplit

theorem depthGuard_takes {part : List Char × List Char} (h : TakesPlain text part) :
    depthGuard limit level false false text = depthGuard limit level false false part.2 := by
  rw [h.1, depthGuard_append_plain h.2]

/-- The guard passes over a number, which nests nothing. -/
theorem depthGuard_scanNumber {toFloat : List Char → PyFloat} {v : PyJson}
    (h : JsonText.scanNumber toFloat text = some (v, rest)) :
    depthGuard limit level false false text = depthGuard limit level false false rest ∧
      v.nesting = 0 := by
  unfold JsonText.scanNumber at h
  split at h
  rename_i minus text' hminus
  have hsign : TakesPlain text (minus, text') := by
    rw [← hminus]
    split
    · exact ⟨rfl, List.forall_mem_singleton.2 (by decide)⟩
    · exact takesPlain_nil _
  obtain ⟨digits, hdigits, h⟩ := Option.bind_eq_some_iff.1 h
  have hrest : depthGuard limit level false false text = depthGuard limit level false false
      (JsonText.exponentPart (JsonText.fractionPart digits.2).2).2 := by
    rw [depthGuard_takes hsign, depthGuard_takes (takesPlain_integerPart hdigits),
      depthGuard_takes (takesPlain_fractionPart _), depthGuard_takes (takesPlain_exponentPart _)]
  dsimp only at h
  split at h
  · obtain ⟨n, hn, h⟩ := Option.map_eq_some_iff.1 h
    cases h
    refine ⟨hrest, ?_⟩
    unfold JsonText.intOf at hn
    split at hn
    · cases hn
    · cases hn
      rfl
  · cases h
    exact ⟨hrest, rfl⟩

/-! ## The guard on a document -/

/-- The guard at the end of a part that nests that deeply. -/
def GuardedBy (limit level : Int) (nesting : Nat) (text rest : List Char) (after : Int) : Prop :=
  depthGuard limit level false false text =
    (decide (level + nesting ≤ limit) && depthGuard limit after false false rest)

theorem guardedBy_flat (hlevel : level ≤ limit)
    (h : depthGuard limit level false false text = depthGuard limit level false false rest) :
    GuardedBy limit level 0 text rest level := by
  unfold GuardedBy
  rw [h, decide_eq_true (by omega), Bool.true_and]

/-- A container nests one deeper than what is inside it. -/
theorem guardedBy_container {inside : Nat} (hc : c = '[' ∨ c = '\x7b')
    (h : level + 1 ≤ limit → GuardedBy limit (level + 1) inside text rest level) :
    GuardedBy limit level (inside + 1) (c :: text) rest level := by
  unfold GuardedBy at h ⊢
  rw [depthGuard_open hc]
  by_cases hlevel : level + 1 ≤ limit
  · rw [h hlevel, decide_eq_true hlevel, Bool.true_and, Int.natCast_succ, Int.add_right_comm,
      Int.add_assoc]
  · rw [decide_eq_false hlevel, decide_eq_false (by omega), Bool.false_and, Bool.false_and]

/-- A container whose inside is known by its nesting at any level. -/
theorem guardedBy_object {v : PyJson} (h : ∃ inside, v.nesting = inside + 1 ∧
      ∀ level, level ≤ limit → GuardedBy limit level inside text rest (level - 1))
    (hc : c = '[' ∨ c = '\x7b') : GuardedBy limit level v.nesting (c :: text) rest level := by
  obtain ⟨inside, hv, h⟩ := h
  rw [hv]
  refine guardedBy_container hc fun hinside => ?_
  have hguard := h (level + 1) hinside
  rwa [Int.add_sub_cancel] at hguard

/-- One part behind the other. -/
theorem GuardedBy.append {a b : Nat} {behind : List Char} {after : Int}
    (ha : GuardedBy limit level a text behind level)
    (hb : GuardedBy limit level b behind rest after) :
    GuardedBy limit level (max a b) text rest after := by
  unfold GuardedBy at ha hb ⊢
  rw [ha, hb, ← Bool.and_assoc]
  congr 1
  rw [← Bool.decide_and]
  exact decide_eq_decide.2 (by omega)

/-- The end of a container. -/
theorem guardedBy_close (hlevel : level ≤ limit)
    (hc : c = ']' ∨ c = '\x7d') (h : text.dropWhile JsonText.isBlank = c :: rest) :
    GuardedBy limit level 0 text rest (level - 1) := by
  unfold GuardedBy
  rw [← depthGuard_dropBlank, h, depthGuard_close hc, decide_eq_true (by omega), Bool.true_and]

/-- A separator between two parts. -/
theorem depthGuard_separator (hc : PlainChar c) (h : text.dropWhile JsonText.isBlank = c :: rest) :
    depthGuard limit level false false text =
      depthGuard limit level false false (rest.dropWhile JsonText.isBlank) := by
  rw [← depthGuard_dropBlank, h, depthGuard_cons_plain hc, depthGuard_dropBlank]

theorem GuardedBy.of_eq {a : Nat} {text' rest' : List Char} {after : Int}
    (h : GuardedBy limit level a text' rest' after)
    (htext : depthGuard limit level false false text = depthGuard limit level false false text')
    (hrest : depthGuard limit after false false rest' = depthGuard limit after false false rest) :
    GuardedBy limit level a text rest after := by
  unfold GuardedBy at h ⊢
  rw [htext, h, hrest]

variable {toFloat : List Char → PyFloat}

/-- The guard on what the scanner takes for a value, a member list or an item list: it counts how
deeply the containers nest. -/
theorem guardedBy_strict (budget : Nat) :
    (∀ text v rest, JsonText.strictOnce toFloat budget text = some (v, rest) →
      ∀ level, level ≤ limit → GuardedBy limit level v.nesting text rest level) ∧
    (∀ members text v rest, JsonText.strictMembers toFloat budget members text = some (v, rest) →
      ∃ new, v = .obj (members ++ new) ∧
        ∀ level, level ≤ limit →
          GuardedBy limit level (PyJson.nestingFields new) text rest (level - 1)) ∧
    ∀ items text v rest, JsonText.strictItems toFloat budget items text = some (v, rest) →
      ∃ new, v = .arr (items ++ new) ∧
        ∀ level, level ≤ limit →
          GuardedBy limit level (PyJson.nestingItems new) text rest (level - 1) := by
  induction budget with
  | zero =>
    refine ⟨fun text v rest h => ?_, fun members text v rest h => ?_, fun items text v rest h => ?_⟩
    · rw [JsonText.strictOnce] at h
      cases h
    · rw [JsonText.strictMembers] at h
      cases h
    · rw [JsonText.strictItems] at h
      cases h
  | succ budget ih =>
    obtain ⟨honce, hmembers, hitems⟩ := ih
    refine ⟨fun text v rest h level hlevel => ?once, fun members text v rest h => ?members,
      fun items text v rest h => ?items⟩
    case once =>
      unfold JsonText.strictOnce at h
      split at h
      · -- a string
        obtain ⟨r, hr, h⟩ := Option.map_eq_some_iff.1 h
        cases h
        exact guardedBy_flat hlevel (depthGuard_scanString hr)
      · -- an object
        refine guardedBy_object ?_ (Or.inr rfl)
        split at h
        · rename_i others hblank
          cases h
          exact ⟨0, rfl, fun inside hinside => guardedBy_close hinside (Or.inr rfl) hblank⟩
        · obtain ⟨new, rfl, hnew⟩ := hmembers _ _ _ _ h
          exact ⟨_, rfl, fun inside hinside =>
            (hnew inside hinside).of_eq (depthGuard_dropBlank _).symm rfl⟩
      · -- an array
        refine guardedBy_object ?_ (Or.inl rfl)
        split at h
        · rename_i others hblank
          cases h
          exact ⟨0, rfl, fun inside hinside => guardedBy_close hinside (Or.inl rfl) hblank⟩
        · obtain ⟨new, rfl, hnew⟩ := hitems _ _ _ _ h
          exact ⟨_, rfl, fun inside hinside =>
            (hnew inside hinside).of_eq (depthGuard_dropBlank _).symm rfl⟩
      · cases h
        have hword : ∀ c ∈ "null".toList, PlainChar c := by simp [PlainChar]
        exact guardedBy_flat hlevel (depthGuard_append_plain hword rest)
      · cases h
        have hword : ∀ c ∈ "true".toList, PlainChar c := by simp [PlainChar]
        exact guardedBy_flat hlevel (depthGuard_append_plain hword rest)
      · cases h
        have hword : ∀ c ∈ "false".toList, PlainChar c := by simp [PlainChar]
        exact guardedBy_flat hlevel (depthGuard_append_plain hword rest)
      · have hnumber : depthGuard limit level false false text =
            depthGuard limit level false false rest ∧ v.nesting = 0 := depthGuard_scanNumber h
        rw [hnumber.2]
        exact guardedBy_flat hlevel hnumber.1
    case members =>
      unfold JsonText.strictMembers at h
      split at h
      swap
      · cases h
      obtain ⟨⟨key, afterKey⟩, hkey, h⟩ := Option.bind_eq_some_iff.1 h
      dsimp only at h
      split at h
      swap
      · cases h
      rename_i afterColon hcolon
      obtain ⟨⟨value, afterValue⟩, hvalue, h⟩ := Option.bind_eq_some_iff.1 h
      dsimp only at h
      split at h
      · cases h
      -- the name, the colon and the value
      have hmember : ∀ level, level ≤ limit →
          GuardedBy limit level value.nesting _ afterValue level := fun level hlevel =>
        (honce _ _ _ hvalue level hlevel).of_eq
          ((depthGuard_scanString hkey).trans (depthGuard_separator (by decide) hcolon)) rfl
      split at h
      · rename_i hend
        cases h
        refine ⟨[(key, value)], rfl, fun level hlevel => ?_⟩
        exact (hmember level hlevel).append (guardedBy_close hlevel (Or.inr rfl) hend)
      · rename_i hcomma
        obtain ⟨new, rfl, hnew⟩ := hmembers _ _ _ _ h
        refine ⟨(key, value) :: new, by rw [List.append_assoc]; rfl, fun level hlevel => ?_⟩
        exact (hmember level hlevel).append
          ((hnew level hlevel).of_eq (depthGuard_separator (by decide) hcomma) rfl)
      · cases h
    case items =>
      unfold JsonText.strictItems at h
      obtain ⟨⟨item, afterItem⟩, hitem, h⟩ := Option.bind_eq_some_iff.1 h
      dsimp only at h
      split at h
      · rename_i hend
        cases h
        refine ⟨[item], rfl, fun level hlevel => ?_⟩
        exact (honce _ _ _ hitem level hlevel).append (guardedBy_close hlevel (Or.inl rfl) hend)
      · rename_i hcomma
        obtain ⟨new, rfl, hnew⟩ := hitems _ _ _ _ h
        refine ⟨item :: new, by rw [List.append_assoc]; rfl, fun level hlevel => ?_⟩
        exact (honce _ _ _ hitem level hlevel).append
          ((hnew level hlevel).of_eq (depthGuard_separator (by decide) hcomma) rfl)
      · cases h

end

/-- **The guard passes a document exactly if its containers do not nest deeper than its limit.** -/
theorem depthGuard_iff {limit : Int} {toFloat : List Char → PyFloat} {budget : Nat} {text : String}
    {value : PyJson} (hlimit : 0 ≤ limit) (h : strictLoads toFloat budget text = .ok value) :
    depthGuard limit 0 false false text.toList = true ↔ (value.nesting : Int) ≤ limit := by
  unfold strictLoads at h
  split at h
  · rename_i value' rest hscan
    split at h
    · rename_i hend
      cases h
      have hguard := (guardedBy_strict budget).1 _ _ _ hscan 0 hlimit
      unfold GuardedBy at hguard
      rw [depthGuard_dropBlank, ← depthGuard_dropBlank rest, hend] at hguard
      rw [hguard]
      simp [depthGuard]
    · cases h
  · cases h

/-! ## Nesting and the levels of a snapshot -/

namespace PyJson

mutual

/-- The deepest level is that of the innermost container or, if it has members, theirs. -/
theorem nesting_deepest (v : PyJson) : v.deepest ≤ v.nesting ∧ v.nesting ≤ v.deepest + 1 := by
  cases v with
  | arr items =>
    have := nesting_deepestItems items
    simp only [deepest, nesting]
    omega
  | obj fields =>
    have := nesting_deepestFields fields
    simp only [deepest, nesting]
    omega
  | _ => exact ⟨Nat.le_refl 0, Nat.zero_le _⟩

theorem nesting_deepestItems (items : List PyJson) :
    deepestItems items ≤ nestingItems items + 1 ∧ nestingItems items ≤ deepestItems items := by
  cases items with
  | nil => exact ⟨Nat.zero_le _, Nat.le_refl 0⟩
  | cons item items =>
    have := nesting_deepest item
    have := nesting_deepestItems items
    simp only [deepestItems, nestingItems]
    omega

theorem nesting_deepestFields (fields : List (PyStr × PyJson)) :
    deepestFields fields ≤ nestingFields fields + 1 ∧
      nestingFields fields ≤ deepestFields fields := by
  cases fields with
  | nil => exact ⟨Nat.zero_le _, Nat.le_refl 0⟩
  | cons p fields =>
    have := nesting_deepest p.2
    have := nesting_deepestFields fields
    simp only [deepestFields, nestingFields]
    omega

end

mutual

theorem deepest_toJson {v : PyJson} {x : Json} (h : v.toJson? = some x) :
    x.deepest = v.deepest := by
  cases v with
  | null | bool b | int n =>
    cases h
    rfl
  | float value =>
    cases value <;> cases h
    rfl
  | str s =>
    obtain ⟨chars, -, rfl⟩ := Option.map_eq_some_iff.1 h
    rfl
  | arr items =>
    obtain ⟨xs, hxs, rfl⟩ := Option.map_eq_some_iff.1 h
    exact deepest_toJsonItems hxs
  | obj fields =>
    obtain ⟨xs, hxs, rfl⟩ := Option.map_eq_some_iff.1 h
    exact deepest_toJsonFields hxs

theorem deepest_toJsonItems {items : List PyJson} {xs : List Json}
    (h : toJsonItems? items = some xs) : Json.deepestItems xs = deepestItems items := by
  cases items with
  | nil =>
    cases h
    rfl
  | cons item items =>
    obtain ⟨x, hx, h⟩ := Option.bind_eq_some_iff.1 h
    obtain ⟨xs', hxs, rfl⟩ := Option.map_eq_some_iff.1 h
    rw [Json.deepestItems, deepestItems, deepest_toJson hx, deepest_toJsonItems hxs]

theorem deepest_toJsonFields {fields : List (PyStr × PyJson)} {xs : List (String × Json)}
    (h : toJsonFields? fields = some xs) : Json.deepestFields xs = deepestFields fields := by
  cases fields with
  | nil =>
    cases h
    rfl
  | cons p fields =>
    obtain ⟨chars, -, h⟩ := Option.bind_eq_some_iff.1 h
    obtain ⟨x, hx, h⟩ := Option.bind_eq_some_iff.1 h
    obtain ⟨xs', hxs, rfl⟩ := Option.map_eq_some_iff.1 h
    rw [Json.deepestFields, deepestFields, deepest_toJson hx, deepest_toJsonFields hxs]

end

end PyJson

/-! ## The depth check of a snapshot -/

/-- The same limits, but for the depth. -/
def SnapshotLimits.within (limits : SnapshotLimits) (depth : Nat) : SnapshotLimits :=
  { limits with depth := depth }

theorem enter_eq_ok {limits : SnapshotLimits} {level : Nat} {budget entered : SnapshotBudget}
    (h : budget.enter limits level = .ok entered) :
    level ≤ limits.depth ∧
      ∀ depth, level ≤ depth → budget.enter (limits.within depth) level = .ok entered := by
  unfold SnapshotBudget.enter at h ⊢
  split at h
  · cases h
  · rename_i hfits
    rw [not_or, not_lt] at hfits
    refine ⟨hfits.2, fun depth hdepth => ?_⟩
    have hfits' : ¬(budget.1 = 0 ∨ (limits.within depth).depth < level) :=
      not_or.2 ⟨hfits.1, not_lt.2 hdepth⟩
    rw [if_neg hfits']
    exact h

mutual

/-- A visit asks of the depth that it reaches the deepest level, and nothing else. -/
theorem visit_depth {limits : SnapshotLimits} {level : Nat} {item : Json} {budget : SnapshotBudget}
    {r : Json × SnapshotBudget} (h : visit limits level item budget = .ok r) :
    level + item.deepest ≤ limits.depth ∧
      ∀ depth, level + item.deepest ≤ depth →
        visit (limits.within depth) level item budget = .ok r := by
  unfold visit at h
  obtain ⟨entered, hentered, h⟩ := bind_eq_ok h
  obtain ⟨hlevel, henter⟩ := enter_eq_ok hentered
  cases item with
  | str s | null | bool b | int n | float m e =>
    refine ⟨hlevel, fun depth hdepth => ?_⟩
    unfold visit
    rw [henter depth hdepth]
    exact h
  | arr items =>
    obtain ⟨⟨vs, visited⟩, hvisited, h⟩ := bind_eq_ok h
    obtain ⟨hdeepest, hitems⟩ := visitItems_depth hlevel hvisited
    refine ⟨hdeepest, fun depth hdepth => ?_⟩
    unfold visit
    rw [henter depth (Nat.le_trans (Nat.le_add_right ..) hdepth)]
    simp only [bind, Except.bind] at h ⊢
    rw [hitems depth hdepth]
    exact h
  | obj fields =>
    obtain ⟨⟨vs, visited⟩, hvisited, h⟩ := bind_eq_ok h
    obtain ⟨hdeepest, hfields⟩ := visitFields_depth hlevel hvisited
    refine ⟨hdeepest, fun depth hdepth => ?_⟩
    unfold visit
    rw [henter depth (Nat.le_trans (Nat.le_add_right ..) hdepth)]
    simp only [bind, Except.bind] at h ⊢
    rw [hfields depth hdepth]
    exact h

theorem visitItems_depth {limits : SnapshotLimits} {level : Nat} {items : List Json}
    {budget : SnapshotBudget} {r : List Json × SnapshotBudget} (hlevel : level ≤ limits.depth)
    (h : visitItems limits (level + 1) items budget = .ok r) :
    level + Json.deepestItems items ≤ limits.depth ∧
      ∀ depth, level + Json.deepestItems items ≤ depth →
        visitItems (limits.within depth) (level + 1) items budget = .ok r := by
  cases items with
  | nil => exact ⟨hlevel, fun depth hdepth => h⟩
  | cons item items =>
    unfold visitItems at h
    obtain ⟨⟨v, visited⟩, hvisited, h⟩ := bind_eq_ok h
    obtain ⟨⟨vs, spent⟩, hspent, h⟩ := bind_eq_ok h
    obtain ⟨hfirst, hvisit⟩ := visit_depth hvisited
    obtain ⟨hothers, hvisits⟩ := visitItems_depth hlevel hspent
    simp only [Json.deepestItems]
    refine ⟨by omega, fun depth hdepth => ?_⟩
    unfold visitItems
    rw [hvisit depth (by omega)]
    simp only [bind, Except.bind] at h ⊢
    rw [hvisits depth (by omega)]
    exact h

theorem visitFields_depth {limits : SnapshotLimits} {level : Nat} {fields : List (String × Json)}
    {budget : SnapshotBudget} {r : List (String × Json) × SnapshotBudget}
    (hlevel : level ≤ limits.depth)
    (h : visitFields limits (level + 1) fields budget = .ok r) :
    level + Json.deepestFields fields ≤ limits.depth ∧
      ∀ depth, level + Json.deepestFields fields ≤ depth →
        visitFields (limits.within depth) (level + 1) fields budget = .ok r := by
  cases fields with
  | nil => exact ⟨hlevel, fun depth hdepth => h⟩
  | cons p fields =>
    obtain ⟨key, child⟩ := p
    unfold visitFields at h
    obtain ⟨entered, hentered, h⟩ := bind_eq_ok h
    obtain ⟨named, hnamed, h⟩ := bind_eq_ok h
    obtain ⟨⟨v, visited⟩, hvisited, h⟩ := bind_eq_ok h
    obtain ⟨⟨vs, spent⟩, hspent, h⟩ := bind_eq_ok h
    obtain ⟨-, henter⟩ := enter_eq_ok hentered
    obtain ⟨hfirst, hvisit⟩ := visit_depth hvisited
    obtain ⟨hothers, hvisits⟩ := visitFields_depth hlevel hspent
    simp only [Json.deepestFields]
    refine ⟨by omega, fun depth hdepth => ?_⟩
    have hnamed' : visitText (limits.within depth) key entered = .ok named := hnamed
    unfold visitFields
    rw [henter depth (by omega)]
    simp only [bind, Except.bind] at h ⊢
    rw [hnamed']
    simp only
    rw [hvisit depth (by omega)]
    simp only
    rw [hvisits depth (by omega)]
    exact h

end

/-- **The depth check of a snapshot is a bound on the deepest level.** -/
theorem snapshotParsed_eq_ok_iff {limits : SnapshotLimits} {value : PyJson} {v : Json} :
    snapshotParsed limits value = .ok v ↔
      value.deepest ≤ limits.depth ∧ snapshotParsed (limits.within value.deepest) value = .ok v := by
  unfold snapshotParsed
  cases hplain : value.toJson? with
  | none => exact ⟨fun h => (by cases h), fun h => (by cases h.2)⟩
  | some x =>
    have hdeepest := PyJson.deepest_toJson hplain
    constructor
    · intro h
      obtain ⟨r, hr, h⟩ := bind_eq_ok h
      obtain ⟨hbound, hany⟩ := visit_depth hr
      rw [Nat.zero_add, hdeepest] at hbound
      refine ⟨hbound, ?_⟩
      show (visit (limits.within value.deepest) 0 x (limits.nodes, 0) >>= _) = _
      rw [hany value.deepest (by omega)]
      exact h
    · rintro ⟨hbound, h⟩
      obtain ⟨r, hr, h⟩ := bind_eq_ok h
      obtain ⟨-, hany⟩ := visit_depth hr
      have hvisit : visit limits 0 x (limits.nodes, 0) = .ok r := hany limits.depth (by omega)
      show (visit limits 0 x (limits.nodes, 0) >>= _) = _
      rw [hvisit]
      exact h

/-- **What the guard refuses would be refused anyway**: a document is accepted if it is short
enough, is JSON, and its value has a snapshot. -/
theorem parseDocument_eq_ok_iff {limits : SnapshotLimits} {toFloat : List Char → PyFloat}
    {budget : Nat} {text : String} {v : Json} :
    parseDocument limits toFloat budget text = .ok v ↔
      text.length ≤ limits.bytes ∧ text.utf8ByteSize ≤ limits.bytes ∧
        ∃ value, strictLoads toFloat budget text = .ok value ∧
          snapshotParsed limits value = .ok v := by
  have hbind : (strictLoads toFloat budget text >>= snapshotParsed limits) = .ok v ↔
      ∃ value, strictLoads toFloat budget text = .ok value ∧ snapshotParsed limits value = .ok v := by
    cases strictLoads toFloat budget text with
    | error e => exact ⟨fun h => (by cases h), fun ⟨value, hvalue, _⟩ => (by cases hvalue)⟩
    | ok value =>
      exact ⟨fun h => ⟨value, rfl, h⟩, fun ⟨value', hvalue, h⟩ => (by cases hvalue; exact h)⟩
  unfold parseDocument
  split
  · rename_i hlong
    exact ⟨fun h => (by cases h), fun ⟨hshort, _⟩ => absurd hshort (not_le.2 hlong)⟩
  rename_i hshort
  split
  · rename_i hlarge
    exact ⟨fun h => (by cases h), fun ⟨_, hsmall, _⟩ => absurd hsmall (not_le.2 hlarge)⟩
  rename_i hsmall
  split
  · rename_i hguard
    refine ⟨fun h => (by cases h), fun ⟨_, _, value, hloads, hsnapshot⟩ => ?_⟩
    -- a value with a snapshot nests no deeper than the guard allows
    have hdeepest := (snapshotParsed_eq_ok_iff.1 hsnapshot).1
    have hnesting := (PyJson.nesting_deepest value).2
    rw [(depthGuard_iff (by omega) hloads).2 (by omega)] at hguard
    cases hguard
  · rw [hbind]
    exact ⟨fun h => ⟨not_lt.1 hshort, not_lt.1 hsmall, h⟩, fun h => h.2.2⟩

/-! ## The identity and the guard -/

/-- **The identity tells the values that a snapshot accepts apart, and no others**; the guard refuses
no document whose value is within the depth, and one that it passes although its value is not nests
exactly one level beyond the depth, so that the snapshot refuses it. -/
theorem identity_exact_guard_sound :
    (∀ (limits limits' : SnapshotLimits) (x y : JsonValue) (v w : Json),
      snapshotWithin limits x.json = .ok v → snapshotWithin limits' y.json = .ok w →
        (identity v = identity w ↔ x.json.equal y.json = true) ∧
        (identity x.json = identity y.json ↔ x.json.equal y.json = true)) ∧
    ∀ (limits : SnapshotLimits) (toFloat : List Char → PyFloat) (budget : Nat) (text : String),
      (∀ value, strictLoads toFloat budget text = .ok value →
        (value.deepest ≤ limits.depth →
          depthGuard (limits.depth + 1) 0 false false text.toList = true) ∧
        (depthGuard (limits.depth + 1) 0 false false text.toList = true ∧
            ¬ value.deepest ≤ limits.depth ↔
          value.nesting = limits.depth + 1 ∧ value.deepest = limits.depth + 1) ∧
        ∀ v, snapshotParsed limits value = .ok v ↔ value.deepest ≤ limits.depth ∧
          snapshotParsed (limits.within value.deepest) value = .ok v) ∧
      ∀ v, parseDocument limits toFloat budget text = .ok v ↔
        text.length ≤ limits.bytes ∧ text.utf8ByteSize ≤ limits.bytes ∧
          ∃ value, strictLoads toFloat budget text = .ok value ∧
            snapshotParsed limits value = .ok v := by
  refine ⟨fun limits limits' x y v w hx hy => ?_, fun limits toFloat budget text => ⟨?_, ?_⟩⟩
  · obtain ⟨⟨v', left⟩, hv, h⟩ := bind_eq_ok hx
    cases h
    obtain ⟨⟨w', left'⟩, hw, h⟩ := bind_eq_ok hy
    cases h
    obtain ⟨hxrange, hxsame⟩ := identity_visit x.held hv
    obtain ⟨hyrange, hysame⟩ := identity_visit y.held hw
    rw [hxsame, hysame]
    exact ⟨identity_eq_iff hxrange hyrange, identity_eq_iff hxrange hyrange⟩
  · intro value hloads
    have hlimit : (0 : Int) ≤ limits.depth + 1 := by omega
    have hguard := depthGuard_iff hlimit hloads
    obtain ⟨hlow, hhigh⟩ := PyJson.nesting_deepest value
    refine ⟨fun hdepth => hguard.2 (by omega), ?_, fun v => snapshotParsed_eq_ok_iff⟩
    rw [hguard]
    omega
  · exact fun v => parseDocument_eq_ok_iff

/-- The members in another order, and a whole number as a float. -/
theorem identity_exact_guard_sound_pair :
    identity (.obj [("b", .float 1 0), ("a", .arr [.bool true, .null])]) =
        identity (.obj [("a", .arr [.bool true, .null]), ("b", .int 1)]) ∧
      depthGuard 3 0 false false "[[0]]".toList = true := by
  obtain ⟨hidentity, hguard⟩ := identity_exact_guard_sound
  have hsame := hidentity outputLimits outputLimits
    ⟨.obj [("b", .float 1 0), ("a", .arr [.bool true, .null])], by decide⟩
    ⟨.obj [("a", .arr [.bool true, .null]), ("b", .int 1)], by decide⟩
    (.obj [("b", .int 1), ("a", .arr [.bool true, .null])])
    (.obj [("a", .arr [.bool true, .null]), ("b", .int 1)]) rfl rfl
  have hdocument := (hguard ⟨2, 9, 99⟩ (fun _ => .finite 0 0) 9 "[[0]]").1
    (.arr [.arr [.int 0]]) rfl
  exact ⟨hsame.2.2 (by decide), hdocument.1 (by decide)⟩

/-- The guard lets a document through that is too deep: under a depth of one, an item of an item is
on the second level. -/
theorem guard_passes_document_too_deep :
    ∃ value, strictLoads (fun _ => .finite 0 0) 9 "[[0]]" = .ok value ∧
      depthGuard (1 + 1) 0 false false "[[0]]".toList = true ∧ ¬ value.deepest ≤ 1 ∧
      snapshotParsed ⟨1, 9, 99⟩ value = .error (.valueError "JSON resource limit exceeded") :=
  ⟨.arr [.arr [.int 0]], rfl, by decide, by decide, rfl⟩

end Purra
