import Purra.Core.PyText
import Purra.Core.Normalization

/-!
# JSON text

`json.loads`, with the `parse_constant` that refuses `NaN` and the infinities.

* `scanString` — `scanstring`: a string behind its opening quote, with its escapes; two
  escapes may be the halves of one character, and a half alone is a lone surrogate.
* `scanNumber`, `scanOnce` — the other values; the last of two members of one name counts.
* `jsonLoads` — a whole document.

The nesting of a document is bounded by the interpreter's stack; `budget` bounds the calls
of the scanner in its place, and a document that exceeds it is refused, as a
`RecursionError` refuses it.  How digits make a `float` is the parameter `toFloat`.
-/

namespace Purra

/-- `chr(n)`. -/
def CodePoint.ofNat (n : Nat) : CodePoint :=
  if h : 0xD800 ≤ n ∧ n < 0xE000 then .surrogate ⟨n - 0xD800, by omega⟩ else .scalar (Char.ofNat n)

namespace JsonText

/-! ## Strings -/

/-- `BACKSLASH`. -/
def backslash (c : Char) : Option Char :=
  match c with
  | '"' => some '"'
  | '\\' => some '\\'
  | '/' => some '/'
  | 'b' => some (Char.ofNat 8)
  | 'f' => some (Char.ofNat 12)
  | 'n' => some '\n'
  | 'r' => some '\r'
  | 't' => some '\t'
  | _ => none

/-- A digit of `\uXXXX`. -/
def hexit (c : Char) : Option Nat :=
  if '0' ≤ c ∧ c ≤ '9' then some (c.toNat - 48)
  else if 'a' ≤ c ∧ c ≤ 'f' then some (c.toNat - 87)
  else if 'A' ≤ c ∧ c ≤ 'F' then some (c.toNat - 55)
  else none

theorem hexit_lt {c : Char} {n : Nat} (h : hexit c = some n) : n < 16 := by
  unfold hexit at h
  split at h
  · next hc =>
    have hle : c.toNat ≤ 57 := hc.2
    cases h
    omega
  · split at h
    · next hc =>
      have hle : c.toNat ≤ 102 := hc.2
      cases h
      omega
    · split at h
      · next hc =>
        have hle : c.toNat ≤ 70 := hc.2
        cases h
        omega
      · cases h

/-- `_decode_uXXXX`. -/
def decodeHex (a b c d : Char) : Option Nat := do
  some (((← hexit a) * 16 + (← hexit b)) * 256 + (← hexit c) * 16 + (← hexit d))

theorem decodeHex_eq_some {a b c d : Char} {n : Nat} (h : decodeHex a b c d = some n) :
    ∃ i j k l, hexit a = some i ∧ hexit b = some j ∧ hexit c = some k ∧ hexit d = some l ∧
      n = (i * 16 + j) * 256 + k * 16 + l := by
  unfold decodeHex at h
  obtain ⟨i, hi, h⟩ := Option.bind_eq_some_iff.1 h
  obtain ⟨j, hj, h⟩ := Option.bind_eq_some_iff.1 h
  obtain ⟨k, hk, h⟩ := Option.bind_eq_some_iff.1 h
  obtain ⟨l, hl, h⟩ := Option.bind_eq_some_iff.1 h
  cases h
  exact ⟨i, j, k, l, hi, hj, hk, hl, rfl⟩

theorem decodeHex_lt {a b c d : Char} {n : Nat} (h : decodeHex a b c d = some n) : n < 0x10000 := by
  obtain ⟨i, j, k, l, hi, hj, hk, hl, rfl⟩ := decodeHex_eq_some h
  have := hexit_lt hi
  have := hexit_lt hj
  have := hexit_lt hk
  have := hexit_lt hl
  omega

/-- The character of a high and a low surrogate. -/
def joined (high low : Nat) : Char := Char.ofNat (0x10000 + high * 1024 + (low - 1024))

/-- A code point in front of a string: two halves make a character. -/
def joinHalf (c : CodePoint) (rest : PyStr) : PyStr :=
  match c, rest with
  | .surrogate high, .surrogate low :: others =>
    if high.val < 1024 ∧ 1024 ≤ low.val then .scalar (joined high low) :: others else c :: rest
  | _, _ => c :: rest

/-- `scanstring`, behind the opening quote. -/
def scanString : List Char → Option (PyStr × List Char)
  | [] => none
  | '"' :: rest => some ([], rest)
  | '\\' :: 'u' :: a :: b :: c :: d :: rest =>
    -- The text holds no surrogate itself, so that a half that follows is an escape too.
    (decodeHex a b c d).bind fun n =>
      (scanString rest).map fun r => (joinHalf (.ofNat n) r.1, r.2)
  | '\\' :: c :: rest =>
    (backslash c).bind fun decoded => (scanString rest).map fun r => (.scalar decoded :: r.1, r.2)
  | c :: rest =>
    if c.toNat < 32 then none else (scanString rest).map fun r => (.scalar c :: r.1, r.2)

/-- The grammar of strings: `text` is a string `s`, its closing quote, and `rest`. -/
inductive StringText (rest : List Char) : List Char → PyStr → Prop where
  | quote : StringText rest ('"' :: rest) []
  | unicode {a b c d : Char} {n : Nat} {text : List Char} {s : PyStr} :
      decodeHex a b c d = some n → StringText rest text s →
      StringText rest ('\\' :: 'u' :: a :: b :: c :: d :: text) (joinHalf (.ofNat n) s)
  | escape {c decoded : Char} {text : List Char} {s : PyStr} :
      c ≠ 'u' → backslash c = some decoded → StringText rest text s →
      StringText rest ('\\' :: c :: text) (.scalar decoded :: s)
  | char {c : Char} {text : List Char} {s : PyStr} :
      c ≠ '"' → c ≠ '\\' → ¬c.toNat < 32 → StringText rest text s →
      StringText rest (c :: text) (.scalar c :: s)

/-- What `scanString` accepts is a string. -/
theorem stringText_of_scanString {text : List Char} {s : PyStr} {rest : List Char}
    (h : scanString text = some (s, rest)) : StringText rest text s := by
  induction text using scanString.induct generalizing s with
  | case1 => cases h
  | case2 text =>
    cases h
    exact .quote
  | case3 _ _ _ _ _ ih =>
    obtain ⟨n, hn, h⟩ := Option.bind_eq_some_iff.1 h
    obtain ⟨r, hr, h⟩ := Option.map_eq_some_iff.1 h
    cases h
    exact .unicode hn (ih hr)
  | case4 c text hshort ih =>
    rw [scanString.eq_4 c text hshort] at h
    obtain ⟨decoded, hdecoded, h⟩ := Option.bind_eq_some_iff.1 h
    obtain ⟨r, hr, h⟩ := Option.map_eq_some_iff.1 h
    cases h
    refine .escape (fun hc => ?_) hdecoded (ih hr)
    subst hc
    cases hdecoded
  | case5 c text hquote hunicode hslash hcontrol =>
    rw [scanString.eq_5 c text hquote hunicode hslash, if_pos hcontrol] at h
    cases h
  | case6 c text hquote hunicode hslash hcontrol ih =>
    rw [scanString.eq_5 c text hquote hunicode hslash, if_neg hcontrol] at h
    obtain ⟨r, hr, h⟩ := Option.map_eq_some_iff.1 h
    cases h
    refine .char hquote (fun hc => ?_) hcontrol (ih hr)
    cases text with
    | nil => cases hr
    | cons d text => exact hslash d text hc rfl

/-! ## Numbers -/

/-- An ASCII digit. -/
def isDigit (c : Char) : Bool := '0' ≤ c && c ≤ '9'

/-- The integer part of a number: a zero, or digits that do not begin with one. -/
def integerPart : List Char → Option (List Char × List Char)
  | '0' :: rest => some (['0'], rest)
  | c :: rest => if isDigit c = true then some ((c :: rest).span isDigit) else none
  | [] => none

/-- A point and digits behind it, if both are there. -/
def fractionPart : List Char → List Char × List Char
  | '.' :: c :: rest =>
    if isDigit c = true then
      let (digits, rest) := (c :: rest).span isDigit
      ('.' :: digits, rest)
    else ([], '.' :: c :: rest)
  | rest => ([], rest)

/-- An exponent, if it has digits. -/
def exponentPart (text : List Char) : List Char × List Char :=
  match text with
  | e :: sign :: rest =>
    if e = 'e' ∨ e = 'E' then
      let (front, rest) := if sign = '+' ∨ sign = '-' then ([e, sign], rest) else ([e], sign :: rest)
      match rest.span isDigit with
      | ([], _) => ([], text)
      | (digits, rest) => (front ++ digits, rest)
    else ([], text)
  | _ => ([], text)

/-- `int(digits)`, of which there may be `sys.int_info.default_max_str_digits`. -/
def intOf (negative : Bool) (digits : List Char) : Option PyJson :=
  if 4300 < digits.length then none
  else
    let n : Nat := digits.foldl (fun n c => n * 10 + (c.toNat - 48)) 0
    some (.int (if negative then -n else n))

section

variable (toFloat : List Char → PyFloat)

/-- `_match_number`. -/
def scanNumber (text : List Char) : Option (PyJson × List Char) := do
  let (minus, text) := match text with
    | '-' :: rest => (['-'], rest)
    | _ => ([], text)
  let (digits, rest) ← integerPart text
  let (fraction, rest) := fractionPart rest
  let (exponent, rest) := exponentPart rest
  if fraction = [] ∧ exponent = [] then (intOf (minus ≠ []) digits).map fun n => (n, rest)
  else some (.float (toFloat (minus ++ digits ++ fraction ++ exponent)), rest)

/-! ## Values -/

/-- The white space of JSON. -/
def isBlank (c : Char) : Bool := c = ' ' || c = '\t' || c = '\n' || c = '\r'

/-- `memo[key] = value`, of a `dict`'s members. -/
def setMember (members : PyJson.Object) (key : PyStr) (value : PyJson) : PyJson.Object :=
  if key ∈ members.map Prod.fst then Dict.replaceEntry key value members
  else members ++ [(key, value)]

mutual

/-- `scan_once`. -/
def scanOnce : Nat → List Char → Option (PyJson × List Char)
  | 0, _ => none
  | budget + 1, text =>
    match text with
    | '"' :: rest => (scanString rest).map fun r => (.str r.1, r.2)
    | '\x7b' :: rest =>
      match rest.dropWhile isBlank with
      | '\x7d' :: rest => some (.obj [], rest)
      | rest => scanMembers budget [] rest
    | '[' :: rest =>
      match rest.dropWhile isBlank with
      | ']' :: rest => some (.arr [], rest)
      | rest => scanItems budget [] rest
    | 'n' :: 'u' :: 'l' :: 'l' :: rest => some (.null, rest)
    | 't' :: 'r' :: 'u' :: 'e' :: rest => some (.bool true, rest)
    | 'f' :: 'a' :: 'l' :: 's' :: 'e' :: rest => some (.bool false, rest)
    -- `NaN` and the infinities are refused, as is what is no value.
    | _ => scanNumber toFloat text

/-- The loop of `_parse_object`, at a member's name. -/
def scanMembers : Nat → PyJson.Object → List Char → Option (PyJson × List Char)
  | 0, _, _ => none
  | budget + 1, members, text =>
    match text with
    | '"' :: rest => do
      let (key, rest) ← scanString rest
      match rest.dropWhile isBlank with
      | ':' :: rest => do
        let (value, rest) ← scanOnce budget (rest.dropWhile isBlank)
        let members := setMember members key value
        match rest.dropWhile isBlank with
        | '\x7d' :: rest => some (.obj members, rest)
        | ',' :: rest => scanMembers budget members (rest.dropWhile isBlank)
        | _ => none
      | _ => none
    | _ => none

/-- The loop of `_parse_array`, at an item. -/
def scanItems : Nat → List PyJson → List Char → Option (PyJson × List Char)
  | 0, _, _ => none
  | budget + 1, items, text => do
    let (item, rest) ← scanOnce budget text
    match rest.dropWhile isBlank with
    | ']' :: rest => some (.arr (items ++ [item]), rest)
    | ',' :: rest => scanItems budget (items ++ [item]) (rest.dropWhile isBlank)
    | _ => none

end

end

section

variable {toFloat : List Char → PyFloat} {budget : Nat}

theorem scanOnce_quote (rest : List Char) :
    scanOnce toFloat (budget + 1) ('"' :: rest) = (scanString rest).map fun r => (.str r.1, r.2) := by
  rw [scanOnce]

theorem scanOnce_members (rest : List Char) :
    scanOnce toFloat (budget + 1) ('\x7b' :: '"' :: rest) = scanMembers toFloat budget [] ('"' :: rest) := by
  rw [scanOnce]
  rfl

theorem scanNumber_one (rest : List Char) :
    scanNumber toFloat ('1' :: ',' :: '"' :: rest) = some (.int 1, ',' :: '"' :: rest) := by
  simp [scanNumber, integerPart, fractionPart, exponentPart, intOf, isDigit, List.span,
    List.span.loop]

theorem scanOnce_one (rest : List Char) :
    scanOnce toFloat (budget + 1) ('1' :: ',' :: '"' :: rest) =
      some (.int 1, ',' :: '"' :: rest) := by
  rw [scanOnce, scanNumber_one]
  all_goals
    intro rest h
    cases h

/-- What follows a member's value: the end of the object, or another member. -/
def membersBehind (toFloat : List Char → PyFloat) (budget : Nat) (members : PyJson.Object)
    (rest : List Char) : Option (PyJson × List Char) :=
  match rest.dropWhile isBlank with
  | '\x7d' :: rest => some (.obj members, rest)
  | ',' :: rest => scanMembers toFloat budget members (rest.dropWhile isBlank)
  | _ => none

/-- A member without white space around its value. -/
theorem scanMembers_member {members : PyJson.Object} {text rest : List Char} {key : PyStr}
    (hkey : scanString text = some (key, ':' :: rest)) (hrest : rest.dropWhile isBlank = rest) :
    scanMembers toFloat (budget + 1) members ('"' :: text) =
      (scanOnce toFloat budget rest).bind fun r =>
        membersBehind toFloat budget (setMember members key r.1) r.2 := by
  have hcolon : (':' :: rest).dropWhile isBlank = ':' :: rest := rfl
  rw [scanMembers, hkey]
  show (match (':' :: rest).dropWhile isBlank with
    | ':' :: rest => _
    | _ => none) = _
  rw [hcolon]
  show (scanOnce toFloat budget (rest.dropWhile isBlank)).bind _ = _
  rw [hrest]
  rfl

/-- A larger budget scans what a smaller one does. -/
theorem scan_succ (budget : Nat) :
    (∀ text r, scanOnce toFloat budget text = some r → scanOnce toFloat (budget + 1) text = some r) ∧
      (∀ members text r, scanMembers toFloat budget members text = some r →
        scanMembers toFloat (budget + 1) members text = some r) ∧
      ∀ items text r, scanItems toFloat budget items text = some r →
        scanItems toFloat (budget + 1) items text = some r := by
  induction budget with
  | zero =>
    refine ⟨fun text r h => ?_, fun members text r h => ?_, fun items text r h => ?_⟩
    · rw [scanOnce] at h
      cases h
    · rw [scanMembers] at h
      cases h
    · rw [scanItems] at h
      cases h
  | succ n ih =>
    obtain ⟨honce, hmembers, hitems⟩ := ih
    refine ⟨fun text r h => ?_, fun members text r h => ?_, fun items text r h => ?_⟩
    · unfold scanOnce at h ⊢
      split at h
      · exact h
      · revert h
        split
        · exact id
        · exact hmembers [] _ r
      · revert h
        split
        · exact id
        · exact hitems [] _ r
      all_goals exact h
    · unfold scanMembers at h ⊢
      split at h
      · obtain ⟨k, hk, h⟩ := Option.bind_eq_some_iff.1 h
        refine Option.bind_eq_some_iff.2 ⟨k, hk, ?_⟩
        revert h
        dsimp only
        split
        · intro h
          obtain ⟨v, hv, h⟩ := Option.bind_eq_some_iff.1 h
          refine Option.bind_eq_some_iff.2 ⟨v, honce _ _ hv, ?_⟩
          revert h
          split
          · exact id
          · exact hmembers _ _ r
          · exact id
        · exact id
      · cases h
    · unfold scanItems at h ⊢
      obtain ⟨v, hv, h⟩ := Option.bind_eq_some_iff.1 h
      refine Option.bind_eq_some_iff.2 ⟨v, honce _ _ hv, ?_⟩
      revert h
      dsimp only
      split
      · exact id
      · exact hitems _ _ r
      · exact id

theorem scanOnce_add {text : List Char} {r : PyJson × List Char}
    (h : scanOnce toFloat budget text = some r) (more : Nat) :
    scanOnce toFloat (budget + more) text = some r := by
  induction more with
  | zero => exact h
  | succ more ih => exact (scan_succ (budget + more)).1 text r ih

end

end JsonText

open JsonText in
/-- `json.loads(text, parse_constant=…)`. -/
def jsonLoads (toFloat : List Char → PyFloat) (budget : Nat) (text : String) :
    Except PyError PyJson :=
  match scanOnce toFloat budget (text.toList.dropWhile isBlank) with
  | some (value, rest) =>
    if rest.dropWhile isBlank = [] then .ok value else .error (.valueError "Extra data")
  | none => .error (.valueError "Expecting value")

end Purra
