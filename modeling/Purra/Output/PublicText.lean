import Purra.Core.JsonText
import Purra.Output.Spoken

/-!
# The text a line shows

The delta parser decodes the public text of a line character by character; `publicText` is
that text as the JSON decoder reads it.

* `publicText` — the string behind the compact header, up to its first lone surrogate.
* `Reads` — the delta parser comes to the end of a line and has decoded a text of it.
* `reads_string` — behind the header it decodes a string as the JSON decoder does.
* `reads_line`, `spoken_lines` — a line shows its public text under its number, and so do
  all lines of a text.
-/

namespace Purra.Output

open JsonText

/-- The characters in front of the first lone surrogate. -/
def scalars : PyStr → List Char
  | .scalar c :: rest => c :: scalars rest
  | _ => []

/-- What follows the compact header of a line. -/
def behindHeader (line : List Char) : Option (List Char) :=
  if PlanningTextDeltaParser.header <+: line then
    some (line.drop PlanningTextDeltaParser.header.length)
  else none

/-- The text that a line shows while it arrives. -/
def publicText (line : List Char) : List Char :=
  match (behindHeader line).bind scanString with
  | some r => scalars r.1
  | none => []

namespace PlanningTextDeltaParser

theorem escaped_eq (c : Char) : escaped c = backslash c := rfl

theorem hexDigit_eq (c : Char) : hexDigit c = hexit c := rfl

variable {c : Char} {n : Nat}

/-- Four digits that can be decoded are hexadecimal, and have the same value. -/
theorem hexValue_of_decodeHex {a b d : Char} (h : decodeHex a b c d = some n) :
    (hexDigit a).isSome ∧ (hexDigit b).isSome ∧ (hexDigit c).isSome ∧ (hexDigit d).isSome ∧
      hexValue [a, b, c, d] = n := by
  obtain ⟨i, j, k, l, ha, hb, hc, hd, rfl⟩ := decodeHex_eq_some h
  simp only [hexDigit_eq, ha, hb, hc, hd, Option.isSome_some, true_and]
  simp [hexValue, hexDigit_eq, ha, hb, hc, hd]
  omega

/-! ## Steps -/

variable {f g : Feed}

theorem spoken_emit (f : Feed) (c : Char) :
    (f.emit c).spoken = f.spoken ++ [(f.parser.recordIndex, c)] := by
  simp [Feed.spoken, Feed.emit, Feed.goto]

variable {text : List Char}

/-- A record that is skipped is skipped up to its line feed. -/
theorem foldl_skip (hstate : f.parser.state = .skip) (htext : '\n' ∉ text) :
    text.foldl Feed.step f = f := by
  induction text with
  | nil => rfl
  | cons c rest ih =>
    have hc : c ≠ '\n' := fun hc => htext (hc ▸ List.mem_cons_self)
    have hstep : f.step c = f := by
      unfold Feed.step
      rw [hstate]
      obtain ⟨⟨state, headerIndex, recordIndex, unicode, highSurrogate⟩, current, emitted⟩ := f
      cases hstate
      simp [Feed.skipFrom, hc, Feed.goto]
    rw [List.foldl_cons, hstep]
    exact ih fun hmem => htext (List.mem_cons_of_mem c hmem)

/-- `g` stands at the line feed of the line `f` reads, and has decoded `text` of it. -/
structure Reads (f g : Feed) (text : List Char) : Prop where
  state : g.parser.state = .skip ∨ g.parser.state = .newline ∨ g.parser.state = .header
  recordIndex : g.parser.recordIndex = f.parser.recordIndex
  current : g.current = []
  spoken : g.spoken = f.spoken ++ text.map (f.parser.recordIndex, ·)

theorem Reads.cons (h : Reads (f.emit c) g text) :
    Reads f g (c :: text) where
  state := h.state
  recordIndex := h.recordIndex
  current := h.current
  spoken := by
    rw [h.spoken, spoken_emit, List.map_cons, List.append_assoc]
    rfl

/-- Only the record and what has been decoded matter of where a text is read from. -/
theorem Reads.of_eq {f' : Feed} (h : Reads f' g text)
    (hindex : f'.parser.recordIndex = f.parser.recordIndex) (hspoken : f'.spoken = f.spoken) :
    Reads f g text where
  state := h.state
  recordIndex := h.recordIndex.trans hindex
  current := h.current
  spoken := by rw [h.spoken, hspoken, hindex]

/-- A record that is given up shows no more. -/
theorem reads_abandon (f : Feed) (htext : '\n' ∉ text) :
    Reads f (text.foldl Feed.step f.abandon) [] := by
  rw [foldl_skip rfl htext]
  refine ⟨Or.inl rfl, ?_, Feed.flush_current f, ?_⟩
  · show f.flush.parser.recordIndex = _
    rw [Feed.parser_flush]
  · have hcurrent : f.abandon.current = [] := Feed.flush_current f
    have hemitted : spokenOf f.abandon.emitted = f.spoken := Feed.spoken_flush f
    rw [Feed.spoken, hcurrent, hemitted]
    rfl

/-- Behind the closing quote nothing is shown. -/
theorem reads_suffix (hstate : f.parser.state = .suffix) (hcurrent : f.current = [])
    (hne : text ≠ []) (htext : '\n' ∉ text) :
    Reads f (text.foldl Feed.step f) [] := by
  cases text with
  | nil => exact absurd rfl hne
  | cons c rest =>
    have hrest : '\n' ∉ rest := fun hmem => htext (List.mem_cons_of_mem c hmem)
    have hskip : Reads f (rest.foldl Feed.step (f.goto .skip)) [] := by
      rw [foldl_skip rfl hrest]
      exact ⟨Or.inl rfl, rfl, hcurrent, (List.append_nil _).symm⟩
    rw [List.foldl_cons, Feed.step, hstate]
    dsimp only
    split
    · cases rest with
      | nil => exact ⟨Or.inr (Or.inl rfl), rfl, hcurrent, (List.append_nil _).symm⟩
      | cons d rest =>
        have hd : d ≠ '\n' := fun hd => hrest (hd ▸ List.mem_cons_self)
        have hstep : (f.goto .newline).step d = (f.goto .skip).step d := by
          simp [Feed.step, Feed.goto, hd, Feed.skipFrom]
        rw [List.foldl_cons, hstep]
        exact hskip
    · exact hskip

/-! ## Escapes -/

/-- Four digits behind `u`: what they make. -/
theorem foldl_unicode (hstate : f.parser.state = .unicode) (hunicode : f.parser.unicode = [])
    {a b d : Char} (h : decodeHex a b c d = some n) :
    ∃ f' : Feed, f'.spoken = f.spoken ∧ f'.parser.recordIndex = f.parser.recordIndex ∧
      [a, b, c, d].foldl Feed.step f =
        if 0xD800 ≤ n ∧ n ≤ 0xDBFF then
          { f'.goto .lowSlash with parser.highSurrogate := some n }
        else if 0xDC00 ≤ n ∧ n ≤ 0xDFFF then f'.abandon
        else f'.emit (Char.ofNat n) := by
  obtain ⟨ha, hb, hc, hd, rfl⟩ := hexValue_of_decodeHex h
  obtain ⟨_, ha⟩ := Option.isSome_iff_exists.1 ha
  obtain ⟨_, hb⟩ := Option.isSome_iff_exists.1 hb
  obtain ⟨_, hc⟩ := Option.isSome_iff_exists.1 hc
  obtain ⟨_, hd⟩ := Option.isSome_iff_exists.1 hd
  refine ⟨{ f with parser.unicode := [a, b, c, d] }, rfl, rfl, ?_⟩
  simp [Feed.step, Feed.digit, hstate, hunicode, ha, hb, hc, hd]

/-- Four digits behind the `u` of a second half. -/
theorem foldl_lowUnicode (hstate : f.parser.state = .lowUnicode) (hunicode : f.parser.unicode = [])
    {high : Nat} (hhigh : f.parser.highSurrogate = some high)
    {a b d : Char} (h : decodeHex a b c d = some n) :
    ∃ f' : Feed, f'.spoken = f.spoken ∧ f'.parser.recordIndex = f.parser.recordIndex ∧
      [a, b, c, d].foldl Feed.step f =
        if 0xDC00 ≤ n ∧ n ≤ 0xDFFF then
          f'.emit (Char.ofNat (0x10000 + (high - 0xD800) * 1024 + (n - 0xDC00)))
        else f'.abandon := by
  obtain ⟨ha, hb, hc, hd, rfl⟩ := hexValue_of_decodeHex h
  obtain ⟨_, ha⟩ := Option.isSome_iff_exists.1 ha
  obtain ⟨_, hb⟩ := Option.isSome_iff_exists.1 hb
  obtain ⟨_, hc⟩ := Option.isSome_iff_exists.1 hc
  obtain ⟨_, hd⟩ := Option.isSome_iff_exists.1 hd
  by_cases hlow : 0xDC00 ≤ hexValue [a, b, c, d] ∧ hexValue [a, b, c, d] ≤ 0xDFFF
  · refine ⟨{ f with parser.unicode := [a, b, c, d], parser.highSurrogate := none }, rfl, rfl, ?_⟩
    simp [Feed.step, Feed.digit, hstate, hunicode, hhigh, ha, hb, hc, hd, hlow]
  · refine ⟨{ f with parser.unicode := [a, b, c, d] }, rfl, rfl, ?_⟩
    simp [Feed.step, Feed.digit, hstate, hunicode, hhigh, ha, hb, hc, hd, hlow]

/-! ## Strings -/

/-- Half a character is not completed by another first half. -/
theorem scalars_joinHalf_high (high half : Fin 2048) (hhalf : half.val < 1024)
    (rest : PyStr) :
    scalars (joinHalf (.surrogate high) (joinHalf (.surrogate half) rest)) = [] := by
  have hlow : ¬1024 ≤ half.val := by omega
  cases rest with
  | nil => simp [joinHalf, scalars, hlow]
  | cons c others =>
    cases c with
    | scalar c => simp [joinHalf, scalars, hlow]
    | surrogate low =>
      by_cases hpair : half.val < 1024 ∧ 1024 ≤ low.val
      · simp [joinHalf, scalars, hpair]
      · simp [joinHalf, scalars, hlow, hpair]

/-- Half a character is not completed by what is no second half. -/
theorem scalars_joinHalf_of_not_low (high : Fin 2048) (hn : ¬(0xDC00 ≤ n ∧ n ≤ 0xDFFF))
    (rest : PyStr) : scalars (joinHalf (.surrogate high) (joinHalf (.ofNat n) rest)) = [] := by
  unfold CodePoint.ofNat
  split
  · next hsurrogate =>
    have hhalf : n - 0xD800 < 1024 := by omega
    exact scalars_joinHalf_high high ⟨n - 0xD800, by omega⟩ hhalf rest
  · rfl

/-- A second half stays alone, when no first one stands in front. -/
theorem joinHalf_low (hn : 0xDC00 ≤ n ∧ n ≤ 0xDFFF) (rest : PyStr) :
    joinHalf (.ofNat n) rest = .surrogate ⟨n - 0xD800, by omega⟩ :: rest := by
  have hsurrogate : CodePoint.ofNat n = .surrogate ⟨n - 0xD800, by omega⟩ := dif_pos (by omega)
  have hlow : 1024 ≤ n - 0xD800 := by omega
  rw [hsurrogate]
  cases rest with
  | nil => rfl
  | cons c others =>
    cases c with
    | scalar c => rfl
    | surrogate low => simp [joinHalf, Nat.not_lt.2 hlow]

/-- A first half is completed by a second one. -/
theorem scalars_joinHalf_of_low {high : Fin 2048} (hhigh : high.val < 1024)
    (hn : 0xDC00 ≤ n ∧ n ≤ 0xDFFF) (rest : PyStr) :
    scalars (joinHalf (.surrogate high) (joinHalf (.ofNat n) rest)) =
      joined high (n - 0xD800) :: scalars rest := by
  have hlow : 1024 ≤ n - 0xD800 := by omega
  rw [joinHalf_low hn]
  simp [joinHalf, scalars, hhigh, hlow]

/-- Behind the header the parser decodes a string; behind a first half it waits for the second. -/
theorem reads_string {rest : List Char} {s : PyStr} (h : StringText rest text s)
    (hne : rest ≠ []) (htext : '\n' ∉ text) :
    (∀ f : Feed, f.parser.state = .text → Reads f (text.foldl Feed.step f) (scalars s)) ∧
      ∀ (f : Feed) (high : Fin 2048), high.val < 1024 → f.parser.state = .lowSlash →
        f.parser.highSurrogate = some (0xD800 + high.val) →
        Reads f (text.foldl Feed.step f) (scalars (joinHalf (.surrogate high) s)) := by
  induction h with
  | quote =>
    have hrest : '\n' ∉ rest := fun hmem => htext (List.mem_cons_of_mem _ hmem)
    refine ⟨fun f hstate => ?_, fun f high hhigh hstate _ => ?_⟩
    · have hstep : f.step '"' = f.flush.goto .suffix := by simp [Feed.step, hstate]
      rw [List.foldl_cons, hstep]
      have h := reads_suffix (f := f.flush.goto .suffix) rfl (Feed.flush_current f) hne hrest
      refine h.of_eq ?_ (Feed.flush_spoken f)
      show f.flush.parser.recordIndex = _
      rw [Feed.parser_flush]
    · have hstep : f.step '"' = f.abandon := by simp [Feed.step, hstate]
      rw [List.foldl_cons, hstep]
      exact reads_abandon f hrest
  | @unicode a b c d n text s hn _ ih =>
    have hrest : '\n' ∉ text := fun hmem => htext (by simp [hmem])
    obtain ⟨htextState, hlowState⟩ := ih hrest
    have hlt := decodeHex_lt hn
    have hsplit : '\\' :: 'u' :: a :: b :: c :: d :: text = ['\\', 'u'] ++ ([a, b, c, d] ++ text) := rfl
    rw [hsplit]
    refine ⟨fun f hstate => ?_, fun f high hhigh hstate hsurrogate => ?_⟩
    · have hslash : ['\\', 'u'].foldl Feed.step f =
          { f.goto .unicode with parser.unicode := [] } := by
        simp [Feed.step, Feed.goto, hstate]
      obtain ⟨f', hspoken, hindex, hsteps⟩ :=
        foldl_unicode (f := { f.goto .unicode with parser.unicode := [] }) rfl rfl hn
      rw [List.foldl_append, List.foldl_append, hslash, hsteps]
      by_cases hhigh : 0xD800 ≤ n ∧ n ≤ 0xDBFF
      · have hcode : CodePoint.ofNat n = .surrogate ⟨n - 0xD800, by omega⟩ := dif_pos (by omega)
        have hvalue : some n = some (0xD800 + (n - 0xD800)) := by rw [Nat.add_sub_cancel' hhigh.1]
        rw [if_pos hhigh, hcode]
        exact (hlowState { f'.goto .lowSlash with parser.highSurrogate := some n }
          ⟨n - 0xD800, by omega⟩ (by show n - 0xD800 < 1024; omega) rfl hvalue).of_eq hindex hspoken
      · rw [if_neg hhigh]
        by_cases hlow : 0xDC00 ≤ n ∧ n ≤ 0xDFFF
        · rw [if_pos hlow, joinHalf_low hlow]
          exact (reads_abandon f' hrest).of_eq hindex hspoken
        · have hcode : CodePoint.ofNat n = .scalar (Char.ofNat n) := dif_neg (by omega)
          rw [if_neg hlow, hcode]
          exact (htextState _ rfl).cons.of_eq hindex hspoken
    · have hslash : ['\\', 'u'].foldl Feed.step f =
          { f.goto .lowUnicode with parser.unicode := [] } := by
        simp [Feed.step, Feed.goto, hstate]
      obtain ⟨f', hspoken, hindex, hsteps⟩ :=
        foldl_lowUnicode (f := { f.goto .lowUnicode with parser.unicode := [] }) rfl rfl hsurrogate hn
      rw [List.foldl_append, List.foldl_append, hslash, hsteps]
      by_cases hlow : 0xDC00 ≤ n ∧ n ≤ 0xDFFF
      · have hchar : Char.ofNat (0x10000 + (0xD800 + high.val - 0xD800) * 1024 + (n - 0xDC00)) =
            joined high (n - 0xD800) := by
          rw [joined, Nat.add_sub_cancel_left, Nat.sub_sub]
        rw [if_pos hlow, hchar, scalars_joinHalf_of_low hhigh hlow]
        exact (htextState _ rfl).cons.of_eq hindex hspoken
      · rw [if_neg hlow, scalars_joinHalf_of_not_low high hlow]
        exact (reads_abandon f' hrest).of_eq hindex hspoken
  | @escape c decoded text s hc hdecoded _ ih =>
    have hrest : '\n' ∉ text := fun hmem => htext (by simp [hmem])
    refine ⟨fun f hstate => ?_, fun f high hhigh hstate hsurrogate => ?_⟩
    · have hsteps : (f.step '\\').step c = (f.goto .escape).emit decoded := by
        have hslash : f.step '\\' = f.goto .escape := by simp [Feed.step, hstate]
        rw [hslash]
        simp [Feed.step, Feed.goto, hc, escaped_eq, hdecoded]
      rw [List.foldl_cons, List.foldl_cons, hsteps]
      exact ((ih hrest).1 _ rfl).cons.of_eq rfl rfl
    · have hsteps : (f.step '\\').step c = (f.goto .lowU).abandon := by
        have hslash : f.step '\\' = f.goto .lowU := by simp [Feed.step, hstate]
        rw [hslash]
        simp [Feed.step, Feed.goto, hc]
      rw [List.foldl_cons, List.foldl_cons, hsteps]
      exact (reads_abandon _ hrest).of_eq rfl rfl
  | @char c text s hquote hslash hcontrol _ ih =>
    have hrest : '\n' ∉ text := fun hmem => htext (by simp [hmem])
    refine ⟨fun f hstate => ?_, fun f high hhigh hstate hsurrogate => ?_⟩
    · have hstep : f.step c = f.emit c := by simp [Feed.step, hstate, hquote, hslash, hcontrol]
      rw [List.foldl_cons, hstep]
      exact ((ih hrest).1 _ rfl).cons
    · have hstep : f.step c = f.abandon := by simp [Feed.step, hstate, hslash]
      rw [List.foldl_cons, hstep]
      exact reads_abandon f hrest

/-! ## The header -/

theorem header_eq : header =
    ['\x7b', '"', 'v', '"', ':', '1', ',', '"', 't', 'y', 'p', 'e', '"', ':',
      '"', 'p', 'r', 'o', 'g', 'r', 'e', 's', 's', '"', ',', '"', 't', 'e', 'x', 't', '"', ':', '"'] := by
  decide

/-- The members a compact line begins with. -/
def headerMembers (text : PyStr) : PyJson.Object :=
  [(PyStr.ofChars "v".toList, .int 1),
    (PyStr.ofChars "type".toList, .str (PyStr.ofChars "progress".toList)),
    (PyStr.ofChars "text".toList, .str text)]

/-- `json.loads`, of a line that begins with the header. -/
theorem scanOnce_header {toFloat : List Char → PyFloat} {budget : Nat} (rest : List Char) :
    scanOnce toFloat (budget + 5) (header ++ rest) =
      (scanString rest).bind fun r => membersBehind toFloat (budget + 1) (headerMembers r.1) r.2 := by
  have hv (rest) : scanString ('v' :: '"' :: rest) = some (PyStr.ofChars "v".toList, rest) := rfl
  have htype (rest) : scanString ('t' :: 'y' :: 'p' :: 'e' :: '"' :: rest) =
      some (PyStr.ofChars "type".toList, rest) := rfl
  have hprogress (rest) : scanString ('p' :: 'r' :: 'o' :: 'g' :: 'r' :: 'e' :: 's' :: 's' :: '"' :: rest) =
      some (PyStr.ofChars "progress".toList, rest) := rfl
  have htext (rest) : scanString ('t' :: 'e' :: 'x' :: 't' :: '"' :: rest) =
      some (PyStr.ofChars "text".toList, rest) := rfl
  simp only [header_eq, List.cons_append, List.nil_append]
  rw [scanOnce_members, scanMembers_member (hv _) rfl, scanOnce_one]
  show scanMembers toFloat (budget + 3) _ ('"' :: 't' :: _) = _
  rw [scanMembers_member (htype _) rfl, scanOnce_quote, hprogress]
  show scanMembers toFloat (budget + 2) _ ('"' :: 't' :: _) = _
  rw [scanMembers_member (htext _) rfl, scanOnce_quote]
  cases scanString rest <;> rfl

/-- The header is recognised character by character. -/
theorem foldl_header {front back : List Char} (hheader : header = front ++ back) (hne : back ≠ [])
    (hstate : f.parser.state = .header) (hindex : f.parser.headerIndex = front.length)
    (rest : List Char) :
    ∃ f' : Feed, f'.parser.state = .text ∧ f'.parser.recordIndex = f.parser.recordIndex ∧
      f'.spoken = f.spoken ∧ (back ++ rest).foldl Feed.step f = rest.foldl Feed.step f' := by
  induction back generalizing front f with
  | nil => exact absurd rfl hne
  | cons c back ih =>
    have hc : header[f.parser.headerIndex]? = some c := by rw [hindex, hheader]; simp
    have hlength : header.length = front.length + (back.length + 1) := by rw [hheader]; simp
    rw [List.cons_append, List.foldl_cons]
    cases back with
    | nil =>
      have hlast : f.parser.headerIndex + 1 = header.length := by simp [hindex, hlength]
      have hstep : f.step c =
          ({ f with parser.headerIndex := f.parser.headerIndex + 1 } : Feed).goto .text := by
        simp [Feed.step, hstate, hc, hlast]
      refine ⟨({ f with parser.headerIndex := f.parser.headerIndex + 1 } : Feed).goto .text,
        rfl, rfl, rfl, ?_⟩
      rw [hstep, List.nil_append]
    | cons d back =>
      have hmore : f.parser.headerIndex + 1 ≠ header.length := by
        simp only [hindex, hlength, List.length_cons]
        omega
      have hstep : f.step c = { f with parser.headerIndex := f.parser.headerIndex + 1 } := by
        simp [Feed.step, hstate, hc, hmore]
      have hfront : header = (front ++ [c]) ++ d :: back := by rw [hheader]; simp
      obtain ⟨f', hstate', hrecord', hspoken', hrun⟩ :=
        ih (f := { f with parser.headerIndex := f.parser.headerIndex + 1 }) hfront (by simp)
          hstate (by simp [hindex])
      rw [hstep]
      exact ⟨f', hstate', hrecord', hspoken', hrun⟩

/-- A line that does not go on as the header does is skipped. -/
theorem reads_of_not_header {front back : List Char} (hheader : header = front ++ back)
    (hstate : f.parser.state = .header) (hindex : f.parser.headerIndex = front.length)
    (hcurrent : f.current = []) (hother : ¬back <+: text) (htext : '\n' ∉ text) :
    Reads f (text.foldl Feed.step f) [] := by
  induction text generalizing front back f with
  | nil => exact ⟨Or.inr (Or.inr hstate), rfl, hcurrent, (List.append_nil _).symm⟩
  | cons c text ih =>
    have hrest : '\n' ∉ text := fun hmem => htext (List.mem_cons_of_mem c hmem)
    cases back with
    | nil => exact absurd List.nil_prefix hother
    | cons d back =>
      have hd : header[f.parser.headerIndex]? = some d := by rw [hindex, hheader]; simp
      rw [List.foldl_cons]
      by_cases hcd : c = d
      · subst hcd
        have hback : ¬back <+: text := fun h => hother (List.cons_prefix_cons.2 ⟨rfl, h⟩)
        have hlength : header.length = front.length + (back.length + 1) := by rw [hheader]; simp
        have hmore : f.parser.headerIndex + 1 ≠ header.length := by
          cases back with
          | nil => exact absurd List.nil_prefix hback
          | cons e back =>
            simp only [hindex, hlength, List.length_cons]
            omega
        have hstep : f.step c = { f with parser.headerIndex := f.parser.headerIndex + 1 } := by
          simp [Feed.step, hstate, hd, hmore]
        have hfront : header = (front ++ [c]) ++ back := by rw [hheader]; simp
        rw [hstep]
        exact (ih (f := { f with parser.headerIndex := f.parser.headerIndex + 1 }) hfront hstate
          (by simp [hindex]) hcurrent hback hrest).of_eq rfl rfl
      · have hc : c ≠ '\n' := fun hc => htext (hc ▸ List.mem_cons_self)
        have hstep : f.step c = f.goto .skip := by
          simp [Feed.step, hstate, hd, Ne.symm hcd, Feed.skipFrom, hc]
        rw [hstep, foldl_skip rfl hrest]
        exact ⟨Or.inl rfl, rfl, hcurrent, (List.append_nil _).symm⟩

/-! ## Lines -/

/-- A line whose text can be read, if it begins with the header. -/
def Legible (line : List Char) : Prop :=
  ∀ rest, behindHeader line = some rest → ∃ r, scanString rest = some r ∧ r.2 ≠ []

theorem behindHeader_eq_some {line rest : List Char} (h : behindHeader line = some rest) :
    line = header ++ rest := by
  unfold behindHeader at h
  split at h
  · next hheader =>
    cases h
    exact (List.prefix_iff_eq_append.1 hheader).symm
  · cases h

/-- At the beginning of line number `index`. -/
structure Fresh (index : Nat) (f : Feed) : Prop where
  parser : f.parser = { recordIndex := index }
  current : f.current = []

/-- **A line shows its public text.** -/
theorem reads_line {index : Nat} (hf : Fresh index f) {line : List Char} (hline : '\n' ∉ line)
    (hlegible : Legible line) : Reads f (line.foldl Feed.step f) (publicText line) := by
  have hstate : f.parser.state = .header := by rw [hf.parser]
  have hindex : f.parser.headerIndex = ([] : List Char).length := by rw [hf.parser]; rfl
  unfold publicText
  cases hbehind : behindHeader line with
  | none =>
    have hother : ¬header <+: line := fun hheader => by
      rw [behindHeader, if_pos hheader] at hbehind
      cases hbehind
    exact reads_of_not_header (List.nil_append header).symm hstate hindex hf.current hother hline
  | some rest =>
    obtain ⟨⟨s, behind⟩, hscan, hne⟩ := hlegible rest hbehind
    have heq := behindHeader_eq_some hbehind
    have hrest : '\n' ∉ rest := fun hmem => hline (heq ▸ List.mem_append_right _ hmem)
    obtain ⟨f', hstate', hrecord', hspoken', hrun⟩ :=
      foldl_header (List.nil_append header).symm (by decide) hstate hindex rest
    rw [Option.bind_some, hscan, heq, hrun]
    exact ((reads_string (stringText_of_scanString hscan) hne hrest).1 f' hstate').of_eq
      hrecord' hspoken'

/-- The line feed behind a line begins the next. -/
theorem Reads.feed (h : Reads f g text) :
    Fresh (f.parser.recordIndex + 1) (g.step '\n') ∧
      (g.step '\n').spoken = f.spoken ++ text.map (f.parser.recordIndex, ·) := by
  have hstep : g.step '\n' = { g with parser := g.parser.nextRecord } := by
    rcases h.state with hstate | hstate | hstate
    · simp [Feed.step, hstate, Feed.skipFrom]
    · simp [Feed.step, hstate]
    · have hheader : header[g.parser.headerIndex]? ≠ some '\n' := fun hmem =>
        absurd (List.mem_of_getElem? hmem) (by decide)
      simp [Feed.step, hstate, Feed.skipFrom, hheader]
  rw [hstep]
  refine ⟨⟨?_, h.current⟩, ?_⟩
  · show ({ recordIndex := g.parser.recordIndex + 1 } : PlanningTextDeltaParser) = _
    rw [h.recordIndex]
  · rw [← h.spoken]
    simp [Feed.spoken, h.current]

/-- The public texts of some lines, numbered from `index` on. -/
def shown : Nat → List String → List (Nat × Char)
  | _, [] => []
  | index, line :: rest => (publicText line.toList).map (index, ·) ++ shown (index + 1) rest

/-- The text of some lines. -/
def unlines (lines : List String) : List Char := lines.flatMap fun line => line.toList ++ ['\n']

/-- All lines show their public texts. -/
theorem spoken_lines {index : Nat} (hf : Fresh index f) {lines : List String}
    (hlines : ∀ line ∈ lines, '\n' ∉ line.toList ∧ Legible line.toList) :
    Fresh (index + lines.length) ((unlines lines).foldl Feed.step f) ∧
      ((unlines lines).foldl Feed.step f).spoken = f.spoken ++ shown index lines := by
  induction lines generalizing index f with
  | nil => exact ⟨hf, (List.append_nil _).symm⟩
  | cons line rest ih =>
    obtain ⟨hline, hlegible⟩ := hlines line List.mem_cons_self
    have hindex : f.parser.recordIndex = index := by rw [hf.parser]
    obtain ⟨hnext, hspoken⟩ := (reads_line hf hline hlegible).feed
    rw [hindex] at hnext hspoken
    obtain ⟨hfresh, hrest⟩ := ih hnext fun line hmem => hlines line (List.mem_cons_of_mem _ hmem)
    have hsplit : unlines (line :: rest) = line.toList ++ ('\n' :: unlines rest) := by
      simp [unlines]
    rw [hsplit, List.foldl_append, List.foldl_cons, hrest, hspoken]
    refine ⟨?_, ?_⟩
    · rw [List.length_cons, ← Nat.add_assoc, Nat.add_right_comm]
      exact hfresh
    · rw [shown, List.append_assoc]

end PlanningTextDeltaParser

end Purra.Output
