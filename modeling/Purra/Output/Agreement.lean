import Purra.Output.PlanningChunks
import Purra.Output.PublicText

/-!
# Do the planning parsers agree?

The record parser numbers the records of a text and passes over its blank lines; the delta
parser numbers the lines.  So a record and the text shown for its number belong together as
long as no blank line stands before it.

* `records_of_accepted` — where a progress record comes from, and how it is numbered.
* `textOf_eq_publicText` — the text shown for a number is that of the line so numbered.
* `planning_parsers_agree` — the text shown for a record's number is the record's just if
  the line of that number has the record's text.
* `blank_line_shifts` — a blank line before a record is enough for them to differ.
-/

namespace Purra.Output

open JsonText

namespace PlanningTextDeltaParser

/-! ## The line that has not ended -/

variable {f g h : Feed}

/-- Nothing but characters of the same record has been decoded since. -/
structure Onward (f g : Feed) : Prop where
  recordIndex : g.parser.recordIndex = f.parser.recordIndex
  spoken : ∃ more : List Char, g.spoken = f.spoken ++ more.map (f.parser.recordIndex, ·)

theorem Onward.of_eq (hindex : g.parser.recordIndex = f.parser.recordIndex)
    (hspoken : g.spoken = f.spoken) : Onward f g :=
  ⟨hindex, [], by rw [hspoken, List.map_nil, List.append_nil]⟩

theorem Onward.trans (hfg : Onward f g) (hgh : Onward g h) : Onward f h := by
  obtain ⟨front, hfront⟩ := hfg.spoken
  obtain ⟨back, hback⟩ := hgh.spoken
  refine ⟨hgh.recordIndex.trans hfg.recordIndex, front ++ back, ?_⟩
  rw [hback, hfront, hfg.recordIndex, List.map_append, List.append_assoc]

theorem Onward.refl (f : Feed) : Onward f f := .of_eq rfl rfl

/-- A step that changes the parser only, within the record. -/
theorem Onward.go (hfg : Onward f g) {p : PlanningTextDeltaParser}
    (hp : p.recordIndex = g.parser.recordIndex) : Onward f { g with parser := p } := by
  refine hfg.trans (.of_eq hp ?_)
  show _ ++ g.current.map (p.recordIndex, ·) = _
  rw [hp]
  rfl

theorem Onward.goto (hfg : Onward f g) (state : DeltaState) : Onward f (g.goto state) := hfg.go rfl

theorem Onward.flush (hfg : Onward f g) : Onward f g.flush :=
  hfg.trans (.of_eq (by rw [Feed.parser_flush]) (Feed.flush_spoken g))

theorem Onward.abandon (hfg : Onward f g) : Onward f g.abandon := hfg.flush.goto .skip

theorem Onward.emit (hfg : Onward f g) (c : Char) : Onward f (g.emit c) :=
  hfg.trans ⟨rfl, [c], spoken_emit g c⟩

theorem Onward.skipFrom (hfg : Onward f g) {c : Char} (hc : c ≠ '\n') : Onward f (g.skipFrom c) := by
  rw [Feed.skipFrom, if_neg hc]
  exact hfg.goto .skip

theorem Onward.digit (hfg : Onward f g) {c : Char} {complete : Feed → Nat → Feed}
    (hcomplete : ∀ g n, Onward f g → Onward f (complete g n)) :
    Onward f (g.digit c complete) := by
  unfold Feed.digit
  split
  · exact hfg.abandon
  · dsimp only
    split
    · exact hfg.go rfl
    · exact hcomplete _ _ (hfg.go rfl)

/-- Without a line feed the record stays the same. -/
theorem Onward.step (f : Feed) {c : Char} (hc : c ≠ '\n') : Onward f (f.step c) := by
  have hf := Onward.refl f
  unfold Feed.step
  cases f.parser.state with
  | skip => exact hf.skipFrom hc
  | header =>
    dsimp only
    split
    · split
      · exact hf.trans (.of_eq rfl rfl)
      · exact hf.go rfl
    · exact hf.skipFrom hc
  | text =>
    dsimp only
    split
    · exact hf.goto .escape
    · split
      · exact hf.flush.goto .suffix
      · split
        · exact hf.abandon
        · exact hf.emit c
  | escape =>
    dsimp only
    split
    · exact (hf.goto .unicode).go rfl
    · split
      · exact hf.emit _
      · exact hf.abandon
  | unicode =>
    refine hf.digit fun g n hg => ?_
    split
    · exact (hg.goto .lowSlash).go rfl
    · split
      · exact hg.abandon
      · exact hg.emit _
  | lowSlash =>
    dsimp only
    split
    · exact hf.goto .lowU
    · exact hf.abandon
  | lowU =>
    dsimp only
    split
    · exact (hf.goto .lowUnicode).go rfl
    · exact hf.abandon
  | lowUnicode =>
    refine hf.digit fun g n hg => ?_
    dsimp only
    split
    · split
      · refine Onward.emit ?_ _
        exact hg.go rfl
      · exact hg.abandon
    · exact hg.abandon
  | suffix =>
    dsimp only
    split <;> exact hf.goto _
  | newline =>
    dsimp only
    rw [if_neg hc]
    exact hf.goto .skip

theorem Onward.foldl (f : Feed) {text : List Char} (htext : '\n' ∉ text) :
    Onward f (text.foldl Feed.step f) := by
  induction text generalizing f with
  | nil => exact .refl f
  | cons c rest ih =>
    have hc : c ≠ '\n' := fun hc => htext (hc ▸ List.mem_cons_self)
    exact (Onward.step f hc).trans (ih _ fun hmem => htext (List.mem_cons_of_mem c hmem))

end PlanningTextDeltaParser

/-! ## Lines -/

open PlanningTextDeltaParser

/-- Splitting is undone by putting the line feeds back. -/
theorem unlines_splitLines (current text : List Char) :
    unlines (splitLines current text).1 ++ (splitLines current text).2.toList = current ++ text := by
  induction text generalizing current with
  | nil => simp [splitLines, unlines]
  | cons c text ih =>
    by_cases hc : c = '\n'
    · have hrest := ih []
      simp only [splitLines, if_pos hc]
      rw [List.nil_append] at hrest
      simp only [unlines, List.flatMap_cons, List.append_assoc] at hrest ⊢
      rw [hrest, hc]
      simp
    · simp only [splitLines, if_neg hc, ih]
      simp

/-- No line has a line feed in it. -/
theorem not_mem_of_mem_splitLines {current : List Char} (h : '\n' ∉ current) (text : List Char) :
    ∀ line ∈ (splitLines current text).1, '\n' ∉ line.toList := by
  induction text generalizing current with
  | nil => intro line hline; simp [splitLines] at hline
  | cons c text ih =>
    by_cases hc : c = '\n'
    · simp only [splitLines, if_pos hc, List.mem_cons]
      rintro line (rfl | hline)
      · simpa using h
      · exact ih (by simp) line hline
    · simp only [splitLines, if_neg hc]
      exact ih (by simpa [h] using Ne.symm hc)

/-- Lines are told apart by where they start. -/
theorem front_of_start {lines front front' back back' : List String} {line line' : String}
    (h : lines = front ++ line :: back) (h' : lines = front' ++ line' :: back')
    (hstart : (front.map lineSize).sum = (front'.map lineSize).sum) : front = front' := by
  induction lines generalizing front front' with
  | nil => simp at h
  | cons first rest ih =>
    have hpos : ∀ line : String, 0 < lineSize line := fun line => by
      unfold lineSize
      rw [String.utf8ByteSize_append]
      exact Nat.lt_of_lt_of_le (by decide) (Nat.le_add_left _ _)
    cases front with
    | nil =>
      cases front' with
      | nil => rfl
      | cons second others =>
        have := hpos second
        simp only [List.map_nil, List.sum_nil, List.map_cons, List.sum_cons] at hstart
        omega
    | cons second others =>
      cases front' with
      | nil =>
        have := hpos second
        simp only [List.map_nil, List.sum_nil, List.map_cons, List.sum_cons] at hstart
        omega
      | cons second' others' =>
        obtain ⟨rfl, hrest⟩ := List.cons.inj h
        obtain ⟨rfl, hrest'⟩ := List.cons.inj h'
        simp only [List.map_cons, List.sum_cons, Nat.add_left_cancel_iff] at hstart
        rw [ih hrest hrest' hstart]

/-! ## Records -/

/-- The lines of some records that are not blank. -/
def nonBlank (lines : List String) : Nat := lines.countP fun line => strip line ≠ ""

namespace PlanningStreamParser

variable {loads : String → Except PyError PyJson} {p p' : PlanningStreamParser}

/-- Blank lines are passed over; others are records, and are numbered. -/
theorem acceptRecord_cases {line : String} {size : Nat} {progress : Option PlanningProgress}
    (h : acceptRecord loads p line size = .ok (progress, p')) :
    (strip line = "" ∧ progress = none ∧ p'.records = p.records) ∨
      strip line ≠ "" ∧ p'.records = p.records + 1 ∧ ∃ row, loads line = .ok (.obj row) ∧
        ∀ r ∈ progress, r.recordIndex = p.records + 1 ∧ r.sourceStart = p.consumed ∧
          r.sourceEnd = p.consumed + size ∧ progressText (PyJson.get row "text") = some r.text := by
  simp only [acceptRecord] at h
  repeat' split at h
  case isFalse.isTrue =>
    cases h
    exact Or.inl ⟨‹_›, rfl, rfl⟩
  all_goals first
    | (cases h; done)
    | (cases h
       refine Or.inr ⟨‹_›, rfl, _, ‹_›, fun r hr => ?_⟩
       cases hr)
  exact ⟨rfl, rfl, rfl, ‹_›⟩

/-- A progress record of some lines, the first of which stands at byte `start` and behind
`number` records. -/
structure RecordOf (loads : String → Except PyError PyJson) (start number : Nat)
    (lines : List String) (r : PlanningProgress) : Prop where
  row : ∃ front line back row, lines = front ++ line :: back ∧
    r.sourceStart = start + (front.map lineSize).sum ∧ r.recordIndex = number + nonBlank front + 1 ∧
    loads line = .ok (.obj row) ∧ progressText (PyJson.get row "text") = some r.text

theorem RecordOf.cons {start number : Nat} {line : String} {lines : List String}
    {r : PlanningProgress}
    (h : RecordOf loads (start + lineSize line) (number + nonBlank [line]) lines r) :
    RecordOf loads start number (line :: lines) r := by
  obtain ⟨front, own, back, row, rfl, hstart, hindex, hrow, htext⟩ := h.row
  refine ⟨line :: front, own, back, row, rfl, ?_, ?_, hrow, htext⟩
  · rw [hstart, List.map_cons, List.sum_cons, Nat.add_assoc]
  · have hcount : nonBlank (line :: front) = nonBlank [line] + nonBlank front := by
      unfold nonBlank
      rw [← List.singleton_append, List.countP_append]
    rw [hindex, hcount, ← Nat.add_assoc]

/-- Where the records of accepted lines come from; a line that is not blank is an object. -/
theorem records_of_accepted {lines : List String} {progress : List PlanningProgress}
    (h : accepted loads p lines = some (progress, p')) :
    (∀ line ∈ lines, strip line = "" ∨ ∃ row, loads line = .ok (.obj row)) ∧
      ∀ r ∈ progress, RecordOf loads p.consumed p.records lines r := by
  induction lines generalizing p progress with
  | nil =>
    cases h
    exact ⟨fun line hline => (by cases hline), fun r hr => (by cases hr)⟩
  | cons line rest ih =>
    rw [accepted_cons] at h
    obtain ⟨⟨own, q⟩, hrecord, h⟩ := Option.bind_eq_some_iff.1 h
    obtain ⟨⟨others, q'⟩, hrest, h⟩ := Option.map_eq_some_iff.1 h
    cases h
    have hok : acceptRecord loads p line (lineSize line) = .ok (own, q) := by
      cases hrecord' : acceptRecord loads p line (lineSize line) with
      | error e => rw [hrecord'] at hrecord; cases hrecord
      | ok pair => rw [hrecord'] at hrecord; cases hrecord; rfl
    obtain ⟨-, hconsumed, -, -⟩ := acceptRecord_eq_ok hok
    obtain ⟨hlines, hrecords⟩ := ih hrest
    have hlater (hnumber : q.records = p.records + nonBlank [line]) (r) (hr : r ∈ others) :
        RecordOf loads p.consumed p.records (line :: rest) r := by
      have h := hrecords r hr
      rw [hconsumed, hnumber] at h
      exact h.cons
    rcases acceptRecord_cases hok with ⟨hblank, rfl, hnumber⟩ | ⟨hne, hnumber, row, hrow, hown⟩
    · refine ⟨List.forall_mem_cons.2 ⟨Or.inl hblank, hlines⟩, fun r hr => hlater ?_ r hr⟩
      simp [hnumber, nonBlank, hblank]
    · refine ⟨List.forall_mem_cons.2 ⟨Or.inr ⟨row, hrow⟩, hlines⟩, fun r hr => ?_⟩
      rcases List.mem_append.1 hr with hr | hr
      · obtain ⟨hindex, hstart, -, htext⟩ := hown r (by simpa using hr)
        exact ⟨[], line, rest, row, rfl, by simpa using hstart, by simpa [nonBlank] using hindex,
          hrow, htext⟩
      · exact hlater (by simp [hnumber, nonBlank, hne]) r hr

end PlanningStreamParser

/-! ## The decoder -/

section

variable {toFloat : List Char → PyFloat} {budget : Nat}

/-- `json.loads`, of a line that begins with the compact header. -/
theorem jsonLoads_header {line : String} {rest : List Char} {value : PyJson}
    (hline : behindHeader line.toList = some rest)
    (h : jsonLoads toFloat budget line = .ok value) :
    ∃ r, scanString rest = some r ∧ r.2 ≠ [] ∧
      (r.2 = ['\x7d'] → value = .obj (headerMembers r.1)) := by
  have hblank : line.toList.dropWhile isBlank = header ++ rest := by
    rw [behindHeader_eq_some hline, header_eq]
    rfl
  unfold jsonLoads at h
  rw [hblank] at h
  split at h
  · next v tail hscan =>
    split at h
    · cases h
      have hscan := scanOnce_add hscan 5
      rw [scanOnce_header] at hscan
      obtain ⟨r, hr, hscan⟩ := Option.bind_eq_some_iff.1 hscan
      refine ⟨r, hr, fun hempty => ?_, fun hend => ?_⟩
      · rw [hempty] at hscan
        cases hscan
      · rw [hend] at hscan
        cases hscan
        rfl
    · cases h
  · cases h

/-- A line that is blank, or that the decoder accepts, is legible. -/
theorem legible_of_accepted {line : String}
    (h : strip line = "" ∨ ∃ row, jsonLoads toFloat budget line = .ok (.obj row)) :
    Legible line.toList := by
  intro rest hbehind
  rcases h with hblank | ⟨row, hrow⟩
  · have hempty : (strip line).toList = [] := by rw [hblank]; rfl
    rw [toList_strip, behindHeader_eq_some hbehind, header_eq] at hempty
    have hspace := List.rdropWhile_eq_nil_iff.1 hempty '\x7b' (by simp [isSpace])
    simp [isSpace] at hspace
  · obtain ⟨r, hr, hne, -⟩ := jsonLoads_header hbehind hrow
    exact ⟨r, hr, hne⟩

end

/-! ## Agreement -/

/-- The progress records the chunks of a text give, if all chunks are accepted. -/
def PlanningStreamParser.reported (loads : String → Except PyError PyJson) (chunks : List PyStr) :
    Option (List PlanningProgress) :=
  (feedChunks loads {} chunks).toOption.map Prod.fst

/-- The lines of a Provider text. -/
def linesOf (text : PyStr) : List String :=
  match text.chars? with
  | some chars => (splitLines [] chars).1
  | none => []

/-- The compact form the planning instruction prescribes of a progress record. -/
def Compact (line : String) : Prop :=
  ∃ rest s, behindHeader line.toList = some rest ∧ scanString rest = some (s, ['\x7d'])

theorem scalars_of_chars {s : PyStr} {chars : List Char} (h : s.chars? = some chars) :
    scalars s = chars := by
  rw [PyStr.eq_ofChars h]
  induction chars generalizing s with
  | nil => rfl
  | cons c rest ih => exact congrArg (c :: ·) (ih (PyStr.chars?_ofChars rest))

/-- The text of a compact progress record is the text its line shows. -/
theorem text_of_compact {toFloat : List Char → PyFloat} {budget : Nat} {line : String}
    {row : PyJson.Object} {text : String} (hcompact : Compact line)
    (hrow : jsonLoads toFloat budget line = .ok (.obj row))
    (htext : PlanningStreamParser.progressText (PyJson.get row "text") = some text) :
    text = String.ofList (publicText line.toList) := by
  obtain ⟨rest, s, hbehind, hscan⟩ := hcompact
  obtain ⟨r, hr, -, hvalue⟩ := jsonLoads_header hbehind hrow
  rw [hscan] at hr
  cases hr
  cases hvalue rfl
  have hget : PyJson.get (headerMembers s) "text" = some (.str s) := rfl
  rw [hget] at htext
  unfold PlanningStreamParser.progressText at htext
  cases hchars : s.chars? with
  | none =>
    simp only [hchars] at htext
    cases htext
  | some chars =>
    simp only [hchars] at htext
    split at htext
    · cases htext
    · cases htext
      rw [publicText, hbehind, Option.bind_some, hscan]
      show _ = String.ofList (scalars s)
      rw [scalars_of_chars hchars]

theorem filter_shown_of_lt {start number : Nat} (h : number < start) (lines : List String) :
    ((shown start lines).filter (·.1 = number)).map Prod.snd = [] := by
  induction lines generalizing start with
  | nil => rfl
  | cons first rest ih =>
    rw [shown, List.filter_append, List.map_append, filter_tagged, if_neg (by omega),
      ih (by omega), List.append_nil]

/-- The text shown for a line's number is the line's. -/
theorem filter_shown (start : Nat) {k : Nat} {lines : List String} {line : String}
    (h : lines[k]? = some line) :
    ((shown start lines).filter (·.1 = start + k)).map Prod.snd = publicText line.toList := by
  induction lines generalizing start k with
  | nil => cases h
  | cons first rest ih =>
    rw [shown, List.filter_append, List.map_append, filter_tagged]
    cases k with
    | zero =>
      cases h
      rw [if_pos (Nat.add_zero start).symm, filter_shown_of_lt (by omega), List.append_nil]
    | succ k =>
      have hnumber : start + (k + 1) = start + 1 + k := by omega
      rw [if_neg (by omega), hnumber, ih (start + 1) h, List.nil_append]

section

variable {toFloat : List Char → PyFloat} {budget : Nat} {chunks : List PyStr}
  {progress : List PlanningProgress}

/-- The lines of an accepted text, and what the record parser makes of them. -/
theorem accepted_of_reported {loads : String → Except PyError PyJson}
    (h : PlanningStreamParser.reported loads chunks = some progress) :
    ∃ chars p', chunks.flatten = PyStr.ofChars chars ∧
      linesOf chunks.flatten = (splitLines [] chars).1 ∧
      PlanningStreamParser.accepted loads {} (linesOf chunks.flatten) = some (progress, p') := by
  rw [PlanningStreamParser.reported, PlanningStreamParser.feedChunks_toOption,
    PlanningStreamParser.fed_sequential.feedAll_eq PlanningStreamParser.open_initial,
    PlanningStreamParser.fed_eq PlanningStreamParser.open_initial] at h
  obtain ⟨⟨progress, p⟩, hfed, rfl⟩ := Option.map_eq_some_iff.1 h
  obtain ⟨chars, hchars, hread⟩ := Option.bind_eq_some_iff.1 hfed
  have hlines : linesOf chunks.flatten = (splitLines [] chars).1 := by simp only [linesOf, hchars]
  refine ⟨chars, ?_⟩
  unfold PlanningStreamParser.readChars at hread
  split at hread
  · cases hread
  · obtain ⟨⟨others, p'⟩, haccepted, hread⟩ := Option.bind_eq_some_iff.1 hread
    split at hread
    · cases hread
    · cases hread
      exact ⟨p', PyStr.eq_ofChars hchars, hlines, by rw [hlines]; exact haccepted⟩

/-- The text shown for a number is that of the line so numbered. -/
theorem textOf_eq_publicText
    (h : PlanningStreamParser.reported (jsonLoads toFloat budget) chunks = some progress)
    {k : Nat} {line : String} (hline : (linesOf chunks.flatten)[k]? = some line) :
    textOf (k + 1) (PlanningTextDeltaParser.feedChunks {} chunks) =
      String.ofList (publicText line.toList) := by
  obtain ⟨chars, p', htext, hlines, haccepted⟩ := accepted_of_reported h
  have hlegible := (PlanningStreamParser.records_of_accepted haccepted).1
  rw [hlines] at hline hlegible
  have hfeed : ∀ line ∈ (splitLines [] chars).1, '\n' ∉ line.toList ∧ Legible line.toList :=
    fun line hmem => ⟨not_mem_of_mem_splitLines (by simp) chars line hmem,
      legible_of_accepted (hlegible line hmem)⟩
  have hlast : '\n' ∉ (splitLines [] chars).2.toList := not_mem_splitLines (by simp) chars
  have hsplit : chars = unlines (splitLines [] chars).1 ++ (splitLines [] chars).2.toList :=
    (unlines_splitLines [] chars).symm
  have hfresh : PlanningTextDeltaParser.Fresh 1 { parser := {} } := ⟨rfl, rfl⟩
  obtain ⟨hend, hshown⟩ := spoken_lines hfresh hfeed
  obtain ⟨more, hmore⟩ := (Onward.foldl ((unlines (splitLines [] chars).1).foldl Feed.step
    { parser := {} }) hlast).spoken
  rw [← List.foldl_append, ← hsplit, hshown, hend.parser] at hmore
  have hspoken : spokenOf (PlanningTextDeltaParser.feedChunks {} chunks) =
      shown 1 (splitLines [] chars).1 ++ more.map (1 + (splitLines [] chars).1.length, ·) := by
    rw [spokenOf_feedChunks, htext, PyStr.ofChars, List.foldl_map]
    exact hmore
  have hk : k < (splitLines [] chars).1.length := (List.getElem?_eq_some_iff.1 hline).1
  rw [textOf_eq_spoken, hspoken, List.filter_append, List.map_append, filter_tagged,
    if_neg (by omega), Nat.add_comm k 1, filter_shown 1 hline, List.append_nil]

/-- **When the planning parsers agree.**  For a progress record whose line has the compact
form, the text shown for the record's number is the record's text just if the line that is
so numbered, blank lines counted, shows that text too. -/
theorem planning_parsers_agree
    (h : PlanningStreamParser.reported (jsonLoads toFloat budget) chunks = some progress)
    {r : PlanningProgress} (hr : r ∈ progress) {front back : List String} {line : String}
    (hlines : linesOf chunks.flatten = front ++ line :: back)
    (hstart : r.sourceStart = (front.map lineSize).sum) (hcompact : Compact line) :
    textOf r.recordIndex (PlanningTextDeltaParser.feedChunks {} chunks) = r.text ↔
      publicText ((front ++ line :: back).getD (nonBlank front) "").toList =
        publicText line.toList := by
  obtain ⟨chars, p', -, -, haccepted⟩ := accepted_of_reported h
  obtain ⟨front', line', back', row, hlines', hstart', hindex, hrow, htext⟩ :=
    ((PlanningStreamParser.records_of_accepted haccepted).2 r hr).row
  -- The record's line is the one that starts where the record does.
  have hfront : front = front' :=
    front_of_start hlines hlines' (by rw [← hstart, hstart']; exact Nat.zero_add _)
  subst hfront
  rw [hlines] at hlines'
  obtain ⟨rfl, rfl⟩ := List.cons.inj (List.append_cancel_left hlines')
  have hown : r.text = String.ofList (publicText line.toList) := text_of_compact hcompact hrow htext
  have hle : nonBlank front ≤ front.length := List.countP_le_length
  have hlt : nonBlank front < (front ++ line :: back).length := by
    rw [List.length_append, List.length_cons]
    omega
  have hnumbered : (linesOf chunks.flatten)[nonBlank front]? =
      some ((front ++ line :: back).getD (nonBlank front) "") := by
    rw [hlines, List.getElem?_eq_getElem hlt, List.getD, List.getElem?_eq_getElem hlt,
      Option.getD_some]
  have hnumber : r.recordIndex = nonBlank front + 1 := by rw [hindex]; exact congrArg (· + 1) (Nat.zero_add _)
  rw [hnumber, textOf_eq_publicText h hnumbered, hown, String.ofList_inj]

end

/-- A record on the first line of a text has the first line's number. -/
theorem planning_parsers_agree_first :
    let line := header ++ ['h', '\\', 'u', '0', '0', '6', '9', '"', '\x7d']
    let chunks := [PyStr.ofChars (line ++ ['\n'])]
    textOf 1 (PlanningTextDeltaParser.feedChunks {} chunks) = "hi" ↔
      publicText (([] ++ [String.ofList line]).getD (nonBlank []) "").toList =
        publicText (String.ofList line).toList := by
  intro line chunks
  let r : PlanningProgress := ⟨"hi", 1, 0, 43⟩
  have h : PlanningStreamParser.reported (jsonLoads (fun _ => .finite 0 0) 9) chunks = some [r] := by
    decide +kernel
  have hlines : linesOf chunks.flatten = [] ++ String.ofList line :: [] := by decide +kernel
  have hcompact : Compact (String.ofList line) :=
    ⟨['h', '\\', 'u', '0', '0', '6', '9', '"', '\x7d'], _, by decide +kernel, rfl⟩
  exact planning_parsers_agree h (List.mem_singleton_self r) hlines rfl hcompact

/-- Behind a blank line the first record has the number of the blank line, which shows nothing. -/
theorem blank_line_shifts :
    let loads := jsonLoads (fun _ => .finite 0 0) 20
    let line := header ++ ['h', 'i', '"', '\x7d']
    let plan := "\x7b\"v\":1,\"type\":\"plan\",\"plan\":\x7b\x7d\x7d".toList
    let chunks := [PyStr.ofChars ('\n' :: line ++ '\n' :: plan)]
    (PlanningStreamParser.outcome loads chunks).toOption.isSome = true ∧
      PlanningStreamParser.reported loads chunks = some [⟨"hi", 1, 1, 39⟩] ∧
      linesOf chunks.flatten = ["", String.ofList line] ∧ Compact (String.ofList line) ∧
      textOf 1 (PlanningTextDeltaParser.feedChunks {} chunks) ≠ "hi" := by
  intro loads line plan chunks
  refine ⟨by decide +kernel, by decide +kernel, by decide +kernel, ?_, by decide +kernel⟩
  exact ⟨['h', 'i', '"', '\x7d'], _, by decide +kernel, rfl⟩

end Purra.Output
