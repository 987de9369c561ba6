import Purra.Output.Spoken

/-!
# Where a planning text is cut

Neither parser depends on the chunks its text comes in.

* `splitLines_append` — the lines of a text are those of its front, and those of the rest
  behind the partial line the front ends with.
* `readChars_append` — a chunk of records may be cut in two: it is accepted just if its
  parts are, and gives the same records.  A partial line that is refused for its length
  would be refused as a whole line later, so that looking early refuses nothing more.
* `fed_sequential` — so the record parser may be fed the whole text at once; with
  `said_sequential` for the delta parser this is `planning_chunks_irrelevant`.
-/

namespace Purra.Output

/-! ## Lines -/

theorem splitLines_append (current a b : List Char) :
    splitLines current (a ++ b) =
      ((splitLines current a).1 ++ (splitLines (splitLines current a).2.toList b).1,
        (splitLines (splitLines current a).2.toList b).2) := by
  induction a generalizing current with
  | nil => simp [splitLines]
  | cons c a ih =>
    by_cases hc : c = '\n'
    · simp only [List.cons_append, splitLines, if_pos hc, ih]
    · simp only [List.cons_append, splitLines, if_neg hc, ih]

/-- Text without a line feed stays in hand. -/
theorem splitLines_of_not_mem {current : List Char} (h : '\n' ∉ current) (front b : List Char) :
    splitLines front (current ++ b) = splitLines (front ++ current) b := by
  induction current generalizing front with
  | nil => rw [List.nil_append, List.append_nil]
  | cons c current ih =>
    have hc : c ≠ '\n' := fun hc => h (hc ▸ List.mem_cons_self)
    have hrest : '\n' ∉ current := fun hmem => h (List.mem_cons_of_mem c hmem)
    simp only [List.cons_append, splitLines, if_neg hc, ih hrest, List.append_assoc,
      List.nil_append]

theorem not_mem_splitLines {current : List Char} (h : '\n' ∉ current) (text : List Char) :
    '\n' ∉ (splitLines current text).2.toList := by
  induction text generalizing current with
  | nil => simpa [splitLines] using h
  | cons c text ih =>
    by_cases hc : c = '\n'
    · simp only [splitLines, if_pos hc]
      exact ih (by simp)
    · simp only [splitLines, if_neg hc]
      refine ih fun hmem => ?_
      rcases List.mem_append.1 hmem with hmem | hmem
      · exact h hmem
      · exact hc (List.mem_singleton.1 hmem).symm

/-- The bytes of some characters. -/
def byteSize (chars : List Char) : Nat := (String.ofList chars).utf8ByteSize

theorem byteSize_append (a b : List Char) : byteSize (a ++ b) = byteSize a + byteSize b := by
  unfold byteSize
  rw [String.ofList_append, String.utf8ByteSize_append]

theorem byteSize_toList (line : String) : byteSize line.toList = line.utf8ByteSize := by
  rw [byteSize, String.ofList_toList]

theorem byteSize_cons (c : Char) (rest : List Char) :
    byteSize (c :: rest) = byteSize [c] + byteSize rest := byteSize_append [c] rest

/-- The bytes of a line, with the line feed that ends it. -/
def lineSize (line : String) : Nat := (line ++ "\n").utf8ByteSize

theorem lineSize_ofList (chars : List Char) : lineSize (String.ofList chars) = byteSize chars + 1 := by
  unfold lineSize byteSize
  rw [String.utf8ByteSize_append]
  rfl

/-- Splitting loses no byte. -/
theorem splitLines_size (current text : List Char) :
    ((splitLines current text).1.map lineSize).sum + (splitLines current text).2.utf8ByteSize =
      byteSize current + byteSize text := by
  induction text generalizing current with
  | nil => simp [splitLines, byteSize]
  | cons c text ih =>
    by_cases hc : c = '\n'
    · simp only [splitLines, if_pos hc, List.map_cons, List.sum_cons, lineSize_ofList]
      have hrest := ih []
      have hempty : byteSize [] = 0 := rfl
      have hfeed : byteSize ['\n'] = 1 := rfl
      rw [byteSize_cons, hc, hfeed]
      omega
    · simp only [splitLines, if_neg hc]
      rw [ih, byteSize_append, byteSize_cons c text]
      omega

/-- A partial line that is too long makes the next line, or the next partial line, too long. -/
theorem splitLines_long {limit : Nat} {current : List Char} (h : limit < byteSize current)
    (text : List Char) :
    (∃ line rest, (splitLines current text).1 = line :: rest ∧ limit < lineSize line) ∨
      (splitLines current text).1 = [] ∧ limit < (splitLines current text).2.utf8ByteSize := by
  induction text generalizing current with
  | nil => exact Or.inr ⟨rfl, h⟩
  | cons c text ih =>
    by_cases hc : c = '\n'
    · simp only [splitLines, if_pos hc]
      refine Or.inl ⟨_, _, rfl, ?_⟩
      rw [lineSize_ofList]
      omega
    · simp only [splitLines, if_neg hc]
      refine ih ?_
      rw [byteSize_append]
      omega

/-! ## Records -/

namespace PlanningStreamParser

variable {loads : String → Except PyError PyJson} {p p' : PlanningStreamParser}

/-- A record is read without a look at what is in the buffer. -/
theorem acceptRecord_buffer (buffer line : String) (size : Nat) :
    acceptRecord loads { p with buffer } line size =
      (acceptRecord loads p line size).map fun r => (r.1, { r.2 with buffer }) := by
  simp only [acceptRecord]
  repeat' first | rfl | split

/-- What accepting a record counts, and what it leaves alone. -/
theorem acceptRecord_eq_ok {line : String} {size : Nat} {progress : Option PlanningProgress}
    (h : acceptRecord loads p line size = .ok (progress, p')) :
    size ≤ 262144 ∧ p'.consumed = p.consumed + size ∧ p'.closed = p.closed ∧ p'.failed = p.failed := by
  simp only [acceptRecord] at h
  repeat' split at h
  all_goals first
    | (cases h; done)
    | (cases h; exact ⟨by omega, rfl, rfl, rfl⟩)

/-- `acceptLines`, as a machine that may fail. -/
def accepted (loads : String → Except PyError PyJson) (p : PlanningStreamParser)
    (lines : List String) : Option (List PlanningProgress × PlanningStreamParser) :=
  (acceptLines loads p lines).toOption

theorem accepted_cons (p : PlanningStreamParser) (line : String) (rest : List String) :
    accepted loads p (line :: rest) =
      (acceptRecord loads p line (lineSize line)).toOption.bind fun r =>
        (accepted loads r.2 rest).map fun q => (r.1.toList ++ q.1, q.2) := by
  show (acceptRecord loads p line (lineSize line) >>= _).toOption = _
  cases acceptRecord loads p line (lineSize line) with
  | error e => rfl
  | ok r =>
    show (acceptLines loads r.2 rest >>= _).toOption =
      (acceptLines loads r.2 rest).toOption.map fun q => (r.1.toList ++ q.1, q.2)
    cases acceptLines loads r.2 rest <;> rfl

theorem accepted_append (p : PlanningStreamParser) (a b : List String) :
    accepted loads p (a ++ b) =
      (accepted loads p a).bind fun r =>
        (accepted loads r.2 b).map fun q => (r.1 ++ q.1, q.2) := by
  induction a generalizing p with
  | nil =>
    show accepted loads p b = (accepted loads p b).map fun q => ([] ++ q.1, q.2)
    cases accepted loads p b <;> rfl
  | cons line rest ih =>
    rw [List.cons_append, accepted_cons, accepted_cons]
    cases (acceptRecord loads p line (lineSize line)).toOption with
    | none => rfl
    | some r =>
      rw [Option.bind_some, Option.bind_some, ih]
      cases accepted loads r.2 rest with
      | none => rfl
      | some q => cases hb : accepted loads q.2 b <;> simp [hb]

theorem accepted_buffer (buffer : String) (lines : List String) (p : PlanningStreamParser) :
    accepted loads { p with buffer } lines =
      (accepted loads p lines).map fun r => (r.1, { r.2 with buffer }) := by
  induction lines generalizing p with
  | nil => rfl
  | cons line rest ih =>
    rw [accepted_cons, accepted_cons, acceptRecord_buffer]
    cases acceptRecord loads p line (lineSize line) with
    | error e => rfl
    | ok r =>
      show (accepted loads { r.2 with buffer } rest).map _ =
        ((accepted loads r.2 rest).map _).map _
      rw [ih]
      cases accepted loads r.2 rest <;> rfl

/-- What accepting lines counts, and what it leaves alone. -/
theorem accepted_eq_some {lines : List String} {progress : List PlanningProgress}
    (h : accepted loads p lines = some (progress, p')) :
    p'.consumed = p.consumed + (lines.map lineSize).sum ∧ p'.closed = p.closed ∧
      p'.failed = p.failed := by
  induction lines generalizing p progress with
  | nil =>
    cases h
    exact ⟨rfl, rfl, rfl⟩
  | cons line rest ih =>
    rw [accepted_cons] at h
    cases hrecord : acceptRecord loads p line (lineSize line) with
    | error e =>
      rw [hrecord] at h
      cases h
    | ok r =>
      rw [hrecord] at h
      obtain ⟨q, hq, hout⟩ := Option.map_eq_some_iff.1 h
      cases hout
      obtain ⟨-, hconsumed, hclosed, hfailed⟩ := acceptRecord_eq_ok hrecord
      obtain ⟨hsum, hclosed', hfailed'⟩ := ih hq
      rw [List.map_cons, List.sum_cons]
      exact ⟨by omega, hclosed'.trans hclosed, hfailed'.trans hfailed⟩

/-- A line that is too long is refused. -/
theorem accepted_long {line : String} (h : 262144 < lineSize line) (p : PlanningStreamParser)
    (rest : List String) : accepted loads p (line :: rest) = none := by
  rw [accepted_cons, acceptRecord, if_pos h]
  rfl

/-! ## Chunks -/

/-- `read`, of characters behind those in the buffer. -/
def readChars (loads : String → Except PyError PyJson) (p : PlanningStreamParser)
    (chars : List Char) : Option (List PlanningProgress × PlanningStreamParser) :=
  if 1048576 < p.consumed + byteSize (p.buffer.toList ++ chars) then none
  else (accepted loads p (splitLines p.buffer.toList chars).1).bind fun r =>
    if 262144 < (splitLines p.buffer.toList chars).2.utf8ByteSize then none
    else some (r.1, { r.2 with buffer := (splitLines p.buffer.toList chars).2 })

/-- A parser that takes more: the line in its buffer is not complete, and not too long. -/
structure Open (p : PlanningStreamParser) : Prop where
  closed : p.closed = false
  failed : p.failed = false
  partialLine : '\n' ∉ p.buffer.toList
  short : byteSize p.buffer.toList ≤ 262144
  total : p.consumed + byteSize p.buffer.toList ≤ 1048576

/-- `read` reads characters; a string that has no encoding is refused. -/
theorem read_toOption (hp : Open p) (text : PyStr) :
    (read loads p text).toOption = text.chars?.bind (readChars loads p) := by
  cases htext : text.chars? with
  | none => simp only [read, htext, Option.bind_none]; rfl
  | some chars =>
    have hlines : splitLines [] (p.buffer.toList ++ chars) = splitLines p.buffer.toList chars :=
      splitLines_of_not_mem hp.partialLine [] chars
    have hbuffer : (p.buffer ++ String.ofList chars).toList = p.buffer.toList ++ chars := by simp
    have hsize : (p.buffer ++ String.ofList chars).utf8ByteSize =
        byteSize (p.buffer.toList ++ chars) := by
      rw [← hbuffer, byteSize_toList]
    simp only [read, htext, hbuffer, hsize, hlines, Option.bind_some, readChars]
    by_cases htotal : 1048576 < p.consumed + byteSize (p.buffer.toList ++ chars)
    · rw [if_pos htotal, if_pos htotal]
      rfl
    · rw [if_neg htotal, if_neg htotal]
      show (acceptLines loads p _ >>= _).toOption = (acceptLines loads p _).toOption.bind _
      cases acceptLines loads p (splitLines p.buffer.toList chars).1 with
      | error e => rfl
      | ok r =>
        show (if _ then _ else _ : Except PyError _).toOption = if _ then _ else _
        split <;> rfl

/-- Accepted characters leave the parser open. -/
theorem readChars_open (hp : Open p) {chars : List Char} {progress : List PlanningProgress}
    (h : readChars loads p chars = some (progress, p')) : Open p' := by
  unfold readChars at h
  split at h
  · cases h
  · obtain ⟨r, hr, h⟩ := Option.bind_eq_some_iff.1 h
    split at h
    · cases h
    · cases h
      obtain ⟨hconsumed, hclosed, hfailed⟩ := accepted_eq_some hr
      have hbytes := splitLines_size p.buffer.toList chars
      have hlast := byteSize_toList (splitLines p.buffer.toList chars).2
      rw [byteSize_append] at *
      have hshort : byteSize (splitLines p.buffer.toList chars).2.toList ≤ 262144 := by omega
      have htotal : r.2.consumed + byteSize (splitLines p.buffer.toList chars).2.toList ≤ 1048576 := by
        omega
      exact {
        closed := hclosed.trans hp.closed
        failed := hfailed.trans hp.failed
        partialLine := not_mem_splitLines hp.partialLine chars
        short := hshort
        total := htotal }

theorem readChars_nil (hp : Open p) : readChars loads p [] = some ([], p) := by
  have hshort : ¬262144 < p.buffer.utf8ByteSize := by
    have h := hp.short
    rw [byteSize_toList] at h
    omega
  have htotal := hp.total
  have hlines : splitLines p.buffer.toList [] = ([], p.buffer) := by simp [splitLines]
  rw [readChars, List.append_nil, if_neg (by omega), hlines]
  show (if 262144 < p.buffer.utf8ByteSize then _ else _) = _
  rw [if_neg hshort]

/-- The lines a partial line too long to be kept goes on with are refused. -/
theorem accepted_of_long {front : String} (h : 262144 < front.utf8ByteSize)
    {chars : List Char} {r : List PlanningProgress × PlanningStreamParser}
    (hr : accepted loads p (splitLines front.toList chars).1 = some r) :
    262144 < (splitLines front.toList chars).2.utf8ByteSize := by
  rw [← byteSize_toList] at h
  rcases splitLines_long h chars with ⟨line, rest, hlines, hline⟩ | ⟨-, hlast⟩
  · rw [hlines, accepted_long hline] at hr
    cases hr
  · exact hlast

/-- **Characters may be read in two parts.** -/
theorem readChars_append (a b : List Char) :
    readChars loads p (a ++ b) =
      (readChars loads p a).bind fun r =>
        (readChars loads r.2 b).map fun q => (r.1 ++ q.1, q.2) := by
  have hbytes := splitLines_size p.buffer.toList a
  simp only [readChars, splitLines_append, byteSize_append, accepted_append]
  generalize splitLines p.buffer.toList a = front at hbytes ⊢
  obtain ⟨lines, last⟩ := front
  dsimp only at hbytes ⊢
  by_cases hfront : 1048576 < p.consumed + (byteSize p.buffer.toList + byteSize a)
  · rw [if_pos (by omega), if_pos hfront]
    rfl
  rw [if_neg hfront]
  cases haccepted : accepted loads p lines with
  | none =>
    split <;> rfl
  | some r =>
    obtain ⟨hconsumed, -, -⟩ := accepted_eq_some haccepted
    have htotal : p.consumed + (byteSize p.buffer.toList + (byteSize a + byteSize b)) =
        r.2.consumed + (byteSize last.toList + byteSize b) := by
      rw [byteSize_toList last]
      omega
    simp only [Option.bind_some, htotal]
    by_cases hlong : 262144 < last.utf8ByteSize
    · rw [if_pos hlong, Option.bind_none]
      split
      · rfl
      · cases hrest : accepted loads r.2 (splitLines last.toList b).1 with
        | none => rfl
        | some q => exact if_pos (accepted_of_long hlong hrest)
    · rw [if_neg hlong]
      simp only [Option.bind_some]
      split
      · rfl
      · rw [accepted_buffer last]
        cases accepted loads r.2 (splitLines last.toList b).1 with
        | none => rfl
        | some q =>
          simp only [Option.map_some, Option.bind_some]
          split <;> rfl

/-! ## Feeding -/

/-- `feed`, as a machine that may fail. -/
def fed (loads : String → Except PyError PyJson) (p : PlanningStreamParser) (text : PyStr) :
    Option (List PlanningProgress × PlanningStreamParser) :=
  match p.feed loads text with
  | (.ok progress, p') => some (progress, p')
  | (.error _, _) => none

theorem fed_eq (hp : Open p) (text : PyStr) :
    fed loads p text = text.chars?.bind (readChars loads p) := by
  have hopen : ¬(p.closed = true ∨ p.failed = true) := by simp [hp.closed, hp.failed]
  rw [← read_toOption hp, fed, feed, if_neg hopen]
  cases p.read loads text <;> rfl

/-- **The record parser may be fed a chunk in two parts.** -/
theorem fed_sequential : Chunks.Sequential (fed loads) Open where
  nil p hp := by
    rw [fed_eq hp]
    exact readChars_nil hp
  append p a b hp := by
    rw [fed_eq hp, fed_eq hp, PyStr.chars?_append]
    cases PyStr.chars? a with
    | none => rfl
    | some front =>
      rw [Option.bind_some, Option.bind_some]
      cases hfront : readChars loads p front with
      | none =>
        cases PyStr.chars? b with
        | none => rfl
        | some back =>
          show readChars loads p (front ++ back) = none
          rw [readChars_append, hfront]
          rfl
      | some r =>
        show _ = (fed loads r.2 b).map _
        rw [fed_eq (readChars_open hp hfront)]
        cases PyStr.chars? b with
        | none => rfl
        | some back =>
          show readChars loads p (front ++ back) = (readChars loads r.2 back).map _
          rw [readChars_append, hfront]
          rfl
  kept p a progress p' hp h := by
    rw [fed_eq hp] at h
    obtain ⟨chars, -, h⟩ := Option.bind_eq_some_iff.1 h
    exact readChars_open hp h

theorem open_initial : Open {} := by
  exact ⟨rfl, rfl, by simp, by decide, by decide⟩

theorem feedChunks_toOption (p : PlanningStreamParser) (chunks : List PyStr) :
    (feedChunks loads p chunks).toOption = Chunks.feedAll (fed loads) p chunks := by
  induction chunks generalizing p with
  | nil => rfl
  | cons chunk rest ih =>
    simp only [feedChunks, Chunks.feedAll, fed]
    rcases hfeed : p.feed loads chunk with ⟨_ | progress, p'⟩
    · rfl
    · show (feedChunks loads p' rest >>= _).toOption = (Chunks.feedAll (fed loads) p' rest).bind _
      rw [← ih]
      cases feedChunks loads p' rest <;> rfl

/-- What comes of a text does not depend on its chunks. -/
theorem outcome_congr {chunks chunks' : List PyStr} (h : chunks.flatten = chunks'.flatten) :
    (outcome loads chunks).toOption = (outcome loads chunks').toOption := by
  have hfed : (feedChunks loads {} chunks).toOption = (feedChunks loads {} chunks').toOption := by
    rw [feedChunks_toOption, feedChunks_toOption]
    exact fed_sequential.feedAll_congr open_initial h
  unfold outcome
  cases hl : feedChunks loads {} chunks <;> cases hr : feedChunks loads {} chunks' <;>
    rw [hl, hr] at hfed
  · rfl
  · cases hfed
  · cases hfed
  · cases hfed
    rfl

end PlanningStreamParser

/-- **Where a Provider text is cut matters to neither parser**: the record parser has the
same plan and progress records, or fails both times, and the delta parser puts out the same
text for every record. -/
theorem planning_chunks_irrelevant (loads : String → Except PyError PyJson)
    (chunks chunks' : List PyStr) (htext : chunks.flatten = chunks'.flatten) :
    (PlanningStreamParser.outcome loads chunks).toOption =
        (PlanningStreamParser.outcome loads chunks').toOption ∧
      ∀ index, textOf index (PlanningTextDeltaParser.feedChunks {} chunks) =
        textOf index (PlanningTextDeltaParser.feedChunks {} chunks') := by
  refine ⟨PlanningStreamParser.outcome_congr htext, fun index => ?_⟩
  rw [textOf_eq_spoken, textOf_eq_spoken, PlanningTextDeltaParser.spokenOf_feedChunks,
    PlanningTextDeltaParser.spokenOf_feedChunks, htext]

/-- An escape that is cut after its backslash. -/
theorem planning_chunks_irrelevant_escape :
    let loads : String → Except PyError PyJson := fun _ =>
      .ok (.obj [(PyStr.ofChars ['v'], .int 1),
        (PyStr.ofChars "type".toList, .str (PyStr.ofChars "progress".toList)),
        (PyStr.ofChars "text".toList, .str (PyStr.ofChars ['a', '/']))])
    let front := PlanningTextDeltaParser.header ++ ['a', '\\']
    let chunks := [PyStr.ofChars front, PyStr.ofChars ['/', '"', '}', '\n']]
    let whole := [PyStr.ofChars (front ++ ['/', '"', '}', '\n'])]
    (PlanningStreamParser.outcome loads chunks).toOption =
        (PlanningStreamParser.outcome loads whole).toOption ∧
      ∀ index, textOf index (PlanningTextDeltaParser.feedChunks {} chunks) =
        textOf index (PlanningTextDeltaParser.feedChunks {} whole) :=
  planning_chunks_irrelevant _ _ _ (by rfl)

end Purra.Output
