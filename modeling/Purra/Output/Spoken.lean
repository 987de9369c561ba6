import Purra.Output.PlanningStream

/-!
# What the delta parser has decoded

The delta parser collects the characters it decodes, and puts them out at the end of a
chunk or of a text.  `spoken` is what it has decoded, whether put out or not: each character
with the record it belongs to.

* `Ahead` — two feeds in one state, of which one has decoded something more before.
* `ahead_step` — they stay so at every code point.
* `said_sequential` — a chunk may be cut in two.
* `textOf_eq_said` — the text put out for a record is what has been decoded for it.
-/

namespace Purra.Output

namespace PlanningTextDeltaParser

/-- The characters of some deltas, each with its record. -/
def spokenOf (deltas : List PlanningTextDelta) : List (Nat × Char) :=
  deltas.flatMap fun delta => delta.text.toList.map (delta.recordIndex, ·)

/-- What has been decoded, whether put out or not. -/
def Feed.spoken (f : Feed) : List (Nat × Char) :=
  spokenOf f.emitted ++ f.current.map (f.parser.recordIndex, ·)

theorem spokenOf_append (a b : List PlanningTextDelta) :
    spokenOf (a ++ b) = spokenOf a ++ spokenOf b := List.flatMap_append

/-- Flushing puts out what has been decoded. -/
theorem Feed.spoken_flush (f : Feed) : spokenOf f.flush.emitted = f.spoken := by
  unfold Feed.flush Feed.spoken
  split
  · next hempty => simp [hempty]
  · rw [spokenOf_append]
    simp [spokenOf]

@[simp] theorem Feed.flush_current (f : Feed) : f.flush.current = [] := by
  unfold Feed.flush
  split
  · next hempty => exact hempty
  · rfl

@[simp] theorem Feed.parser_flush (f : Feed) : f.flush.parser = f.parser := by
  unfold Feed.flush
  split <;> rfl

@[simp] theorem Feed.flush_spoken (f : Feed) : f.flush.spoken = f.spoken := by
  rw [← Feed.spoken_flush f, Feed.spoken, Feed.flush_current, List.map_nil, List.append_nil]

end PlanningTextDeltaParser

/-! ## Between texts -/

/-- A state outside of a text. -/
def DeltaState.outside : DeltaState → Bool
  | .skip | .header | .suffix | .newline => true
  | _ => false

namespace PlanningTextDeltaParser

/-- Outside of a text nothing is in hand. -/
def Feed.Quiet (f : Feed) : Prop := f.parser.state.outside = true → f.current = []

section

variable {f : Feed}

theorem Feed.quiet_of_current (h : f.current = []) : f.Quiet := fun _ => h

theorem Feed.quiet_of_state (h : f.parser.state.outside = false) : f.Quiet := fun houtside => by
  rw [h] at houtside
  cases houtside

theorem Feed.quiet_abandon : f.abandon.Quiet := quiet_of_current (flush_current f)

theorem Feed.quiet_skipFrom (h : f.current = []) (c : Char) : (f.skipFrom c).Quiet := by
  unfold Feed.skipFrom
  split <;> exact quiet_of_current h

theorem Feed.quiet_digit {c : Char} {complete : Feed → Nat → Feed}
    (hstate : f.parser.state.outside = false) (hcomplete : ∀ g n, (complete g n).Quiet) :
    (f.digit c complete).Quiet := by
  unfold Feed.digit
  split
  · exact quiet_abandon
  · dsimp only
    split
    · exact quiet_of_state hstate
    · exact hcomplete _ _

/-- Outside of a text nothing is collected. -/
theorem Feed.quiet_step (h : f.Quiet) (c : Char) : (f.step c).Quiet := by
  unfold Feed.step
  cases hstate : f.parser.state with
  | skip => exact quiet_skipFrom (h (by rw [hstate]; rfl)) c
  | header =>
    have hcurrent : f.current = [] := h (by rw [hstate]; rfl)
    dsimp only
    split
    · split <;> exact quiet_of_current hcurrent
    · exact quiet_skipFrom hcurrent c
  | text =>
    dsimp only
    split
    · exact quiet_of_state rfl
    · split
      · exact quiet_of_current (flush_current f)
      · split
        · exact quiet_abandon
        · exact quiet_of_state rfl
  | escape =>
    dsimp only
    split
    · exact quiet_of_state rfl
    · split
      · exact quiet_of_state rfl
      · exact quiet_abandon
  | unicode =>
    refine quiet_digit (by rw [hstate]; rfl) fun g n => ?_
    split
    · exact quiet_of_state rfl
    · split
      · exact quiet_abandon
      · exact quiet_of_state rfl
  | lowSlash =>
    dsimp only
    split
    · exact quiet_of_state rfl
    · exact quiet_abandon
  | lowU =>
    dsimp only
    split
    · exact quiet_of_state rfl
    · exact quiet_abandon
  | lowUnicode =>
    refine quiet_digit (by rw [hstate]; rfl) fun g n => ?_
    dsimp only
    split
    · split
      · exact quiet_of_state rfl
      · exact quiet_abandon
    · exact quiet_abandon
  | suffix =>
    have hcurrent : f.current = [] := h (by rw [hstate]; rfl)
    dsimp only
    split <;> exact quiet_of_current hcurrent
  | newline =>
    have hcurrent : f.current = [] := h (by rw [hstate]; rfl)
    dsimp only
    split <;> exact quiet_of_current hcurrent

theorem Feed.quiet_stepPoint (h : f.Quiet) (c : CodePoint) : (f.stepPoint c).Quiet := by
  cases c with
  | scalar c => exact quiet_step h c
  | surrogate n =>
    unfold Feed.stepPoint
    cases hstate : f.parser.state with
    | skip => exact h
    | header | suffix | newline => exact quiet_of_current (h (by rw [hstate]; rfl))
    | text | escape | unicode | lowSlash | lowU | lowUnicode => exact quiet_abandon

end

/-! ## Two feeds -/

/-- The feeds are in one state, and `g` has decoded `front` before. -/
structure Ahead (front : List (Nat × Char)) (f g : Feed) : Prop where
  parser : g.parser = f.parser
  spoken : g.spoken = front ++ f.spoken

section

variable {front : List (Nat × Char)} {f g : Feed}

/-- A feed whose parser has gone on to another state of the same record. -/
theorem Ahead.go (h : Ahead front f g) {p q : PlanningTextDeltaParser} (hq : q = p)
    (hp : p.recordIndex = f.parser.recordIndex) :
    Ahead front { f with parser := p } { g with parser := q } := by
  subst hq
  refine ⟨rfl, ?_⟩
  have hspoken := h.spoken
  unfold Feed.spoken at hspoken ⊢
  rw [h.parser] at hspoken
  rw [hp]
  exact hspoken

theorem Ahead.goto (h : Ahead front f g) (state : DeltaState) :
    Ahead front (f.goto state) (g.goto state) :=
  h.go (by rw [h.parser]) rfl

theorem Ahead.flush (h : Ahead front f g) : Ahead front f.flush g.flush := by
  refine ⟨by simp [h.parser], ?_⟩
  rw [Feed.flush_spoken, Feed.flush_spoken, h.spoken]

theorem Ahead.abandon (h : Ahead front f g) : Ahead front f.abandon g.abandon :=
  h.flush.goto .skip

theorem Ahead.emit (h : Ahead front f g) (c : Char) : Ahead front (f.emit c) (g.emit c) := by
  refine ⟨(h.goto .text).parser, ?_⟩
  have hspoken := h.spoken
  simp only [Feed.spoken, Feed.emit, Feed.goto, h.parser, List.map_append] at hspoken ⊢
  rw [← List.append_assoc, hspoken, List.append_assoc, List.append_assoc]

/-- A new record, when nothing is in hand. -/
theorem Ahead.next (h : Ahead front f g) (hf : f.current = []) (hg : g.current = []) :
    Ahead front { f with parser := f.parser.nextRecord } { g with parser := g.parser.nextRecord } := by
  refine ⟨by rw [h.parser], ?_⟩
  have hspoken := h.spoken
  simpa [Feed.spoken, hf, hg] using hspoken

theorem Ahead.skipFrom (h : Ahead front f g) (hf : f.current = []) (hg : g.current = [])
    (c : Char) : Ahead front (f.skipFrom c) (g.skipFrom c) := by
  unfold Feed.skipFrom
  split
  · exact h.next hf hg
  · exact h.goto .skip

theorem Ahead.digit (h : Ahead front f g) {c : Char} {complete : Feed → Nat → Feed}
    (hcomplete : ∀ f g n, Ahead front f g → Ahead front (complete f n) (complete g n)) :
    Ahead front (f.digit c complete) (g.digit c complete) := by
  have hmore : Ahead front { f with parser.unicode := f.parser.unicode ++ [c] }
      { g with parser.unicode := g.parser.unicode ++ [c] } := h.go (by rw [h.parser]) rfl
  unfold Feed.digit
  split
  · exact h.abandon
  · simp only [h.parser] at hmore ⊢
    split
    · exact hmore
    · exact hcomplete _ _ _ hmore

/-- The feeds stay so at every character. -/
theorem ahead_step (h : Ahead front f g) (hf : f.Quiet) (hg : g.Quiet) (c : Char) :
    Ahead front (f.step c) (g.step c) := by
  have hparser := h.parser
  unfold Feed.step
  rw [hparser]
  cases hstate : f.parser.state with
  | skip =>
    have hgstate : g.parser.state = .skip := by rw [hparser, hstate]
    exact h.skipFrom (hf (by rw [hstate]; rfl)) (hg (by rw [hgstate]; rfl)) c
  | header =>
    have hgstate : g.parser.state = .header := by rw [hparser, hstate]
    dsimp only
    split
    · have hmore : Ahead front { f with parser.headerIndex := f.parser.headerIndex + 1 }
          { g with parser.headerIndex := g.parser.headerIndex + 1 } := h.go (by rw [hparser]) rfl
      simp only [hparser] at hmore ⊢
      split
      · exact hmore.goto .text
      · exact hmore
    · exact h.skipFrom (hf (by rw [hstate]; rfl)) (hg (by rw [hgstate]; rfl)) c
  | text =>
    dsimp only
    split
    · exact h.goto .escape
    · split
      · exact h.flush.goto .suffix
      · split
        · exact h.abandon
        · exact h.emit c
  | escape =>
    dsimp only
    split
    · exact h.go (by simp only [Feed.goto, hparser]) rfl
    · split
      · exact h.emit _
      · exact h.abandon
  | unicode =>
    refine h.digit fun f g value h => ?_
    split
    · exact h.go (by simp only [Feed.goto, h.parser]) rfl
    · split
      · exact h.abandon
      · exact h.emit _
  | lowSlash =>
    dsimp only
    split
    · exact h.goto .lowU
    · exact h.abandon
  | lowU =>
    dsimp only
    split
    · exact h.go (by simp only [Feed.goto, hparser]) rfl
    · exact h.abandon
  | lowUnicode =>
    refine h.digit fun f g low h => ?_
    dsimp only
    rw [h.parser]
    split
    · have hmore : Ahead front { f with parser.highSurrogate := none }
          { g with parser.highSurrogate := none } := h.go (by rw [h.parser]) rfl
      rw [h.parser] at hmore
      split
      · exact hmore.emit _
      · exact h.abandon
    · exact h.abandon
  | suffix =>
    dsimp only
    split
    · exact h.goto .newline
    · exact h.goto .skip
  | newline =>
    have hgstate : g.parser.state = .newline := by rw [hparser, hstate]
    dsimp only
    split
    · have hnext := h.next (hf (by rw [hstate]; rfl)) (hg (by rw [hgstate]; rfl))
      rwa [hparser] at hnext
    · exact h.goto .skip

theorem ahead_stepPoint (h : Ahead front f g) (hf : f.Quiet) (hg : g.Quiet) (c : CodePoint) :
    Ahead front (f.stepPoint c) (g.stepPoint c) := by
  cases c with
  | scalar c => exact ahead_step h hf hg c
  | surrogate n =>
    unfold Feed.stepPoint
    rw [h.parser]
    cases f.parser.state with
    | skip => exact h
    | header | suffix | newline => exact h.goto .skip
    | text | escape | unicode | lowSlash | lowU | lowUnicode => exact h.abandon

theorem quiet_foldl (hf : f.Quiet) (text : PyStr) : (text.foldl Feed.stepPoint f).Quiet := by
  induction text generalizing f with
  | nil => exact hf
  | cons c rest ih => exact ih (Feed.quiet_stepPoint hf c)

theorem ahead_foldl (h : Ahead front f g) (hf : f.Quiet) (hg : g.Quiet) (text : PyStr) :
    Ahead front (text.foldl Feed.stepPoint f) (text.foldl Feed.stepPoint g) := by
  induction text generalizing f g with
  | nil => exact h
  | cons c rest ih =>
    exact ih (ahead_stepPoint h hf hg c) (Feed.quiet_stepPoint hf c) (Feed.quiet_stepPoint hg c)

end

/-! ## Chunks -/

/-- What is decoded of a text, and the parser after it. -/
def said (p : PlanningTextDeltaParser) (text : PyStr) :
    Option (List (Nat × Char) × PlanningTextDeltaParser) :=
  let f := text.foldl Feed.stepPoint { parser := p }
  some (f.spoken, f.parser)

/-- **The delta parser may be fed a chunk in two parts.** -/
theorem said_sequential : Chunks.Sequential said fun _ => True where
  nil p _ := rfl
  append p a b _ := by
    have hquiet : Feed.Quiet { parser := p } := Feed.quiet_of_current rfl
    have hfront : Ahead (a.foldl Feed.stepPoint { parser := p }).spoken
        { parser := (a.foldl Feed.stepPoint { parser := p }).parser }
        (a.foldl Feed.stepPoint { parser := p }) :=
      ⟨rfl, by simp [Feed.spoken, spokenOf]⟩
    have h := ahead_foldl hfront (Feed.quiet_of_current rfl) (quiet_foldl hquiet a) b
    show some _ = some (_ ++ _, _)
    rw [List.foldl_append, h.spoken, h.parser]
  kept _ _ _ _ _ _ := trivial

theorem feedText_eq (p : PlanningTextDeltaParser) (text : PyStr) :
    said p text = some (spokenOf (p.feedText text).1, (p.feedText text).2) := by
  show some _ = some (spokenOf (Feed.flush _).emitted, (Feed.flush _).parser)
  rw [Feed.spoken_flush, Feed.parser_flush]

theorem feedChunks_eq (p : PlanningTextDeltaParser) (chunks : List PyStr) :
    (Chunks.feedAll said p chunks).map Prod.fst = some (spokenOf (feedChunks p chunks)) := by
  induction chunks generalizing p with
  | nil => rfl
  | cons chunk rest ih =>
    rw [Chunks.feedAll, feedText_eq, feedChunks, spokenOf_append]
    have hrest := ih (p.feedText chunk).2
    show ((Chunks.feedAll said (p.feedText chunk).2 rest).bind _).map Prod.fst = _
    cases hall : Chunks.feedAll said (p.feedText chunk).2 rest with
    | none =>
      rw [hall] at hrest
      cases hrest
    | some q =>
      rw [hall] at hrest
      rw [← Option.some.inj hrest]
      rfl

/-- Where the chunks are cut does not change what is decoded. -/
theorem spokenOf_feedChunks (p : PlanningTextDeltaParser) (chunks : List PyStr) :
    spokenOf (feedChunks p chunks) =
      (chunks.flatten.foldl Feed.stepPoint { parser := p }).spoken := by
  have h := feedChunks_eq p chunks
  rw [said_sequential.feedAll_eq trivial] at h
  exact (Option.some.inj h).symm

end PlanningTextDeltaParser

/-- The characters of a record, among those of one record. -/
theorem filter_tagged (index other : Nat) (chars : List Char) :
    ((chars.map (index, ·)).filter (·.1 = other)).map Prod.snd =
      if index = other then chars else [] := by
  induction chars with
  | nil => simp
  | cons c rest ih =>
    by_cases hindex : index = other
    · simp only [if_pos hindex] at ih ⊢
      simp [hindex] at ih ⊢
      exact ih
    · simp only [if_neg hindex] at ih ⊢
      simp [hindex]

/-- The text put out for a record is what has been decoded for it. -/
theorem textOf_eq_spoken (index : Nat) (deltas : List PlanningTextDelta) :
    textOf index deltas = String.ofList
      (((PlanningTextDeltaParser.spokenOf deltas).filter (·.1 = index)).map Prod.snd) := by
  induction deltas with
  | nil => rfl
  | cons delta rest ih =>
    have hdelta : PlanningTextDeltaParser.spokenOf (delta :: rest) =
        delta.text.toList.map (delta.recordIndex, ·) ++ PlanningTextDeltaParser.spokenOf rest := rfl
    rw [hdelta, List.filter_append, List.map_append, String.ofList_append, ← ih, filter_tagged]
    by_cases hindex : delta.recordIndex = index
    · simp [textOf, hindex]
    · simp [textOf, hindex]

end Purra.Output
