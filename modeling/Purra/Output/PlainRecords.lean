import Purra.Output.Agreement

/-!
# Records as the journal reads them

The journal's check parses a Provider text again, in `planningRecords`, on JSON values that
hold neither lone surrogates nor infinities.  `plain` makes such a value of what
`json.loads` returns: what cannot be held is null, which the check refuses in the same
places.

* `acceptRecord_plain` — the two parsers accept the same lines, as the same records.
* `planningRecords_of_record` — of the bytes up to the end of a record, the check finds
  that record.
-/

namespace Purra

namespace PyJson

/-- A text without surrogates. -/
def plainText (s : PyStr) : Option String := s.chars?.map String.ofList

/-- The name of a member; one with a surrogate is none of the names that are looked for. -/
def plainKey (key : PyStr) : String := (plainText key).getD ""

mutual

/-- A value without surrogates and infinities. -/
def plain : PyJson → Json
  | .null => .null
  | .bool b => .bool b
  | .int n => .int n
  | .float (.finite m e) => .float m e
  | .float (.infinite _) => .null
  | .str s => match plainText s with
    | some text => .str text
    | none => .null
  | .arr items => .arr (plainItems items)
  | .obj fields => if freezableFields fields = true then .obj (plainFields fields) else .null

/-- `plain`, of every item. -/
def plainItems : List PyJson → List Json
  | [] => []
  | item :: rest => plain item :: plainItems rest

/-- `plain`, of every member. -/
def plainFields : List (PyStr × PyJson) → Json.Object
  | [] => []
  | field :: rest => (plainKey field.1, plain field.2) :: plainFields rest

end

/-- A line's value: the members of an object, or nothing. -/
def plainRow : PyJson → Json
  | .obj row => .obj (plainFields row)
  | _ => .null

theorem plainKey_eq_iff {key : PyStr} {name : String} (hname : name ≠ "") :
    plainKey key = name ↔ key = PyStr.ofChars name.toList := by
  unfold plainKey plainText
  constructor
  · intro h
    cases hchars : key.chars? with
    | none =>
      rw [hchars] at h
      exact absurd h.symm hname
    | some chars =>
      rw [hchars] at h
      have htext : String.ofList chars = name := h
      rw [PyStr.eq_ofChars hchars, ← htext, String.toList_ofList]
  · rintro rfl
    rw [PyStr.chars?_ofChars]
    exact String.ofList_toList

/-- A member of a row. -/
theorem get_plainFields (row : Object) {name : String} (hname : name ≠ "") :
    Json.get (plainFields row) name = ((get row name).map plain).getD .null := by
  induction row with
  | nil => rfl
  | cons field rest ih =>
    unfold Json.get Json.field? PyJson.get at ih ⊢
    rw [plainFields, List.find?_cons, List.find?_cons]
    by_cases hkey : field.1 = PyStr.ofChars name.toList
    · have hplain : plainKey field.1 = name := (plainKey_eq_iff hname).2 hkey
      rw [decide_eq_true hplain, decide_eq_true hkey]
      rfl
    · have hplain : plainKey field.1 ≠ name := fun h => hkey ((plainKey_eq_iff hname).1 h)
      rw [decide_eq_false hplain, decide_eq_false hkey]
      exact ih

theorem hasKeys_plainFields (row : Object) {names : List String} (hnames : ∀ name ∈ names, name ≠ "") :
    Output.hasKeys (plainFields row) names = hasKeys row names := by
  have hall : ∀ rest : Object, (plainFields rest).all (fun p => decide (p.1 ∈ names)) =
      rest.all fun p => names.any fun name => decide (p.1 = PyStr.ofChars name.toList) := by
    intro rest
    induction rest with
    | nil => rfl
    | cons field rest ih =>
      rw [plainFields, List.all_cons, List.all_cons, ih]
      congr 1
      rw [Bool.eq_iff_iff, decide_eq_true_iff, List.any_eq_true]
      constructor
      · intro hmem
        exact ⟨_, hmem, decide_eq_true ((plainKey_eq_iff (hnames _ hmem)).1 rfl)⟩
      · rintro ⟨name, hmem, hkey⟩
        have hplain := (plainKey_eq_iff (hnames name hmem)).2 (of_decide_eq_true hkey)
        exact hplain ▸ hmem
  have hany : ∀ name ∈ names, decide (name ∈ (plainFields row).map Prod.fst) =
      row.any fun p => decide (p.1 = PyStr.ofChars name.toList) := by
    intro name hmem
    induction row with
    | nil => rfl
    | cons field rest ih =>
      rw [plainFields, List.any_cons, ← ih, List.map_cons, ← Bool.decide_or, decide_eq_decide,
        List.mem_cons, ← plainKey_eq_iff (hnames name hmem)]
      exact or_congr_left eq_comm
  have hpresent : (names.all fun name => decide (name ∈ (plainFields row).map Prod.fst)) =
      names.all fun name => row.any fun p => decide (p.1 = PyStr.ofChars name.toList) := by
    rw [Bool.eq_iff_iff, List.all_eq_true, List.all_eq_true]
    exact forall₂_congr fun name hmem => by rw [hany name hmem]
  unfold Output.hasKeys hasKeys
  rw [hall, hpresent]

theorem versionOne_plain (value : Option PyJson) :
    Output.versionOne ((value.map plain).getD .null) = isOne value := by
  cases value with
  | none => rfl
  | some value =>
    cases value with
    | null | bool | arr => rfl
    | int n => simp [plain, Output.versionOne, isOne, Json.pyEq, Json.asNumber, Json.sameNumber]
    | float value =>
      cases value with
      | finite m e => simp [plain, Output.versionOne, isOne, Json.pyEq, Json.asNumber]
      | infinite negative => rfl
    | str s =>
      show Output.versionOne (match plainText s with | some text => .str text | none => .null) = false
      cases plainText s <;> rfl
    | obj fields =>
      show Output.versionOne (if freezableFields fields = true then _ else _) = false
      split <;> rfl

theorem pyEq_plain (value : Option PyJson) {text : String} (htext : text ≠ "") :
    Json.pyEq ((value.map plain).getD .null) (.str text) = isText value text := by
  cases value with
  | none => rfl
  | some value =>
    cases value with
    | null | bool | int | arr => rfl
    | float value => cases value <;> rfl
    | str s =>
      have hkey : plainKey s = text ↔ s = PyStr.ofChars text.toList := plainKey_eq_iff htext
      unfold plainKey at hkey
      show Json.pyEq (match plainText s with | some text => .str text | none => .null) (.str text) =
        decide (s = PyStr.ofChars text.toList)
      cases hplain : plainText s with
      | none =>
        rw [hplain] at hkey
        have hne : s ≠ PyStr.ofChars text.toList := fun h => htext (hkey.2 h).symm
        rw [decide_eq_false hne]
        rfl
      | some other =>
        rw [hplain] at hkey
        show Json.pyEq (.str other) (.str text) = _
        rw [Json.pyEq, decide_eq_decide]
        exact hkey
    | obj fields =>
      show Json.pyEq (if freezableFields fields = true then _ else _) _ = false
      split <;> rfl

end PyJson

namespace Output

/-! ## The two record parsers -/

/-- `json.loads`, as the journal's check reads what it returns. -/
def plainLoads (loads : String → Except PyError PyJson) (line : String) : Except PyError Json :=
  (loads line).map PyJson.plainRow

/-- The two parsers have counted the same. -/
structure SameRecords (state : RecordState) (p : PlanningStreamParser) : Prop where
  consumed : state.consumed = p.consumed
  records : state.records = p.records
  plan : state.planReceived = p.plan.isSome

/-- Both have accepted the line, as the same record, or neither has. -/
def SameOutcome (a : Except PyError (Option PlanningProgress × RecordState))
    (b : Except PyError (Option PlanningProgress × PlanningStreamParser)) : Prop :=
  match a, b with
  | .ok r, .ok q => r.1 = q.1 ∧ SameRecords r.2 q.2
  | .error _, .error _ => True
  | _, _ => False

variable {loads : String → Except PyError PyJson} {state : RecordState} {p : PlanningStreamParser}

/-- The text of a progress record, as the journal's check reads it. -/
def recordText (value : Json) : Option String :=
  match value with
  | .str text =>
    if strip text = "" ∨ 280 < text.length ∨ text.toList.any (·.toNat < 32) = true then none
    else some text
  | _ => none

theorem recordText_plain (value : Option PyJson) :
    recordText ((value.map PyJson.plain).getD .null) = PlanningStreamParser.progressText value := by
  cases value with
  | none => rfl
  | some value =>
    cases value with
    | null | bool | int | arr => rfl
    | float value => cases value <;> rfl
    | obj fields =>
      show recordText (if PyJson.freezableFields fields = true then _ else _) = none
      split <;> rfl
    | str s =>
      show recordText (match PyJson.plainText s with | some text => .str text | none => .null) = _
      unfold PlanningStreamParser.progressText PyJson.plainText
      cases hchars : s.chars? with
      | none => simp only [hchars]; rfl
      | some chars => simp only [hchars, recordText, Option.map_some, String.toList_ofList]

/-- A progress record, of a line that is one. -/
theorem progress_plain (value : Json) (index start stop : Nat) (after : RecordState) :
    (match value with
      | .str value =>
        if strip value = "" ∨ 280 < value.length ∨ value.toList.any (·.toNat < 32) = true then
          Except.ok (none, after)
        else .ok (some (⟨value, index, start, stop⟩ : PlanningProgress), after)
      | _ => .ok (none, after) : Except PyError (Option PlanningProgress × RecordState)) =
    .ok ((recordText value).map (⟨·, index, start, stop⟩), after) := by
  unfold recordText
  cases value with
  | str text =>
    dsimp only
    split <;> rfl
  | _ => rfl

/-- The plan of a record is an object whose texts hold no surrogates. -/
theorem plain_plan (value : Option PyJson) :
    (∃ plan, value = some (.obj plan) ∧ PyJson.freezableFields plan = true ∧
      (value.map PyJson.plain).getD .null = .obj (PyJson.plainFields plan)) ∨
    ((∀ plan, value = some (.obj plan) → PyJson.freezableFields plan = false) ∧
      ∀ plan, (value.map PyJson.plain).getD .null ≠ .obj plan) := by
  cases value with
  | none => exact .inr ⟨fun _ h => (nomatch h), fun _ h => (nomatch h)⟩
  | some value =>
    cases value with
    | null | bool | int | arr => exact .inr ⟨fun _ h => (nomatch h), fun _ h => (nomatch h)⟩
    | float value =>
      cases value <;> exact .inr ⟨fun _ h => (nomatch h), fun _ h => (nomatch h)⟩
    | str s =>
      refine .inr ⟨fun _ h => (nomatch h), fun plan h => ?_⟩
      have hstr : (match PyJson.plainText s with | some text => Json.str text | none => .null) =
          .obj plan := h
      split at hstr <;> exact nomatch hstr
    | obj fields =>
      have hplain : ((some (PyJson.obj fields)).map PyJson.plain).getD .null =
          if PyJson.freezableFields fields = true then .obj (PyJson.plainFields fields)
          else .null := rfl
      by_cases hfreeze : PyJson.freezableFields fields = true
      · exact .inl ⟨fields, rfl, hfreeze, by rw [hplain, if_pos hfreeze]⟩
      · refine .inr ⟨fun plan h => ?_, fun plan h => ?_⟩
        · cases h
          exact Bool.eq_false_iff.2 hfreeze
        · rw [hplain, if_neg hfreeze] at h
          exact nomatch h

/-- **The two parsers accept the same lines.** -/
theorem acceptRecord_plain (h : SameRecords state p) (line : String) (size : Nat) :
    SameOutcome (acceptRecord (plainLoads loads) state line size)
      (PlanningStreamParser.acceptRecord loads p line size) := by
  unfold acceptRecord PlanningStreamParser.acceptRecord plainLoads
  by_cases hsize : 262144 < size
  · rw [if_pos hsize, if_pos hsize]
    trivial
  · rw [if_neg hsize, if_neg hsize]
    by_cases hblank : strip line = ""
    · rw [if_pos hblank, if_pos hblank]
      exact ⟨rfl, by rw [h.consumed], h.records, h.plan⟩
    · rw [if_neg hblank, if_neg hblank, h.plan, h.consumed, h.records]
      by_cases hplan : p.plan.isSome = true
      · rw [if_pos hplan, if_pos hplan]
        trivial
      · rw [if_neg hplan, if_neg hplan]
        cases hline : loads line with
        | error e => trivial
        | ok value =>
          cases value with
          | obj row =>
            show SameOutcome (if versionOne (Json.get (PyJson.plainFields row) "v") = false then _
              else _) (if PyJson.isOne (PyJson.get row "v") = false then _ else _)
            simp only [PyJson.get_plainFields row (by decide : "v" ≠ ""),
              PyJson.get_plainFields row (by decide : "type" ≠ ""),
              PyJson.get_plainFields row (by decide : "text" ≠ ""),
              PyJson.get_plainFields row (by decide : "plan" ≠ ""),
              PyJson.hasKeys_plainFields row (by decide : ∀ name ∈ ["v", "type", "text"], name ≠ ""),
              PyJson.hasKeys_plainFields row (by decide : ∀ name ∈ ["v", "type", "plan"], name ≠ ""),
              PyJson.versionOne_plain, PyJson.pyEq_plain _ (by decide : "progress" ≠ ""),
              PyJson.pyEq_plain _ (by decide : "plan" ≠ "")]
            by_cases hv : PyJson.isOne (PyJson.get row "v") = false
            · rw [if_pos hv, if_pos hv]
              trivial
            · rw [if_neg hv, if_neg hv]
              by_cases hprogress : PyJson.isText (PyJson.get row "type") "progress" = true ∧
                  PyJson.hasKeys row ["v", "type", "text"] = true
              · rw [if_pos hprogress, if_pos hprogress]
                by_cases hlimit : 16 < p.records + 1
                · rw [if_pos hlimit, if_pos hlimit]
                  trivial
                · rw [if_neg hlimit, if_neg hlimit]
                  refine Eq.mpr (congrArg (SameOutcome · _) (progress_plain _ _ _ _ _)) ?_
                  rw [recordText_plain]
                  cases PlanningStreamParser.progressText (PyJson.get row "text") with
                  | none => exact ⟨rfl, rfl, rfl, rfl⟩
                  | some text => exact ⟨rfl, rfl, rfl, rfl⟩
              · rw [if_neg hprogress, if_neg hprogress]
                by_cases hfinal : PyJson.isText (PyJson.get row "type") "plan" = true ∧
                    PyJson.hasKeys row ["v", "type", "plan"] = true
                · rw [if_pos hfinal, if_pos hfinal]
                  obtain ⟨plan, hplan', hfreeze, hplain⟩ | ⟨hnone, hplain⟩ :=
                    plain_plan (PyJson.get row "plan")
                  · simp only [hplan', hfreeze, if_true] at hplain ⊢
                    rw [hplain]
                    exact ⟨rfl, rfl, rfl, rfl⟩
                  · split
                    · rename_i hobj
                      exact absurd hobj (hplain _)
                    · split
                      · rename_i hobj
                        rw [hnone _ hobj, if_neg Bool.false_ne_true]
                        trivial
                      · trivial
                · rw [if_neg hfinal, if_neg hfinal]
                  trivial
          | _ => trivial

/-! ## Lines -/

open PlanningTextDeltaParser (unlines)
open PlanningStreamParser (accepted accepted_cons readChars acceptRecord_eq_ok acceptRecord_cases)

theorem byteSize_unlines (lines : List String) :
    byteSize (unlines lines) = (lines.map lineSize).sum := by
  induction lines with
  | nil => rfl
  | cons line rest ih =>
    have hsplit : unlines (line :: rest) = line.toList ++ (['\n'] ++ unlines rest) := by
      simp [unlines]
    have hsize : lineSize line = byteSize line.toList + 1 := by
      rw [← lineSize_ofList, String.ofList_toList]
    have hend : byteSize ['\n'] = 1 := by decide
    rw [hsplit, byteSize_append, byteSize_append, ih, hend, List.map_cons, List.sum_cons, hsize,
      Nat.add_assoc]

/-- Lines come back from their text. -/
theorem splitLines_unlines {lines : List String} (h : ∀ line ∈ lines, '\n' ∉ line.toList) :
    splitLines [] (unlines lines) = (lines, "") := by
  induction lines with
  | nil => rfl
  | cons line rest ih =>
    have hsplit : unlines (line :: rest) = line.toList ++ ('\n' :: unlines rest) := by
      simp [unlines]
    rw [hsplit, splitLines_of_not_mem (h line List.mem_cons_self), List.nil_append, splitLines,
      if_pos rfl, ih fun other hother => h other (List.mem_cons_of_mem line hother),
      String.ofList_toList]

theorem takeBytes_append (front back : List Char) :
    takeBytes (byteSize front) (front ++ back) = some front := by
  induction front with
  | nil =>
    have hempty : byteSize [] = 0 := by decide
    rw [hempty, takeBytes]
  | cons c rest ih =>
    have hsize : byteSize (c :: rest) = c.utf8Size + byteSize rest := by
      rw [byteSize_cons]
      simp [byteSize]
    have hpos := c.utf8Size_pos
    obtain ⟨n, hn⟩ : ∃ n, byteSize (c :: rest) = n + 1 := ⟨byteSize (c :: rest) - 1, by omega⟩
    have hrest : n + 1 - c.utf8Size = byteSize rest := by omega
    rw [hn, List.cons_append, takeBytes, if_pos (by omega), hrest, ih]
    rfl

/-! ## The check finds a record -/

/-- What the journal's check makes of the lines up to a record: it is the last of the
records, and the only one of its number. -/
structure Last (loads : String → Except PyError PyJson) (state : RecordState)
    (lines : List String) (r : PlanningProgress) : Prop where
  records : ∃ earlier, acceptLines (plainLoads loads) state lines = .ok (earlier ++ [r]) ∧
    ∀ e ∈ earlier, e.recordIndex < r.recordIndex

/-- **Where a record of accepted lines ends, the check finds it.** -/
theorem last_of_accepted {p' : PlanningStreamParser} (hsame : SameRecords state p)
    {lines : List String} {progress : List PlanningProgress}
    (h : accepted loads p lines = some (progress, p')) {r : PlanningProgress} (hr : r ∈ progress) :
    p.records < r.recordIndex ∧ ∃ front line back, lines = front ++ line :: back ∧
      r.sourceStart = p.consumed + (front.map lineSize).sum ∧
      r.sourceEnd = r.sourceStart + lineSize line ∧ Last loads state (front ++ [line]) r := by
  induction lines generalizing p state progress with
  | nil =>
    cases h
    cases hr
  | cons line rest ih =>
    rw [accepted_cons] at h
    obtain ⟨⟨own, q⟩, hrecord, h⟩ := Option.bind_eq_some_iff.1 h
    obtain ⟨⟨others, q'⟩, hrest, h⟩ := Option.map_eq_some_iff.1 h
    cases h
    have hok : PlanningStreamParser.acceptRecord loads p line (lineSize line) = .ok (own, q) := by
      cases hrecord' : PlanningStreamParser.acceptRecord loads p line (lineSize line) with
      | error e => rw [hrecord'] at hrecord; cases hrecord
      | ok pair => rw [hrecord'] at hrecord; cases hrecord; rfl
    obtain ⟨state', hplain, hsame'⟩ : ∃ state',
        acceptRecord (plainLoads loads) state line (lineSize line) = .ok (own, state') ∧
          SameRecords state' q := by
      have hsame' : SameOutcome (acceptRecord (plainLoads loads) state line (lineSize line)) _ :=
        acceptRecord_plain hsame line (lineSize line)
      rw [hok] at hsame'
      unfold SameOutcome at hsame'
      split at hsame'
      · next pair pair' heq hpair =>
        cases hpair
        obtain ⟨hown, hstate⟩ := hsame'
        exact ⟨_, heq.trans (congrArg Except.ok (Prod.ext hown rfl)), hstate⟩
      · next hpair => cases hpair
      · exact hsame'.elim
    have hlines : ∀ more, acceptLines (plainLoads loads) state (line :: more) =
        (acceptLines (plainLoads loads) state' more).map (own.toList ++ ·) := by
      intro more
      have hline : (line ++ "\n").utf8ByteSize = lineSize line := rfl
      rw [acceptLines, hline, hplain]
      show (acceptLines (plainLoads loads) state' more >>= _) = _
      cases acceptLines (plainLoads loads) state' more <;> rfl
    obtain ⟨-, hconsumed, -, -⟩ := acceptRecord_eq_ok hok
    rcases List.mem_append.1 hr with hr | hr
    · rcases acceptRecord_cases hok with ⟨-, rfl, -⟩ | ⟨-, -, _, -, hown⟩
      · cases hr
      obtain rfl : own = some r := by simpa using hr
      obtain ⟨hindex, hstart, hend, -⟩ := hown r rfl
      refine ⟨by omega, [], line, rest, rfl, hstart, hstart ▸ hend, ⟨[], hlines [], ?_⟩⟩
      intro e he
      cases he
    · obtain ⟨hnumber, front, own', back, rfl, hstart, hend, ⟨earlier, hearlier, hbefore⟩⟩ :=
        ih hsame' hrest hr
      have hrecords : p.records ≤ q.records ∧ ∀ e ∈ own, e.recordIndex ≤ q.records := by
        rcases acceptRecord_cases hok with ⟨-, rfl, heq⟩ | ⟨-, heq, _, -, hown⟩
        · exact ⟨heq.ge, fun e he => by cases he⟩
        · exact ⟨by omega, fun e he => by rw [(hown e he).1, heq]⟩
      refine ⟨by omega, line :: front, own', back, rfl, ?_, hend, ⟨own.toList ++ earlier, ?_, ?_⟩⟩
      · rw [hstart, hconsumed, List.map_cons, List.sum_cons, Nat.add_assoc]
      · rw [List.cons_append, hlines, hearlier]
        show Except.ok _ = Except.ok _
        rw [List.append_assoc]
      · intro e he
        rcases List.mem_append.1 he with he | he
        · have := hrecords.2 e (by simpa using he)
          omega
        · exact hbefore e he

/-- The journal's check finds a record in a Provider text. -/
structure Recorded (loads : String → Except PyError PyJson) (raw : List Char)
    (r : PlanningProgress) : Prop where
  span : r.sourceStart < r.sourceEnd
  found : ∃ front back, raw = front ++ back ∧ byteSize front = r.sourceEnd ∧
    ∃ earlier, planningRecords (plainLoads loads) (String.ofList front) = .ok (earlier ++ [r]) ∧
      ∀ e ∈ earlier, e.recordIndex < r.recordIndex

/-- A text that goes on still has its records. -/
theorem Recorded.append {raw : List Char} {r : PlanningProgress} (h : Recorded loads raw r)
    (more : List Char) : Recorded loads (raw ++ more) r := by
  obtain ⟨front, back, rfl, hsize, hfound⟩ := h.found
  exact ⟨h.span, front, back ++ more, List.append_assoc .., hsize, hfound⟩

/-- **Every record of a text is found in it.** -/
theorem recorded_of_read {raw : List Char} {progress : List PlanningProgress}
    (h : readChars loads {} raw = some (progress, p)) {r : PlanningProgress} (hr : r ∈ progress) :
    Recorded loads raw r := by
  unfold readChars at h
  split at h
  · cases h
  next htotal =>
  obtain ⟨⟨records, q⟩, haccepted, h⟩ := Option.bind_eq_some_iff.1 h
  have hprogress : progress = records := by
    split at h
    · cases h
    · cases h
      rfl
  rw [hprogress] at hr
  have hbuffer : ({} : PlanningStreamParser).buffer.toList = [] := by simp
  rw [hbuffer] at haccepted htotal
  have hsame : SameRecords {} ({} : PlanningStreamParser) := ⟨rfl, rfl, rfl⟩
  obtain ⟨-, front, line, back, hlines, hstart, hend, ⟨earlier, hearlier, hbefore⟩⟩ :=
    last_of_accepted hsame haccepted hr
  have hunlines := unlines_splitLines [] raw
  rw [hlines, List.nil_append] at hunlines
  have hsplit : unlines (front ++ line :: back) = unlines (front ++ [line]) ++ unlines back := by
    simp [unlines]
  have hsize : byteSize (unlines (front ++ [line])) = r.sourceEnd := by
    rw [byteSize_unlines, List.map_append, List.sum_append, hend, hstart]
    simp
  have hline : 0 < lineSize line := by
    rw [← String.ofList_toList (s := line), lineSize_ofList]
    omega
  refine ⟨by omega, unlines (front ++ [line]), unlines back ++ (splitLines [] raw).2.toList, ?_,
    hsize, earlier, ?_, hbefore⟩
  · rw [← List.append_assoc, ← hsplit, hunlines]
  · have hclean : ∀ l ∈ front ++ [line], '\n' ∉ l.toList := by
      intro l hl
      refine not_mem_of_mem_splitLines List.not_mem_nil raw l ?_
      rw [hlines]
      rcases List.mem_append.1 hl with hl | hl
      · exact List.mem_append_left _ hl
      · exact List.mem_append_right _ (List.mem_singleton.1 hl ▸ List.mem_cons_self)
    have hbytes : ¬1048576 < (String.ofList (unlines (front ++ [line]))).utf8ByteSize := by
      have hle : byteSize (unlines (front ++ [line])) ≤ byteSize raw := by
        rw [← hunlines, hsplit, byteSize_append, byteSize_append]
        omega
      have hraw : ¬1048576 < 0 + byteSize raw := htotal
      show ¬1048576 < byteSize (unlines (front ++ [line]))
      omega
    rw [planningRecords, if_neg hbytes, String.toList_ofList, splitLines_unlines hclean]
    show (acceptLines (plainLoads loads) {} (front ++ [line]) >>= _) = _
    rw [hearlier]
    rfl

end Output

end Purra
