import Purra.Core.Normalization
import Purra.Lib.Action
import Purra.Lib.Run
import Purra.Lib.Slices

/-!
# The buffered journal

`_BufferedEvents` of `purra/storage/journal.py`: the committed events of a journal, which are read
when they are asked for, and behind them the events that a transaction has appended.

* `BufferedEvents` — a journal; `readHistory`, `iterate`, `getItem`, `append` are its methods.
* `pick` — what indexing the plain list gives.
* `Overreaches` — a slice that begins behind the history and ends in it; its end is then counted
  from the end of the appended events.
* `getItem_iff` — **indexing the journal is indexing the list, except for these slices.**
-/

namespace Purra

open Purra.Action

/-- What indexing raises. -/
inductive IndexFault where
  | indexError
  | raised (error : PyError)
  deriving DecidableEq

/-- An index of a sequence. -/
inductive EventIndex where
  | at_ (index : Int)
  | slice (slice : Slice)

/-- What indexing gives: an item, or the items of a slice. -/
inductive Picked (α : Type) where
  | one (item : α)
  | many (items : List α)
  deriving DecidableEq

/-- A step of zero. -/
def zeroStep : IndexFault := .raised (.valueError "slice step cannot be zero")

/-- Indexing a plain list. -/
def pick {α : Type} (xs : List α) : EventIndex → Except IndexFault (Picked α)
  | .slice slice => match slice.of xs with
    | none => .error zeroStep
    | some items => .ok (.many items)
  | .at_ index =>
    match wrapIndex xs.length index with
    | .ofNat n => match xs[n]? with
      | some item => .ok (.one item)
      | none => .error .indexError
    | .negSucc _ => .error .indexError

/-- `_BufferedEvents`. -/
structure BufferedEvents (α : Type) where
  count : Nat
  load : Except PyError (List α)
  pending : List α
  history : Option (List α)

namespace BufferedEvents

variable {α : Type}

/-- `__init__`, for a history that can be read. -/
def fresh (history : List α) : BufferedEvents α := ⟨history.length, .ok history, [], none⟩

/-- `__len__`. -/
def length (journal : BufferedEvents α) : Nat := journal.count + journal.pending.length

/-- `_history`. -/
def readHistory : Action (BufferedEvents α) IndexFault (List α) := do
  let journal ← read
  match journal.history with
  | some history => pure history
  | none => do
    let history ← ofExcept (journal.load.mapError .raised)
    write fun journal => { journal with history := some history }
    if history.length ≠ journal.count then
      raise (.raised (.valueError "incomplete output journal"))
    else pure history

/-- `__iter__`, to its end. -/
def iterate : Action (BufferedEvents α) IndexFault (List α) := do
  let history ← readHistory
  let journal ← read
  pure (history ++ journal.pending)

/-- `__getitem__` of a slice. -/
def getSlice (slice : Slice) : Action (BufferedEvents α) IndexFault (Picked α) := do
  let journal ← read
  match slice.indices journal.length with
  | none => raise zeroStep
  | some (start, stop, step) =>
    if 0 < step ∧ journal.count ≤ start then
      ofExcept (pick journal.pending (.slice
        ⟨some (start - journal.count), some (stop - journal.count), some step⟩))
    else do
      let events ← iterate
      ofExcept (pick events (.slice slice))

/-- The item at an index that has been moved behind the beginning. -/
def getMoved (index : Int) : Action (BufferedEvents α) IndexFault (Picked α) := do
  let journal ← read
  if index < 0 ∨ journal.length ≤ index then raise .indexError
  else if journal.count ≤ index then
    ofExcept (pick journal.pending (.at_ (index - journal.count)))
  else do
    let history ← readHistory
    ofExcept (pick history (.at_ index))

/-- `__getitem__` of an integer. -/
def getAt (index : Int) : Action (BufferedEvents α) IndexFault (Picked α) := do
  let journal ← read
  getMoved (wrapIndex journal.length index)

/-- `__getitem__`. -/
def getItem : EventIndex → Action (BufferedEvents α) IndexFault (Picked α)
  | .slice slice => getSlice slice
  | .at_ index => getAt index

/-- `append`. -/
def append (event : α) : Action (BufferedEvents α) IndexFault Unit :=
  write fun journal => { journal with pending := journal.pending ++ [event] }

end BufferedEvents

/-- A call of the journal. -/
inductive JournalCall (α : Type) where
  | append (event : α)
  | getItem (index : EventIndex)
  | iterate

namespace BufferedEvents

variable {α : Type}

/-- A call. -/
def step (journal : BufferedEvents α) : JournalCall α → BufferedEvents α
  | .append event => (append event).final journal
  | .getItem index => (getItem index).final journal
  | .iterate => iterate.final journal

/-- The events that some calls append. -/
def appended (calls : List (JournalCall α)) : List α :=
  calls.filterMap fun call => match call with
    | .append event => some event
    | _ => none

/-! ## What the journal holds -/

/-- The journal holds the history, read or not yet, and these events behind it. -/
structure Holds (history pending : List α) (journal : BufferedEvents α) : Prop where
  count : journal.count = history.length
  load : journal.load = .ok history
  pending : journal.pending = pending
  history : journal.history = none ∨ journal.history = some history

section

variable {history pending : List α} {journal : BufferedEvents α}

theorem Holds.length (h : Holds history pending journal) :
    journal.length = (history ++ pending).length := by
  rw [BufferedEvents.length, h.count, h.pending, List.length_append]

theorem Holds.readHistory (h : Holds history pending journal) :
    ∃ read, readHistory journal = (.ok history, read) ∧ Holds history pending read := by
  unfold BufferedEvents.readHistory
  rw [read_bind_apply]
  rcases h.history with hnone | hsome
  · refine ⟨{ journal with history := some history }, ?_, h.count, h.load, h.pending, Or.inr rfl⟩
    rw [hnone, h.load]
    dsimp only [Except.mapError]
    rw [ofExcept_ok_bind_apply, write_bind_apply, if_neg (not_not.2 h.count.symm), pure_apply, h.load]
  · refine ⟨journal, ?_, h⟩
    rw [hsome]
    rfl

theorem Holds.iterate (h : Holds history pending journal) :
    ∃ read, iterate journal = (.ok (history ++ pending), read) ∧ Holds history pending read := by
  obtain ⟨read, hread, hholds⟩ := h.readHistory
  refine ⟨read, ?_, hholds⟩
  unfold BufferedEvents.iterate
  rw [bind_apply, hread]
  dsimp only
  rw [read_bind_apply, hholds.pending]
  rfl

/-- A slice that is not taken of the appended events alone is one of the whole journal. -/
theorem Holds.getSlice (h : Holds history pending journal) {slice : Slice}
    {start stop step : Int} (hindices : slice.indices journal.length = some (start, stop, step))
    (hwhole : ¬(0 < step ∧ (journal.count : Int) ≤ start)) :
    (getSlice slice journal).1 = pick (history ++ pending) (.slice slice) := by
  obtain ⟨read, hread, -⟩ := h.iterate
  unfold BufferedEvents.getSlice
  rw [read_bind_apply, hindices]
  dsimp only
  rw [if_neg hwhole, bind_apply, hread]
  rfl

theorem Holds.getSlice_pending (h : Holds history pending journal) {slice : Slice}
    {start stop step : Int} (hindices : slice.indices journal.length = some (start, stop, step))
    (hpending : 0 < step ∧ (journal.count : Int) ≤ start) :
    (BufferedEvents.getSlice slice journal).1 = pick pending (.slice
      ⟨some (start - history.length), some (stop - history.length), some step⟩) := by
  unfold BufferedEvents.getSlice
  rw [read_bind_apply, hindices]
  dsimp only
  rw [if_pos hpending, h.pending, h.count]
  rfl

theorem pick_at {xs : List α} {index moved : Int} (hmoved : wrapIndex xs.length index = moved)
    (h : 0 ≤ moved) :
    pick xs (.at_ index) = match xs[moved.toNat]? with
      | some item => .ok (.one item)
      | none => .error .indexError := by
  unfold pick
  dsimp only
  rw [hmoved]
  obtain ⟨n, rfl⟩ := Int.eq_ofNat_of_zero_le h
  rfl

theorem pick_at_negative {xs : List α} {index : Int} (h : wrapIndex xs.length index < 0) :
    pick xs (.at_ index) = .error .indexError := by
  unfold pick
  dsimp only
  cases hmoved : wrapIndex xs.length index with
  | negSucc n => rfl
  | ofNat n =>
    rw [hmoved] at h
    exact absurd h (by simp)

/-- An index that is not negative is not moved. -/
theorem wrapIndex_of_nonneg {length index : Int} (h : 0 ≤ index) : wrapIndex length index = index :=
  if_neg (Int.not_lt.2 h)

/-- An integer picks the same event. -/
theorem Holds.getAt (h : Holds history pending journal) (index : Int) :
    (BufferedEvents.getAt index journal).1 = pick (history ++ pending) (.at_ index) := by
  have hcount : journal.count = history.length := h.count
  have hlength : journal.length = history.length + pending.length := by
    rw [h.length, List.length_append]
  have hall : (history ++ pending).length = history.length + pending.length := List.length_append
  unfold BufferedEvents.getAt
  rw [read_bind_apply, h.length]
  generalize hmoved : wrapIndex ((history ++ pending).length : Nat) index = moved
  unfold getMoved
  rw [read_bind_apply]
  by_cases hout : moved < 0 ∨ (journal.length : Int) ≤ moved
  · rw [if_pos hout]
    by_cases hneg : moved < 0
    · rw [pick_at_negative (hmoved ▸ hneg)]
      rfl
    · rw [pick_at hmoved (by omega), List.getElem?_eq_none (by omega)]
      rfl
  · rw [if_neg hout, pick_at hmoved (by omega)]
    by_cases hpending : (journal.count : Int) ≤ moved
    · rw [if_pos hpending, h.pending, hcount]
      have hnat : moved.toNat - history.length = (moved - history.length).toNat := by omega
      rw [List.getElem?_append_right (by omega), hnat, Action.ofExcept]
      exact pick_at (wrapIndex_of_nonneg (by omega)) (by omega)
    · obtain ⟨read, hread, -⟩ := h.readHistory
      rw [if_neg hpending, bind_apply, hread, List.getElem?_append_left (by omega)]
      exact pick_at (wrapIndex_of_nonneg (by omega)) (by omega)

end

/-! ## Slices of the appended events -/

/-- The slice begins behind the history and ends in it, but before the appended events have been
counted back from the end. -/
def Overreaches (count pending : Nat) : EventIndex → Bool
  | .at_ _ => false
  | .slice slice => match slice.indices (count + pending) with
    | none => false
    | some (start, stop, step) =>
      0 < step ∧ (count : Int) ≤ start ∧ stop < count ∧ start < stop + pending

/-- The items of a slice of the appended events, with its bounds moved. -/
theorem of_moved {pending : List α} {start stop step : Int} (hstep : 0 < step) (hstart : 0 ≤ start)
    (hle : start ≤ pending.length) :
    Slice.of ⟨some start, some stop, some step⟩ pending =
      some (itemsAt pending (stepRange start (clampIndex pending.length 0 pending.length stop)
        step)) := by
  unfold Slice.of Slice.indices
  dsimp only [Option.getD_some]
  rw [if_neg (by omega)]
  unfold Slice.bounds
  rw [if_pos hstep]
  dsimp only [Option.map_some, Option.getD_some]
  rw [clampIndex_of_mem hstart hle]

/-- Behind the history, the slice of the appended events is that of the whole list exactly when its
end is not counted from the end of the appended events. -/
theorem items_moved_iff {history pending : List α} {start stop step : Int} (hstep : 0 < step)
    (hstart : (history.length : Int) ≤ start) (hle : start ≤ history.length + pending.length)
    (hend : stop ≤ history.length + pending.length) :
    itemsAt pending (stepRange (start - history.length)
        (clampIndex pending.length 0 pending.length (stop - history.length)) step) =
      itemsAt (history ++ pending) (stepRange start stop step) ↔
    ¬(stop < history.length ∧ start < stop + pending.length) := by
  rw [sliceOf_append hstep hstart]
  by_cases hbehind : (history.length : Int) ≤ stop
  · rw [clampIndex_of_mem (by omega) (by omega)]
    exact iff_of_true rfl fun h => by omega
  · have hempty : stepRange (start - history.length) (stop - history.length) step = [] :=
      stepRange_eq_nil hstep (by omega)
    have hclamp : clampIndex pending.length 0 pending.length (stop - history.length) =
        max 0 (stop - history.length + pending.length) := by
      unfold clampIndex
      rw [if_pos (by omega)]
    rw [hempty, hclamp]
    by_cases hover : start < stop + pending.length
    · refine iff_of_false (fun h => ?_) (fun h => h ⟨by omega, hover⟩)
      have hhead : start - history.length ∈
          stepRange (start - history.length) (max 0 (stop - history.length + pending.length)) step :=
        stepRange_head hstep (by omega)
      have hbound : (start - history.length).toNat < pending.length := by omega
      have hitem : pending[(start - history.length).toNat] ∈
          itemsAt pending (stepRange (start - history.length)
            (max 0 (stop - history.length + pending.length)) step) :=
        List.mem_filterMap.2 ⟨_, hhead, List.getElem?_eq_getElem hbound⟩
      rw [h] at hitem
      cases hitem
    · refine iff_of_true ?_ fun h => hover h.2
      rw [stepRange_eq_nil hstep (by omega)]

theorem Holds.getSlice_iff {history pending : List α} {journal : BufferedEvents α}
    (h : Holds history pending journal) (slice : Slice) :
    (BufferedEvents.getSlice slice journal).1 = pick (history ++ pending) (.slice slice) ↔
      Overreaches history.length pending.length (.slice slice) = false := by
  have hlength : journal.length = history.length + pending.length := by
    rw [h.length, List.length_append]
  unfold Overreaches
  dsimp only
  rw [← hlength]
  cases hindices : slice.indices journal.length with
  | none =>
    refine iff_of_true ?_ rfl
    have hof : slice.of (history ++ pending) = none := by
      rw [Slice.of, ← h.length, hindices]
      rfl
    unfold BufferedEvents.getSlice
    rw [read_bind_apply, hindices]
    unfold pick
    dsimp only
    rw [hof]
    rfl
  | some bounds =>
    obtain ⟨start, stop, step⟩ := bounds
    have hof : slice.of (history ++ pending) =
        some (itemsAt (history ++ pending) (stepRange start stop step)) := by
      rw [Slice.of, ← h.length, hindices]
      rfl
    have hplain : pick (history ++ pending) (.slice slice) =
        .ok (.many (itemsAt (history ++ pending) (stepRange start stop step))) := by
      unfold pick
      dsimp only
      rw [hof]
    dsimp only
    rw [decide_eq_false_iff_not]
    by_cases hpending : 0 < step ∧ (journal.count : Int) ≤ start
    · have hstart : (history.length : Int) ≤ start := h.count ▸ hpending.2
      obtain ⟨hle, hend⟩ := Slice.indices_le hindices hpending.1
      rw [hlength] at hle hend
      rw [h.getSlice_pending hindices hpending, hplain]
      unfold pick
      dsimp only
      rw [of_moved hpending.1 (by omega) (by omega)]
      dsimp only
      rw [Except.ok.injEq, Picked.many.injEq, items_moved_iff hpending.1 hstart (by omega) (by omega)]
      exact ⟨fun hnot hover => hnot ⟨hover.2.2.1, hover.2.2.2⟩,
        fun hnot hover => hnot ⟨hpending.1, hstart, hover.1, hover.2⟩⟩
    · refine iff_of_true (h.getSlice hindices hpending) fun hover => hpending ?_
      rw [h.count]
      exact ⟨hover.1, hover.2.1⟩

theorem holds_fresh (history : List α) : Holds history [] (fresh history) :=
  ⟨rfl, rfl, rfl, Or.inl rfl⟩

/-! ## Runs -/

section

variable {history pending : List α}

theorem preserves_readHistory :
    Preserves (Holds history pending) (readHistory : Action (BufferedEvents α) _ _) := by
  intro journal h
  obtain ⟨read, hread, hholds⟩ := h.readHistory
  rw [final, hread]
  exact hholds

theorem preserves_iterate :
    Preserves (Holds history pending) (iterate : Action (BufferedEvents α) _ _) :=
  preserves_bind preserves_readHistory fun _ => preserves_read_bind fun _ => preserves_pure _

theorem preserves_getItem (index : EventIndex) :
    Preserves (Holds history pending) (getItem index : Action (BufferedEvents α) _ _) := by
  cases index with
  | slice slice =>
    refine preserves_read_bind fun journal => ?_
    split
    · exact preserves_raise _
    · refine preserves_ite (fun _ => preserves_ofExcept _) fun _ => ?_
      exact preserves_bind preserves_iterate fun _ => preserves_ofExcept _
  | at_ index =>
    refine preserves_read_bind fun journal => preserves_read_bind fun _ => ?_
    refine preserves_ite (fun _ => preserves_raise _) fun _ => ?_
    refine preserves_ite (fun _ => preserves_ofExcept _) fun _ => ?_
    exact preserves_bind preserves_readHistory fun _ => preserves_ofExcept _

/-- A call keeps the history, and appends what it is asked to. -/
theorem Holds.step {journal : BufferedEvents α} (h : Holds history pending journal)
    (call : JournalCall α) : Holds history (pending ++ appended [call]) (journal.step call) := by
  cases call with
  | append event =>
    have hpending : journal.pending ++ [event] = pending ++ [event] := by rw [h.pending]
    exact ⟨h.count, h.load, hpending, h.history⟩
  | getItem index =>
    have hsame : pending ++ appended [JournalCall.getItem index] = pending := List.append_nil _
    rw [hsame]
    exact preserves_getItem index journal h
  | iterate =>
    have hsame : pending ++ appended [JournalCall.iterate] = pending := List.append_nil _
    rw [hsame]
    exact preserves_iterate journal h

theorem Holds.exec {journal : BufferedEvents α} (h : Holds history pending journal)
    (calls : List (JournalCall α)) :
    Holds history (pending ++ appended calls) (exec BufferedEvents.step journal calls) := by
  induction calls generalizing pending journal with
  | nil =>
    rw [appended, List.filterMap_nil, List.append_nil]
    exact h
  | cons call calls ih =>
    have hsplit : appended (call :: calls) = appended [call] ++ appended calls := by
      rw [appended, appended, appended, ← List.filterMap_append]
      rfl
    rw [hsplit, ← List.append_assoc]
    exact ih (h.step call)

end

/-- **Indexing the journal is indexing the list**, unless a slice begins behind the history and
ends in it, so that its end is counted from the end of the appended events. -/
theorem getItem_iff (history : List α) (calls : List (JournalCall α)) (index : EventIndex) :
    let journal := Purra.exec BufferedEvents.step (fresh history) calls
    let events := history ++ appended calls
    ((getItem index journal).1 = pick events index ∧ (iterate journal).1 = .ok events ∧
        journal.length = events.length) ↔
      Overreaches history.length (appended calls).length index = false := by
  intro journal events
  have hholds : Holds history (appended calls) journal := by
    have := (holds_fresh history).exec calls
    rwa [List.nil_append] at this
  have hiterate : (iterate journal).1 = .ok events := by
    obtain ⟨read, hread, -⟩ := hholds.iterate
    rw [hread]
  have hlength : journal.length = events.length := hholds.length
  have hindex : (getItem index journal).1 = pick events index ↔
      Overreaches history.length (appended calls).length index = false := by
    cases index with
    | slice slice => exact hholds.getSlice_iff slice
    | at_ index => exact iff_of_true (hholds.getAt index) rfl
  rw [← hindex]
  exact ⟨fun h => h.1, fun h => ⟨h, hiterate, hlength⟩⟩

/-- One committed event and two appended: the empty slice `1:0` gives the first appended one. -/
theorem getItem_slice_reversed :
    let journal := Purra.exec BufferedEvents.step (fresh [10]) [.append 20, .append 30]
    let index := EventIndex.slice ⟨some 1, some 0, none⟩
    (getItem index journal).1 = .ok (.many [20]) ∧
      pick [10, 20, 30] index = .ok (.many []) := by
  decide

end BufferedEvents

end Purra
