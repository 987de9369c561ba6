import Mathlib.Data.List.Range

/-!
# Slices of sequences

Indexing a sequence with an integer or with a slice, as Python does: a negative bound counts from
the end, a bound out of range is moved into it, and the step may be negative.

* `Slice.indices` — the bounds of a slice for a length.
* `stepRange` — the positions that a slice visits; `stepRange_shift` moves them.
* `Slice.of` — the items at these positions.
* `sliceOf_append` — a slice that begins behind the first part of a sequence is one of the rest.
-/

namespace Purra

/-- A slice `start:stop:step`; what is left out is `none`. -/
structure Slice where
  start : Option Int := none
  stop : Option Int := none
  step : Option Int := none

/-- An index of a sequence: a negative one counts from the end. -/
def wrapIndex (length index : Int) : Int := if index < 0 then index + length else index

/-- A bound for a length, moved into `lower ≤ _ ≤ upper`. -/
def clampIndex (length lower upper : Int) (i : Int) : Int :=
  if i < 0 then max lower (i + length) else min upper i

/-- The bounds of a slice of a sequence, for a step that is not zero. -/
def Slice.bounds (s : Slice) (length step : Int) : Int × Int :=
  if 0 < step then
    ((s.start.map (clampIndex length 0 length)).getD 0,
      (s.stop.map (clampIndex length 0 length)).getD length)
  else
    ((s.start.map (clampIndex length (-1) (length - 1))).getD (length - 1),
      (s.stop.map (clampIndex length (-1) (length - 1))).getD (-1))

/-- `slice.indices`: start, stop and step; there is none for a step of zero. -/
def Slice.indices (s : Slice) (length : Nat) : Option (Int × Int × Int) :=
  let step := s.step.getD 1
  if step = 0 then none
  else some ((s.bounds length step).1, (s.bounds length step).2, step)

/-- How many positions `range(start, stop, step)` has. -/
def stepCount (start stop step : Int) : Nat :=
  if 0 < step then ((stop - start + step - 1) / step).toNat
  else ((start - stop - step - 1) / -step).toNat

/-- `range(start, stop, step)`. -/
def stepRange (start stop step : Int) : List Int :=
  (List.range (stepCount start stop step)).map fun k : Nat => start + k * step

/-- The items at some positions. -/
def itemsAt {α : Type} (xs : List α) (is : List Int) : List α := is.filterMap fun i => xs[i.toNat]?

/-- The slice of a sequence; there is none for a step of zero. -/
def Slice.of {α : Type} (s : Slice) (xs : List α) : Option (List α) :=
  (s.indices xs.length).map fun (start, stop, step) => itemsAt xs (stepRange start stop step)

/-! ## Positions -/

section

variable {start stop step : Int}

theorem stepRange_shift (by_ : Int) :
    stepRange (start - by_) (stop - by_) step = (stepRange start stop step).map (· - by_) := by
  have hcount : stepCount (start - by_) (stop - by_) step = stepCount start stop step := by
    have hup : stop - by_ - (start - by_) = stop - start := by omega
    have hdown : start - by_ - (stop - by_) = start - stop := by omega
    unfold stepCount
    rw [hup, hdown]
  rw [stepRange, stepRange, hcount, List.map_map]
  refine List.map_congr_left fun k _ => ?_
  simp only [Function.comp_apply]
  omega

theorem le_of_mem_stepRange (hstep : 0 < step) {i : Int} (h : i ∈ stepRange start stop step) :
    start ≤ i := by
  obtain ⟨k, -, rfl⟩ := List.mem_map.1 h
  have : 0 ≤ (k : Int) * step := Int.mul_nonneg (Int.natCast_nonneg k) (Int.le_of_lt hstep)
  omega

theorem stepRange_eq_nil (hstep : 0 < step) (h : stop ≤ start) : stepRange start stop step = [] := by
  have hcount : stepCount start stop step = 0 := by
    unfold stepCount
    rw [if_pos hstep, Int.toNat_eq_zero]
    exact Int.lt_add_one_iff.1 (Int.ediv_lt_of_lt_mul hstep (by omega))
  rw [stepRange, hcount]
  rfl

/-- A range that goes up and is not empty begins at its start. -/
theorem stepRange_head (hstep : 0 < step) (h : start < stop) :
    start ∈ stepRange start stop step := by
  have hcount : 0 < stepCount start stop step := by
    unfold stepCount
    rw [if_pos hstep]
    have hle : 1 ≤ (stop - start + step - 1) / step := by
      rw [Int.le_ediv_iff_mul_le hstep]
      omega
    omega
  refine List.mem_map.2 ⟨0, List.mem_range.2 hcount, ?_⟩
  simp

end

/-! ## Bounds -/

theorem clampIndex_of_mem {length upper i : Int} (h : 0 ≤ i) (hle : i ≤ upper) :
    clampIndex length 0 upper i = i := by
  unfold clampIndex
  rw [if_neg (Int.not_lt.2 h)]
  omega

/-- The bounds of a slice with a positive step lie in the sequence. -/
theorem Slice.bounds_mem {s : Slice} {length step : Int} (hlength : 0 ≤ length) (hstep : 0 < step) :
    0 ≤ (s.bounds length step).1 ∧ (s.bounds length step).1 ≤ length ∧
      0 ≤ (s.bounds length step).2 ∧ (s.bounds length step).2 ≤ length := by
  have hclamp : ∀ i, 0 ≤ clampIndex length 0 length i ∧ clampIndex length 0 length i ≤ length := by
    intro i
    unfold clampIndex
    split <;> omega
  unfold Slice.bounds
  rw [if_pos hstep]
  dsimp only
  refine ⟨?_, ?_, ?_, ?_⟩
  · cases s.start with
    | none => exact Int.le_refl 0
    | some i => exact (hclamp i).1
  · cases s.start with
    | none => exact hlength
    | some i => exact (hclamp i).2
  · cases s.stop with
    | none => exact hlength
    | some i => exact (hclamp i).1
  · cases s.stop with
    | none => exact Int.le_refl length
    | some i => exact (hclamp i).2

theorem Slice.indices_le {s : Slice} {length : Nat} {start stop step : Int}
    (h : s.indices length = some (start, stop, step)) (hstep : 0 < step) :
    start ≤ length ∧ stop ≤ length := by
  unfold Slice.indices at h
  dsimp only at h
  split at h
  · cases h
  · cases h
    obtain ⟨-, hstart, -, hstop⟩ := Slice.bounds_mem (Int.natCast_nonneg length) hstep
    exact ⟨hstart, hstop⟩

/-! ## Slices of a sequence in two parts -/

/-- Positions behind the first part are positions of the rest. -/
theorem itemsAt_append {α : Type} {xs ys : List α} {is : List Int}
    (h : ∀ i ∈ is, (xs.length : Int) ≤ i) :
    itemsAt (xs ++ ys) is = itemsAt ys (is.map (· - xs.length)) := by
  unfold itemsAt
  rw [List.filterMap_map]
  refine List.filterMap_congr fun i hi => ?_
  have hle := h i hi
  have hnat : i.toNat - xs.length = (i - xs.length).toNat := by omega
  simp only [Function.comp_apply]
  rw [List.getElem?_append_right (by omega), hnat]

/-- A slice that begins and ends behind the first part is one of the rest. -/
theorem sliceOf_append {α : Type} {xs ys : List α} {start stop step : Int} (hstep : 0 < step)
    (hstart : (xs.length : Int) ≤ start) :
    itemsAt (xs ++ ys) (stepRange start stop step) =
      itemsAt ys (stepRange (start - xs.length) (stop - xs.length) step) := by
  rw [stepRange_shift, itemsAt_append]
  intro i hi
  exact Int.le_trans hstart (le_of_mem_stepRange hstep hi)

end Purra
