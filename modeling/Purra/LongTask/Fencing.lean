import Purra.LongTask.Runs
import Purra.LongTask.Terms

/-!
# Leases, epochs and attempts

A claim raises a unit's epoch by one, and a worker's write must present the
current epoch.  This file shows what that buys in every run.

* `Move.unit_step` — what a change does to one unit: its epoch moves only when it is
  handed out.
* `claimsOf`, `leaseEpoch_exec` — **an epoch counts the claims of its unit**.
* `apply_of_stale` — **a write with an old epoch changes nothing**, an elapsed deadline
  apart.
* `Bounded`, `bounded_reachable` — live leases within `max_parallelism`, attempts
  within `max_attempts`, and no Run on two units.
* `unit_fencing` — all of it, for every run under a clock that does not go back.
-/

namespace Purra

open StoredLongTask LongTaskRepository

/-! ## One unit under a change -/

/-- What a change does to a unit it does not hand out. -/
structure Unclaimed (u v : LongTaskUnitRecord) : Prop where
  leaseEpoch : v.leaseEpoch = u.leaseEpoch
  attempt : v.attempt = u.attempt
  maxAttempts : u.maxAttempts ≤ v.maxAttempts
  active : v.status.active = true → u.status.active = true

variable {u : LongTaskUnitRecord}

variable {v : LongTaskUnitRecord}

theorem SameUnit.unclaimed (h : SameUnit u v)
    (hactive : v.status.active = true → u.status.active = true) : Unclaimed u v :=
  ⟨h.leaseEpoch, h.attempt, h.maxAttempts, hactive⟩

theorem Unclaimed.refl (u : LongTaskUnitRecord) : Unclaimed u u := ⟨rfl, rfl, le_rfl, id⟩

theorem Halted.unclaimed (h : Halted u v) : Unclaimed u v :=
  h.toSameUnit.unclaimed fun hv => by
    rw [h.inactive] at hv
    cases hv

theorem Lapsed.unclaimed {now : Int} (h : Lapsed now u v) :
    Unclaimed u v := by
  rcases h with rfl | ⟨h, -⟩
  · exact Unclaimed.refl _
  · exact h.unclaimed

/-- The unit stored under `k` was handed out, with its epoch and attempt raised by one within its
limit, or epoch and attempt stay and no worker gets hold of it. -/
def UnitStep (granted : Option LongTaskUnitRecord) (k : String) (u v : LongTaskUnitRecord) :
    Prop :=
  (Unclaimed u v ∧ ∀ g, granted = some g → g.id ≠ k) ∨
    (granted = some v ∧ v.id = k ∧ v.leaseEpoch = u.leaseEpoch + 1 ∧
      v.attempt = u.attempt + 1 ∧ v.attempt ≤ v.maxAttempts)

/-- **What a change does to one unit.** -/
theorem Move.unit_step {now : Int} {task : StoredLongTask} {e : TaskEvent}
    {granted : Option LongTaskUnitRecord} {units : Dict String LongTaskUnitRecord}
    {status : LongTaskStatus} (hmove : Move now task e granted units status)
    {k : String} (hu : task.units.get? k = some u) :
    ∃ v, units.get? k = some v ∧ UnitStep granted k u v := by
  have hsame : ∀ {v : LongTaskUnitRecord}, units.get? k = some v → Unclaimed u v →
      granted = none → ∃ v, units.get? k = some v ∧ UnitStep granted k u v :=
    fun {v} hv huv hnone => ⟨v, hv, Or.inl ⟨huv, by simp [hnone]⟩⟩
  have hset : ∀ {w w' : LongTaskUnitRecord}, task.units.get? w.id = some w → Unclaimed w w' →
      ∃ v, (task.units.set w.id w').get? k = some v ∧ Unclaimed u v := by
    intro w w' hw hww'
    obtain ⟨v, hv, huv⟩ := (Dict.Rel.set hw hww' Unclaimed.refl).get? hu
    exact ⟨v, hv, huv⟩
  cases hmove with
  | stay | start | finalFailed | finalCompleted | finalPaused =>
    exact hsame hu (Unclaimed.refl u) rfl
  | halt hrel =>
    obtain ⟨v, hv, huv⟩ := hrel.get? hu
    exact hsame hv huv.unclaimed rfl
  | resume hrel =>
    obtain ⟨v, hv, huv⟩ := hrel.get? hu
    refine hsame hv (huv.toSameUnit.unclaimed fun hactive => ?_) rfl
    rcases huv.inactive with rfl | hinactive
    · exact hactive
    · rw [hinactive] at hactive
      cases hactive
  | lapse hrel =>
    obtain ⟨v, hv, huv⟩ := hrel.get? hu
    exact hsame hv huv.unclaimed rfl
  | grant hrel running stored claimable room =>
    rename_i units' w worker expires
    obtain ⟨v, hv, huv⟩ := hrel.get? hu
    by_cases hk : k = w.id
    · subst hk
      rw [stored] at hv
      cases hv
      have hattempt : w.attempt < w.maxAttempts := by
        unfold StoredLongTask.claimable at claimable
        simp only [Bool.and_eq_true, decide_eq_true_eq] at claimable
        exact claimable.1.2
      refine ⟨_, Dict.get?_set_self _ _ _, Or.inr ⟨rfl, rfl, ?_, ?_, hattempt⟩⟩
      · show w.leaseEpoch + 1 = u.leaseEpoch + 1
        rw [huv.unclaimed.leaseEpoch]
      · show w.attempt + 1 = u.attempt + 1
        rw [huv.unclaimed.attempt]
    · refine ⟨v, (Dict.get?_set_of_ne hk).trans hv, Or.inl ⟨huv.unclaimed, ?_⟩⟩
      rintro g ⟨⟩ hid
      exact hk hid.symm
  | hold holds same | settle holds same =>
    obtain ⟨v, hv, huv⟩ := hset holds.stored (same.unclaimed fun _ => holds.active)
    exact hsame hv huv rfl
  | interrupt holds =>
    obtain ⟨v, hv, huv⟩ := hset holds.stored
      (LongTaskUnitRecord.halted_interrupted holds.active _).unclaimed
    exact hsame hv huv rfl
  | expand holds deadline found held checked prospective disposition nonempty =>
    rename_i split decision parent units'
    have hsplit := split_of_prospective checked prospective
    by_cases hk : k = parent.id
    · subst hk
      rw [holds.stored] at hu
      cases hu
      exact hsame (Dict.get?_set_self _ _ _) ⟨rfl, rfl, le_rfl, fun h => by cases h⟩ rfl
    · have hv := hsplit.get?_iff.2 ⟨u, Or.inl hu, rfl⟩
      exact hsame ((Dict.get?_set_of_ne hk).trans hv) ⟨rfl, rfl, le_rfl, id⟩ rfl

/-! ## Live leases -/

section

variable {now now' : Int} {task : StoredLongTask} {e : TaskEvent}

variable {unit : LongTaskUnitRecord}

/-- A lease that is live later was live before. -/
theorem live_of_le (h : now ≤ now') (hlive : unit.live now' = true) : unit.live now = true := by
  simp only [LongTaskUnitRecord.live, LongTaskUnitRecord.leaseLapsed, Bool.and_eq_true,
    Bool.not_eq_true', decide_eq_false_iff_not] at hlive ⊢
  exact ⟨hlive.1, by omega⟩

theorem not_live_of_inactive (h : unit.status.active = false) :
    ¬ unit.live now = true := by
  simp [LongTaskUnitRecord.live, h]

variable {v : LongTaskUnitRecord}

theorem live_congr {u : LongTaskUnitRecord} (h : v = u) (hlive : v.live now = true) :
    u.live now = true := h ▸ hlive

variable {units : Dict String LongTaskUnitRecord}

/-- The children of a split wait; nothing else of a lease is touched. -/
theorem Split.countP_live {parent : LongTaskUnitRecord} {split : LongTaskSplitResult}
    (h : Split task parent split units) :
    units.values.countP (·.live now) = task.units.values.countP (·.live now) := by
  have hchildren : (split.children.map fun child =>
      (child.id, childUnit task.record.id parent child)).countP
        ((fun unit => unit.live now) ∘ Prod.snd) = 0 := by
    rw [List.countP_eq_zero]
    intro p hp
    obtain ⟨child, -, rfl⟩ := List.mem_map.1 hp
    exact not_live_of_inactive rfl
  have hentries : units.values.countP (·.live now) =
      (task.units.entries ++ split.children.map fun child =>
        (child.id, childUnit task.record.id parent child)).countP
          ((fun unit => unit.live now) ∘ Prod.snd) := by
    unfold Dict.values
    rw [h.entries_eq, List.countP_map, List.countP_map]
    rfl
  rw [hentries, List.countP_append, hchildren, Nat.add_zero, Dict.values, List.countP_map]

variable {status : LongTaskStatus}

/-- Only a claim adds a live lease. -/
theorem Move.live_le (hmove : Move now task e none units status) (h : now ≤ now') :
    units.values.countP (·.live now') ≤ task.units.values.countP (·.live now) := by
  have hkept : task.units.values.countP (·.live now') ≤ task.units.values.countP (·.live now) :=
    List.countP_mono_left fun _ _ hlive => live_of_le h hlive
  have hset : ∀ {u v : LongTaskUnitRecord}, Holds now task u →
      (task.units.set u.id v).values.countP (·.live now') ≤
        task.units.values.countP (·.live now) := by
    intro u v hholds
    -- the unit written to was live, so it cannot raise the number
    have hrel : Dict.Rel (fun u v : LongTaskUnitRecord => v.live now' = true → u.live now = true)
        task.units (task.units.set u.id v) :=
      Dict.Rel.set hholds.stored (fun _ => hholds.live) fun _ => live_of_le h
    exact hrel.countP_le fun _ _ huv hlive => huv hlive
  cases hmove with
  | stay | start | finalFailed | finalCompleted | finalPaused => exact hkept
  | halt hrel =>
    exact hrel.countP_le fun u v huv hlive => absurd hlive (not_live_of_inactive huv.inactive)
  | resume hrel =>
    refine hrel.countP_le fun u v huv hlive => live_of_le h ?_
    rcases huv.inactive with heq | hinactive
    · exact live_congr heq hlive
    · exact absurd hlive (not_live_of_inactive hinactive)
  | lapse hrel =>
    refine hrel.countP_le fun u v huv hlive => live_of_le h ?_
    rcases huv with heq | ⟨hhalted, -⟩
    · exact live_congr heq hlive
    · exact absurd hlive (not_live_of_inactive hhalted.inactive)
  | hold holds => exact hset holds
  | settle holds => exact hset holds
  | interrupt holds => exact hset holds
  | expand holds deadline found held checked prospective disposition nonempty =>
    rename_i worker leaseEpoch split decision parent units'
    have hsplit := split_of_prospective checked prospective
    have hparent := hsplit.get?_iff.2 ⟨parent, Or.inl holds.stored, rfl⟩
    have hrel : Dict.Rel (fun u v : LongTaskUnitRecord => v.live now' = true → u.live now' = true)
        units' (units'.set parent.id (parent.expandedBy worker decision)) :=
      Dict.Rel.set hparent (fun hlive => absurd hlive (not_live_of_inactive rfl)) fun _ => id
    calc (units'.set parent.id (parent.expandedBy worker decision)).values.countP (·.live now')
        ≤ units'.values.countP (·.live now') :=
          hrel.countP_le fun _ _ huv hlive => huv hlive
      _ = task.units.values.countP (·.live now') := hsplit.countP_live
      _ ≤ task.units.values.countP (·.live now) := hkept

/-- A claim adds one live lease, and only below the limit. -/
theorem Move.live_le_of_granted
    (hmove : Move now task e (some unit) units status) (h : now ≤ now') :
    units.values.countP (·.live now') ≤ task.record.maxParallelism := by
  cases hmove with
  | grant hrel running stored claimable room =>
    rename_i units' u worker expires
    have hset := Dict.countP_set (v := u.claimed worker expires) (·.live now') stored
    have hle : units'.values.countP (·.live now') ≤ units'.values.countP (·.live now) :=
      List.countP_mono_left fun _ _ hlive => live_of_le h hlive
    have hone : (if (u.claimed worker expires).live now' = true then 1 else 0) ≤ 1 := by
      split <;> omega
    omega

/-! ## Runs on units -/

/-- No Run is bound to two units. -/
def RunsDistinct (units : Dict String LongTaskUnitRecord) : Prop :=
  ∀ k k' u u' run, units.get? k = some u → units.get? k' = some u' → u.runId = some run →
    u'.runId = some run → k = k'

/-- A change that keeps every Run keeps them on distinct units. -/
theorem RunsDistinct.of_rel {units' : Dict String LongTaskUnitRecord} (h : RunsDistinct units)
    (hrel : Dict.Rel (fun u v : LongTaskUnitRecord => v.runId = u.runId) units units') :
    RunsDistinct units' := by
  intro k k' u u' run hu hu' hrun hrun'
  obtain ⟨v, hv, huv⟩ := hrel.get?_left hu
  obtain ⟨v', hv', huv'⟩ := hrel.get?_left hu'
  exact h k k' v v' run hv hv' (huv ▸ hrun) (huv' ▸ hrun')

variable {k : String}

/-- Storing a unit under `k` keeps Runs on distinct units when no other unit carries its Run. -/
theorem RunsDistinct.set (h : RunsDistinct units)
    (hfree : ∀ k' u run, k' ≠ k → units.get? k' = some u → v.runId = some run →
      u.runId ≠ some run) : RunsDistinct (units.set k v) := by
  intro k₁ k₂ u₁ u₂ run h₁ h₂ hrun₁ hrun₂
  rw [Dict.get?_set] at h₁ h₂
  split at h₁ <;> rename_i hk₁ <;> split at h₂ <;> rename_i hk₂
  · exact hk₁.trans hk₂.symm
  · cases h₁
    exact absurd hrun₂ (hfree k₂ u₂ run hk₂ h₂ hrun₁)
  · cases h₂
    exact absurd hrun₁ (hfree k₁ u₁ run hk₁ h₁ hrun₂)
  · exact h k₁ k₂ u₁ u₂ run h₁ h₂ hrun₁ hrun₂

/-- A write by the holder keeps Runs on distinct units: its Run was its own or free. -/
theorem RunsDistinct.set_held (hs : UnitsSound task.units) (h : RunsDistinct task.units)
    {unit' : LongTaskUnitRecord} (hstored : task.units.get? unit.id = some unit)
    (hrun : unit'.runId = unit.runId ∨
      ∃ run, unit'.runId = some run ∧ runTaken task unit run = false) :
    RunsDistinct (task.units.set unit.id unit') := by
  refine h.set fun k u run hk hu hv hu' => ?_
  rcases hrun with hsame | ⟨run', hrun', hfree⟩
  · exact hk (h k unit.id u unit run hu hstored hu' (hsame ▸ hv))
  · rw [hv] at hrun'
    cases hrun'
    unfold runTaken at hfree
    rw [List.any_eq_false] at hfree
    refine hfree u (Dict.mem_values_of_get? hu) ?_
    simp [hs.id_eq k u hu, hk, hu']

variable {granted : Option LongTaskUnitRecord}

theorem Move.runsDistinct
    (hmove : Move now task e granted units status) (hs : UnitsSound task.units)
    (h : RunsDistinct task.units) : RunsDistinct units := by
  cases hmove with
  | stay | start | finalFailed | finalCompleted | finalPaused => exact h
  | halt hrel => exact h.of_rel (hrel.mono fun _ _ huv => huv.runId)
  | resume hrel => exact h.of_rel (hrel.mono fun _ _ huv => huv.runId)
  | lapse hrel => exact h.of_rel (hrel.mono fun _ _ huv => huv.kept.runId)
  | grant hrel =>
    refine (h.of_rel (hrel.mono fun _ _ huv => huv.kept.runId)).set ?_
    intro k u run _ _ hv
    cases hv
  | hold holds _ _ run => exact h.set_held hs holds.stored run
  | settle holds _ _ _ run => exact h.set_held hs holds.stored run
  | interrupt holds => exact h.set_held hs holds.stored (Or.inl rfl)
  | expand holds deadline found held checked prospective disposition nonempty =>
    rename_i split decision parent units'
    have hsplit := split_of_prospective checked prospective
    have hchild : ∀ {k v run}, units'.get? k = some v → v.runId = some run →
        ∃ u, task.units.get? k = some u ∧ u.runId = some run := by
      intro k v run hv hrun
      obtain ⟨u, hu | ⟨child, -, -, rfl⟩, rfl⟩ := hsplit.get?_iff.1 hv
      · exact ⟨u, hu, hrun⟩
      · cases hrun
    have hunits : RunsDistinct units' := by
      intro k k' u u' run hu hu' hrun hrun'
      obtain ⟨v, hv, hvrun⟩ := hchild hu hrun
      obtain ⟨v', hv', hvrun'⟩ := hchild hu' hrun'
      exact h k k' v v' run hv hv' hvrun hvrun'
    have hparent := hsplit.get?_iff.2 ⟨parent, Or.inl holds.stored, rfl⟩
    refine hunits.set fun k u run hk hu hv hu' => ?_
    exact hk (hunits k parent.id u _ run hu hparent hu' hv)

/-! ## Attempts -/

/-- A unit that was not there before is a child of a split: unclaimed, with no attempt made. -/
theorem Move.fresh_unit (hmove : Move now task e granted units status)
    (hk : task.units.get? k = none) (hv : units.get? k = some v) :
    v.attempt = 0 ∧ v.status = .pending := by
  have hrel : ∀ {R : LongTaskUnitRecord → LongTaskUnitRecord → Prop}
      {units : Dict String LongTaskUnitRecord}, Dict.Rel R task.units units →
      units.get? k = none := by
    intro R units h
    cases hget : units.get? k with
    | none => rfl
    | some w =>
      obtain ⟨u, hu, -⟩ := h.get?_left hget
      rw [hk] at hu
      cases hu
  have hne : ∀ {u : LongTaskUnitRecord}, task.units.get? u.id = some u → k ≠ u.id := by
    rintro u hu rfl
    rw [hk] at hu
    cases hu
  have habsurd : ∀ {o : Option LongTaskUnitRecord}, o = none → o = some v →
      v.attempt = 0 ∧ v.status = .pending := by
    rintro o rfl hv
    cases hv
  cases hmove with
  | stay | start | finalFailed | finalCompleted | finalPaused => exact habsurd hk hv
  | halt h => exact habsurd (hrel h) hv
  | resume h => exact habsurd (hrel h) hv
  | lapse h => exact habsurd (hrel h) hv
  | grant h running stored claimable room =>
    rename_i units' u worker expires
    have hne : k ≠ u.id := by
      rintro rfl
      rw [hrel h] at stored
      cases stored
    rw [Dict.get?_set_of_ne hne] at hv
    exact habsurd (hrel h) hv
  | hold holds | settle holds | interrupt holds =>
    rw [Dict.get?_set_of_ne (hne holds.stored)] at hv
    exact habsurd hk hv
  | expand holds _ _ _ checked prospective =>
    rw [Dict.get?_set_of_ne (hne holds.stored)] at hv
    obtain ⟨u, hu | ⟨child, -, -, rfl⟩, rfl⟩ :=
      (split_of_prospective checked prospective).get?_iff.1 hv
    · rw [hk] at hu
      cases hu
    · exact ⟨rfl, rfl⟩

/-- Every unit has made at most as many attempts as it may. -/
def AttemptsBounded (units : Dict String LongTaskUnitRecord) : Prop :=
  ∀ k unit, units.get? k = some unit → unit.attempt ≤ unit.maxAttempts

theorem Move.attemptsBounded
    (hmove : Move now task e granted units status) (h : AttemptsBounded task.units) :
    AttemptsBounded units := by
  intro k v hv
  cases hu : task.units.get? k with
  | none =>
    rw [(hmove.fresh_unit hu hv).1]
    exact Nat.zero_le _
  | some u =>
    obtain ⟨v', hv', hstep⟩ := hmove.unit_step hu
    rw [hv] at hv'
    cases hv'
    rcases hstep with ⟨hkept, -⟩ | ⟨-, -, -, -, hle⟩
    · rw [hkept.attempt]
      exact (h k u hu).trans hkept.maxAttempts
    · exact hle

/-! ## The bounds along a run -/

/-- What holds of a task from the clock reading `c` on. -/
structure Bounded (c : Int) (task : StoredLongTask) : Prop where
  sound : UnitsSound task.units
  live : ∀ now, c ≤ now → task.units.values.countP (·.live now) ≤ task.record.maxParallelism
  attempts : AttemptsBounded task.units
  runs : RunsDistinct task.units

theorem Bounded.apply (e : TaskEvent) (h : Bounded now task) : Bounded now (e.apply now task) := by
  have hmove : Move now task e (e.granted now task) _ _ := e.apply_move h.sound
  refine ⟨hmove.sound h.sound, fun later hlater => ?_, hmove.attemptsBounded h.attempts,
    hmove.runsDistinct h.sound h.runs⟩
  have hterms : (e.apply now task).record.maxParallelism = task.record.maxParallelism :=
    congrArg LongTaskTerms.maxParallelism (e.terms_apply now task)
  rw [hterms]
  cases hgranted : e.granted now task with
  | none =>
    rw [hgranted] at hmove
    exact (hmove.live_le hlater).trans (h.live now le_rfl)
  | some unit =>
    rw [hgranted] at hmove
    exact hmove.live_le_of_granted hlater

theorem Bounded.newTask (c : Int) (id : String) (command : LongTaskCreateCommand) :
    Bounded c (newTask id command) where
  sound := unitsSound_newTask id command
  live now _ := by
    have hzero : (LongTaskRepository.newTask id command).units.values.countP (·.live now) = 0 := by
      rw [List.countP_eq_zero]
      intro unit hmem
      obtain ⟨k, hk⟩ := Dict.mem_values_iff.1 hmem
      obtain ⟨spec, -, -, rfl⟩ := get?_newTask.1 hk
      exact not_live_of_inactive rfl
    rw [hzero]
    exact Nat.zero_le _
  attempts k unit hk := by
    obtain ⟨spec, -, -, rfl⟩ := get?_newTask.1 hk
    exact Nat.zero_le _
  runs k k' u u' run hk _ hrun _ := by
    obtain ⟨spec, -, -, rfl⟩ := get?_newTask.1 hk
    cases hrun

theorem bounded_reachable {pyStr : Json → String} (run : List (Int × LongTaskOp))
    (hclock : ClockForward run) (now : Int) (hnow : ∀ call ∈ run, call.1 ≤ now) :
    (exec (LongTaskState.step pyStr) .empty run).All (Bounded now) :=
  forall_task_exec_timed
    (fun hle h => ⟨h.sound, fun now hnow => h.live now (hle.trans hnow), h.attempts, h.runs⟩)
    (fun c k command => Bounded.newTask c k command) (fun _ e _ h => h.apply e) run hclock now hnow

/-! ## Epochs along a run -/

/-- The call hands out the unit `id` of the task `k`. -/
def handsOut (state : LongTaskState) (call : Int × LongTaskOp) (k id : String) : Bool :=
  match state.tasks.get? k, call.2.event k with
  | some task, some e => (e.granted call.1 task).any (·.id = id)
  | _, _ => false

/-- How often a run hands out the unit `id` of the task `k`. -/
def claimsOf (pyStr : Json → String) (k id : String) :
    LongTaskState → List (Int × LongTaskOp) → Nat
  | _, [] => 0
  | state, call :: run =>
    (if handsOut state call k id then 1 else 0) + claimsOf pyStr k id (state.step pyStr call) run

theorem leaseEpoch_step (pyStr : Json → String) {state : LongTaskState}
    (hstate : state.All fun task => UnitsSound task.units) {id : String}
    (hget : state.tasks.get? k = some task) (hunit : task.units.get? id = some unit)
    (call : Int × LongTaskOp) :
    ∃ task' unit', (state.step pyStr call).tasks.get? k = some task' ∧
      task'.units.get? id = some unit' ∧
      unit'.leaseEpoch = unit.leaseEpoch + (if handsOut state call k id then 1 else 0) := by
  have hstep : (state.step pyStr call).tasks.get? k = some (call.2.leaves k call.1 task) :=
    get?_step_of_some hget call
  unfold LongTaskOp.leaves at hstep
  cases he : call.2.event k with
  | none =>
    rw [he] at hstep
    exact ⟨task, unit, hstep, hunit, by simp [handsOut, hget, he]⟩
  | some e =>
    rw [he] at hstep
    obtain ⟨v, hv, hv'⟩ := (e.apply_move (hstate k task hget)).unit_step hunit
    refine ⟨_, v, hstep, hv, ?_⟩
    rcases hv' with ⟨hkept, hother⟩ | ⟨hgranted, hid, hepoch, -⟩
    · have hno : handsOut state call k id = false := by
        simp only [handsOut, hget, he]
        cases hgranted : e.granted call.1 task with
        | none => rfl
        | some g => simpa using hother g hgranted
      simp [hno, hkept.leaseEpoch]
    · have hyes : handsOut state call k id = true := by
        simp [handsOut, hget, he, hgranted, hid]
      simp [hyes, hepoch]

/-- **An epoch counts the claims of its unit.** -/
theorem leaseEpoch_exec {pyStr : Json → String} {state : LongTaskState}
    (hstate : state.All fun task => UnitsSound task.units) {id : String}
    (hget : state.tasks.get? k = some task) (hunit : task.units.get? id = some unit)
    (run : List (Int × LongTaskOp)) :
    ∃ task' unit', (exec (LongTaskState.step pyStr) state run).tasks.get? k = some task' ∧
      task'.units.get? id = some unit' ∧
      unit'.leaseEpoch = unit.leaseEpoch + claimsOf pyStr k id state run := by
  induction run generalizing state task unit with
  | nil => exact ⟨task, unit, hget, hunit, rfl⟩
  | cons call run ih =>
    obtain ⟨task', unit', hget', hunit', hepoch⟩ := leaseEpoch_step pyStr hstate hget hunit call
    obtain ⟨task'', unit'', hget'', hunit'', hepoch'⟩ :=
      ih (all_unitsSound_step pyStr hstate call) hget' hunit'
    refine ⟨task'', unit'', hget'', hunit'', ?_⟩
    rw [hepoch', hepoch, claimsOf, Nat.add_assoc]

/-! ## Writes with an old epoch -/

/-- The unit and the claim (worker, epoch) a unit operation presents. -/
def TaskOp.claim? : TaskOp → Option (String × String × Int)
  | .bindUnitRun unitId workerId epoch _ | .renewUnitLease unitId workerId epoch _
  | .updateUnitProgress unitId workerId epoch _ | .completeUnit unitId workerId epoch _
  | .settleUnitFailure unitId workerId epoch _ | .expandUnit unitId workerId epoch _ _
  | .interruptUnit unitId workerId epoch _ => some (unitId, workerId, epoch)
  | _ => none

variable {workerId : String} {leaseEpoch : Int}

theorem heldBy_eq_none_of_stale
    (h : leaseEpoch < unit.leaseEpoch) : task.heldBy now unit workerId leaseEpoch = none := by
  cases hheld : task.heldBy now unit workerId leaseEpoch with
  | none => rfl
  | some worker =>
    have := epoch_of_holdsClaim (holdsClaim_of_heldBy hheld)
    omega

/-- What a refused unit operation leaves: the task as it was, or with its deadline expired. -/
def RefusedLeaves (now : Int) (task left : StoredLongTask) : Prop :=
  left = task ∨ (task.deadlineElapsed now = true ∧ left = TaskAction.expireDeadline.final task)

theorem refused_requireUnitClaim {α : Type} (f : String → TaskAction α)
    (h : task.heldBy now unit workerId leaseEpoch = none) :
    RefusedLeaves now task
      ((TaskAction.requireUnitClaim now unit workerId leaseEpoch >>= f).final task) := by
  rw [TaskAction.requireUnitClaim_bind]
  by_cases hd : task.deadlineElapsed now = true
  · rw [if_pos hd]
    exact Or.inr ⟨hd, rfl⟩
  · rw [if_neg hd, h]
    exact Or.inl rfl

/-- **A unit operation without the unit's claim changes nothing**, an elapsed deadline apart. -/
theorem apply_of_refused {op : TaskOp} {unitId : String}
    (hop : op.claim? = some (unitId, workerId, leaseEpoch))
    (hfound : task.lookupUnit unitId = some unit)
    (hrefused : task.heldBy now unit workerId leaseEpoch = none) :
    RefusedLeaves now task ((TaskEvent.call op).apply now task) := by
  have hunitOp : ∀ {α : Type} (f : LongTaskUnitRecord → String → TaskAction α),
      RefusedLeaves now task ((TaskAction.requireUnit unitId >>= fun unit =>
        TaskAction.requireUnitClaim now unit workerId leaseEpoch >>= f unit).final task) := by
    intro α f
    rw [TaskAction.requireUnit_bind, hfound]
    exact refused_requireUnitClaim (f unit) hrefused
  show RefusedLeaves now task (op.apply now task)
  unfold TaskOp.apply
  cases op with
  | bindUnitRun =>
    cases hop
    simp only [TaskOp.method, Action.final_map]
    exact hunitOp _
  | renewUnitLease _ _ _ duration =>
    cases hop
    simp only [TaskOp.method]
    cases hx : LongTaskRepository.renewUnitLease now unitId workerId leaseEpoch duration with
    | error err => exact Or.inl rfl
    | ok m =>
      unfold LongTaskRepository.renewUnitLease at hx
      split at hx
      · cases hx
      · cases hx
        simp only [Except.map, Action.final_map]
        exact hunitOp _
  | updateUnitProgress =>
    cases hop
    simp only [TaskOp.method, Action.final_map]
    exact hunitOp _
  | completeUnit =>
    cases hop
    simp only [TaskOp.method, Action.final_map]
    unfold LongTaskRepository.completeUnit
    rw [TaskAction.requireUnit_bind, hfound]
    simp only [Action.final_ite]
    split
    · rw [Action.final_ofExcept_bind]
      split
      · rw [Action.final_ite]
        split <;> exact Or.inl rfl
      · exact Or.inl rfl
    · exact refused_requireUnitClaim _ hrefused
  | settleUnitFailure =>
    cases hop
    simp only [TaskOp.method, Action.final_map]
    exact hunitOp _
  | expandUnit _ _ _ split decision =>
    cases hop
    simp only [TaskOp.method]
    cases hx : LongTaskRepository.expandUnit now unitId workerId leaseEpoch split decision with
    | error err => exact Or.inl rfl
    | ok m =>
      unfold LongTaskRepository.expandUnit at hx
      split_ifs at hx
      cases hx
      simp only [Except.map, Action.final_map]
      rw [TaskAction.requireUnit_bind, hfound]
      simp only [Action.final_ite]
      split
      · rw [Action.final_ofExcept_bind]
        split
        · rw [Action.final_ite]
          split <;> exact Or.inl rfl
        · exact Or.inl rfl
      · exact refused_requireUnitClaim _ hrefused
  | interruptUnit =>
    cases hop
    simp only [TaskOp.method, Action.final_map]
    exact hunitOp _
  | bindRun | recordUsage | start | expireDeadline | pause | resume | cancel | requestCancel
  | finalizeIfComplete | claimUnit => cases hop

end

/-! ## Fencing -/

/-- **Unit fencing.**  In every run under a clock that does not go back, and for every task in it:
epochs count claims; a unit operation with an epoch below the unit's changes nothing, except that
one arriving after the deadline expires the deadline; at most `max_parallelism` leases are live at
every reading from the last call on; attempts stay within their limit; and no Run is on two
units. -/
theorem unit_fencing {pyStr : Json → String} {run : List (Int × LongTaskOp)}
    (hclock : ClockForward run) {k : String} {task : StoredLongTask}
    (hget : (exec (LongTaskState.step pyStr) .empty run).tasks.get? k = some task) :
    (∀ (id : String) (unit : LongTaskUnitRecord) (run' : List (Int × LongTaskOp)),
        task.units.get? id = some unit →
        ∃ task' unit', (exec (LongTaskState.step pyStr) .empty (run ++ run')).tasks.get? k =
            some task' ∧ task'.units.get? id = some unit' ∧
          unit'.leaseEpoch = unit.leaseEpoch +
            claimsOf pyStr k id (exec (LongTaskState.step pyStr) .empty run) run') ∧
      (∀ (now : Int) (op : TaskOp) (unitId workerId : String) (leaseEpoch : Int)
          (unit : LongTaskUnitRecord), op.claim? = some (unitId, workerId, leaseEpoch) →
        task.lookupUnit unitId = some unit → leaseEpoch < unit.leaseEpoch →
        (TaskEvent.call op).apply now task = task ∨
          (task.deadlineElapsed now = true ∧
            (TaskEvent.call op).apply now task = TaskAction.expireDeadline.final task)) ∧
      (∀ now, (∀ call ∈ run, call.1 ≤ now) →
        task.units.values.countP (·.live now) ≤ task.record.maxParallelism) ∧
      (∀ id unit, task.units.get? id = some unit → unit.attempt ≤ unit.maxAttempts) ∧
      (∀ id id' unit unit' r, task.units.get? id = some unit → task.units.get? id' = some unit' →
        unit.runId = some r → unit'.runId = some r → id = id') := by
  obtain ⟨last, hlast⟩ := exists_last_reading run
  have hbounded := bounded_reachable run hclock last hlast k task hget
  have hsound : (exec (LongTaskState.step pyStr) .empty run).All fun task =>
      UnitsSound task.units := fun k task h =>
    (bounded_reachable run hclock last hlast k task h).sound
  refine ⟨fun id unit run' hunit => ?_, fun now op unitId workerId epoch unit hop hfound hstale =>
    apply_of_refused hop hfound (heldBy_eq_none_of_stale hstale), fun now hnow =>
    (bounded_reachable run hclock now hnow k task hget).live now le_rfl, hbounded.attempts,
    hbounded.runs⟩
  rw [exec_append]
  exact leaseEpoch_exec hsound hget hunit run'

/-- The unit `u` of a task with the deadline 100 is claimed at 2 and, its lease lapsed, again at
20. -/
def reclaimedRun : List (Int × LongTaskOp) :=
  [(0, .create "t" (soloCommand (some 100))), (1, .onTask "t" (.start 1)),
    (2, .onTask "t" (.claimUnit none "w" 10)), (20, .onTask "t" (.claimUnit none "v" 10))]

theorem unit_fencing_reclaimedRun :
    ((exec (LongTaskState.step noStr) .empty reclaimedRun).tasks.get? "t").all
      (fun task => task.units.values.countP (·.live 20) ≤ task.record.maxParallelism) = true := by
  cases hget : (exec (LongTaskState.step noStr) .empty reclaimedRun).tasks.get? "t" with
  | none => rfl
  | some task =>
    have hclock : ClockForward reclaimedRun := by decide
    have hbound := (unit_fencing hclock hget).2.2.1 20 (by decide)
    simpa using hbound

/-- The status and the epoch of the unit `u` of the task `t`. -/
def unitView (state : LongTaskState) : Option (LongTaskUnitStatus × Nat) :=
  (state.tasks.get? "t").bind fun task => (task.units.get? "u").map fun unit =>
    (unit.status, unit.leaseEpoch)

/-- The first worker renews with its old epoch after the deadline: the unit held by the second
fails. -/
theorem stale_write_changes_unit :
    ¬ ∀ (pyStr : Json → String) (run : List (Int × LongTaskOp)) (k id : String)
        (task task' : StoredLongTask) (unit unit' : LongTaskUnitRecord) (now : Int) (op : TaskOp)
        (workerId : String) (leaseEpoch : Int),
      ClockForward (run ++ [(now, .onTask k op)]) →
      (exec (LongTaskState.step pyStr) .empty run).tasks.get? k = some task →
      (exec (LongTaskState.step pyStr) .empty (run ++ [(now, .onTask k op)])).tasks.get? k =
        some task' →
      op.claim? = some (id, workerId, leaseEpoch) → task.units.get? id = some unit →
      task'.units.get? id = some unit' → leaseEpoch < unit.leaseEpoch →
      unit'.status = unit.status := by
  intro h
  have hbefore : unitView (exec (LongTaskState.step noStr) .empty reclaimedRun) =
      some (.claimed, 2) := by decide
  have hafter : unitView (exec (LongTaskState.step noStr) .empty
      (reclaimedRun ++ [(100, .onTask "t" (.renewUnitLease "u" "w" 1 10))])) =
      some (.failed, 2) := by decide
  obtain ⟨task, hget, hview⟩ := Option.bind_eq_some_iff.1 hbefore
  obtain ⟨unit, hunit, hstatus⟩ := Option.map_eq_some_iff.1 hview
  obtain ⟨task', hget', hview'⟩ := Option.bind_eq_some_iff.1 hafter
  obtain ⟨unit', hunit', hstatus'⟩ := Option.map_eq_some_iff.1 hview'
  rw [Prod.mk.injEq] at hstatus hstatus'
  have hsame := h noStr reclaimedRun "t" "u" task task' unit unit' 100
    (.renewUnitLease "u" "w" 1 10) "w" 1 (by decide) hget hget' rfl hunit hunit'
    (by rw [hstatus.2]; decide)
  rw [hstatus.1, hstatus'.1] at hsame
  cases hsame

end Purra
