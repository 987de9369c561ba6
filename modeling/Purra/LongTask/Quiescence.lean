import Purra.LongTask.Fencing
import Purra.LongTask.Scheduling

/-!
# A stopped task holds no unit

When a task stops running, no unit may stay in a worker's hands: a worker whose
lease survives a pause writes again after the resume.  `pause`, `cancel`, the
deadline, the budget, a settlement that pauses and a restart recovery take every
unit back.  `interrupt_unit` takes back its own unit only, and
`finalize_if_complete` none when it completes or pauses the task.

* `StopsCleanly` — the events that leave no unit behind, as a condition on the task
  they find: an accepted interrupt finds no second active unit, and a finalize that
  completes or pauses the task finds none.
* `quiescent_of_stopsCleanly` — in a run of such events a task that does not run has no
  active unit.
* `FencedAt` — no worker can hold the unit at that epoch any more, ever after.
* `stopped_quiescent` — **a stopped task holds no unit and its claims die with it**.
-/

namespace Purra

open StoredLongTask LongTaskRepository

/-- Unless the task runs, no worker holds a unit. -/
def Quiescent (status : LongTaskStatus) (units : Dict String LongTaskUnitRecord) : Prop :=
  status ≠ .running → ∀ k unit, units.get? k = some unit → unit.status.active = false

/-- No unit other than `k` is active. -/
def NoOtherActive (task : StoredLongTask) (k : String) : Prop :=
  ∀ k' unit, k' ≠ k → task.units.get? k' = some unit → unit.status.active = false

/-- No unit is active. -/
def NoneActive (task : StoredLongTask) : Prop :=
  ∀ k unit, task.units.get? k = some unit → unit.status.active = false

/-- `finalize_if_complete` is about to complete or pause the task. -/
def FinalizeStops (now : Int) (task : StoredLongTask) : Prop :=
  task.record.status = .running ∧ task.deadlineElapsed now = false ∧
    task.record.cancellationRequestedAtMs.isSome = false ∧
    (task.requiredUnits.all (·.status = .completed) = true ∨
      (task.requiredUnits.any (·.status = .blocked) = true ∧ task.hasRunnableWork now = false))

/-- The event leaves no unit in a worker's hands if it stops the task. -/
def StopsCleanly (now : Int) (e : TaskEvent) (task : StoredLongTask) : Prop :=
  match e with
  | .call (.interruptUnit unitId workerId leaseEpoch reasonCode) =>
    ∀ unit worker, task.deadlineElapsed now = false → task.lookupUnit unitId = some unit →
      task.heldBy now unit workerId leaseEpoch = some worker → strip reasonCode ≠ "" →
      NoOtherActive task unit.id
  | .call .finalizeIfComplete => FinalizeStops now task → NoneActive task
  | _ => True

variable {now : Int} {task : StoredLongTask}

theorem Move.quiescent {e : TaskEvent}
    {granted : Option LongTaskUnitRecord} {units : Dict String LongTaskUnitRecord}
    {status : LongTaskStatus} (hmove : Move now task e granted units status)
    (hclean : StopsCleanly now e task) (hinv : NoRequiredFailure task.record.status task.units)
    (h : Quiescent task.record.status task.units) : Quiescent status units := by
  have hrunning : ∀ {units : Dict String LongTaskUnitRecord}, Quiescent .running units :=
    fun hne => absurd rfl hne
  cases hmove with
  | stay => exact h
  | start | resume | lapse | grant | hold | settle | expand => exact hrunning
  | halt hrel =>
    intro _ k v hv
    obtain ⟨u, -, huv⟩ := hrel.get?_left hv
    exact huv.inactive
  | finalFailed running failed =>
    obtain ⟨unit, hmem, hfailed⟩ := failed
    obtain ⟨⟨k, hk⟩, hreq⟩ := mem_requiredUnits.1 hmem
    exact absurd hfailed (hinv (Or.inr running) k unit hk hreq)
  | finalCompleted running deadline uncanceled completed =>
    exact fun _ => hclean ⟨running, deadline, uncanceled, Or.inl completed⟩
  | finalPaused running deadline uncanceled blocked stuck =>
    exact fun _ => hclean ⟨running, deadline, uncanceled, Or.inr ⟨blocked, stuck⟩⟩
  | interrupt _ deadline found held reason_eq =>
    intro _ k v hv
    rw [Dict.get?_set] at hv
    split at hv
    · cases hv
      rfl
    · exact hclean _ _ deadline found held (requiredText_eq_ok reason_eq).1 k v ‹_› hv

/-- What every task of a run of clean stops satisfies. -/
structure StopInvariant (task : StoredLongTask) : Prop where
  sound : UnitsSound task.units
  noFailure : NoRequiredFailure task.record.status task.units
  quiescent : Quiescent task.record.status task.units

theorem StopInvariant.newTask (id : String) (command : LongTaskCreateCommand) :
    StopInvariant (newTask id command) where
  sound := unitsSound_newTask id command
  noFailure _ k unit hget _ := by
    obtain ⟨spec, -, -, rfl⟩ := get?_newTask.1 hget
    simp [unitFromSpec]
  quiescent _ k unit hget := by
    obtain ⟨spec, -, -, rfl⟩ := get?_newTask.1 hget
    rfl

theorem StopInvariant.apply {e : TaskEvent}
    (hclean : StopsCleanly now e task) (h : StopInvariant task) :
    StopInvariant (e.apply now task) :=
  have hmove := e.apply_move h.sound
  ⟨hmove.sound h.sound, hmove.noRequiredFailure h.noFailure,
    hmove.quiescent hclean h.noFailure h.quiescent⟩

/-- The run rule: clean stops keep every task quiescent. -/
theorem quiescent_of_stopsCleanly {pyStr : Json → String} {run : List (Int × LongTaskOp)}
    (hrun : Along (LongTaskState.step pyStr) (Meets StopsCleanly) .empty run) :
    (exec (LongTaskState.step pyStr) .empty run).All StopInvariant :=
  forall_task_exec StopInvariant.newTask (fun _ _ _ hclean h => h.apply hclean) (all_empty _) hrun

/-! ## Claims that outlive a stop -/

/-- No worker can hold the unit `id` at the epoch `epoch` or below. -/
def FencedAt (id : String) (epoch : Nat) (task : StoredLongTask) : Prop :=
  ∃ unit, task.units.get? id = some unit ∧ epoch ≤ unit.leaseEpoch ∧
    (unit.status.active = true → epoch < unit.leaseEpoch)

theorem FencedAt.apply {e : TaskEvent} {id : String}
    {epoch : Nat} (hs : UnitsSound task.units) (h : FencedAt id epoch task) :
    FencedAt id epoch (e.apply now task) := by
  obtain ⟨unit, hget, hle, hlt⟩ := h
  obtain ⟨v, hv, hstep⟩ := (e.apply_move hs).unit_step hget
  refine ⟨v, hv, ?_⟩
  rcases hstep with ⟨hkept, -⟩ | ⟨-, -, hepoch, -⟩
  · rw [hkept.leaseEpoch]
    exact ⟨hle, fun hactive => hlt (hkept.active hactive)⟩
  · exact ⟨by omega, fun _ => by omega⟩

theorem FencedAt.refuses {id : String} {epoch : Nat}
    (h : FencedAt id epoch task) {unit : LongTaskUnitRecord}
    (hget : task.units.get? id = some unit) {workerId : String} {leaseEpoch : Int}
    (hle : leaseEpoch ≤ epoch) : task.heldBy now unit workerId leaseEpoch = none := by
  obtain ⟨unit', hget', -, hlt⟩ := h
  rw [hget] at hget'
  cases hget'
  cases hheld : task.heldBy now unit workerId leaseEpoch with
  | none => rfl
  | some worker =>
    have hclaim := holdsClaim_of_heldBy hheld
    have hepoch := epoch_of_holdsClaim hclaim
    have := hlt (active_of_live (live_of_holdsClaim hclaim))
    omega

theorem fencedAt_exec {pyStr : Json → String} {state : LongTaskState}
    (hstate : state.All fun task => UnitsSound task.units) {k id : String} {epoch : Nat}
    (hget : state.tasks.get? k = some task) (h : FencedAt id epoch task)
    (run : List (Int × LongTaskOp)) :
    ∃ task', (exec (LongTaskState.step pyStr) state run).tasks.get? k = some task' ∧
      FencedAt id epoch task' := by
  induction run generalizing state task with
  | nil => exact ⟨task, hget, h⟩
  | cons call run ih =>
    have hstep : (state.step pyStr call).tasks.get? k = some (call.2.leaves k call.1 task) :=
      get?_step_of_some hget call
    have hnext : FencedAt id epoch (call.2.leaves k call.1 task) := by
      unfold LongTaskOp.leaves
      cases call.2.event k with
      | none => exact h
      | some e => exact h.apply (hstate k task hget)
    exact ih (all_unitsSound_step pyStr hstate call) hstep hnext

/-- **A stopped task holds no unit, and its claims die with it.**  In every run whose steps stop
tasks cleanly: at every point of it a task that is paused, completed, failed or canceled has no
unit claimed or running; and a claim on a unit of such a task, at the unit's epoch or an older one,
is refused at every later point of the run, whoever presents it and at whatever clock reading. -/
theorem stopped_quiescent {pyStr : Json → String} {run : List (Int × LongTaskOp)}
    (hrun : Along (LongTaskState.step pyStr) (Meets StopsCleanly) .empty run)
    {before after : List (Int × LongTaskOp)} (hcut : run = before ++ after) {k : String}
    {task : StoredLongTask}
    (hget : (exec (LongTaskState.step pyStr) .empty before).tasks.get? k = some task)
    (hstopped : task.record.status = .paused ∨ task.record.status.terminal = true) :
    (∀ id unit, task.units.get? id = some unit →
      unit.status ≠ .claimed ∧ unit.status ≠ .running) ∧
      ∀ id unit, task.units.get? id = some unit →
        ∃ task' unit', (exec (LongTaskState.step pyStr) .empty run).tasks.get? k = some task' ∧
          task'.units.get? id = some unit' ∧
          ∀ (now : Int) (workerId : String) (leaseEpoch : Int), leaseEpoch ≤ unit.leaseEpoch →
            task'.heldBy now unit' workerId leaseEpoch = none := by
  subst hcut
  have hall := quiescent_of_stopsCleanly (along_append.1 hrun).1
  have hnot : task.record.status ≠ .running := by
    intro h
    rw [h] at hstopped
    simp [LongTaskStatus.terminal] at hstopped
  have hinactive := (hall k task hget).quiescent hnot
  refine ⟨fun id unit hunit => ?_, fun id unit hunit => ?_⟩
  · have h := hinactive id unit hunit
    constructor <;> intro hs <;> rw [hs] at h <;> cases h
  · have hfenced : FencedAt id unit.leaseEpoch task :=
      ⟨unit, hunit, le_rfl, fun hactive => by rw [hinactive id unit hunit] at hactive; cases hactive⟩
    obtain ⟨task', hget', hfenced'⟩ :=
      fencedAt_exec (fun k task h => (hall k task h).sound) hget hfenced after
    have hstored := hfenced'
    obtain ⟨unit', hunit', -⟩ := hstored
    rw [exec_append]
    exact ⟨task', unit', hget', hunit', fun now workerId epoch hle =>
      hfenced'.refuses hunit' hle⟩

/-- A paused task: the only unit was claimed at 2 and given back at 3. -/
def pausedRun : List (Int × LongTaskOp) :=
  [(0, .create "t" (soloCommand none)), (1, .onTask "t" (.start 1)),
    (2, .onTask "t" (.claimUnit none "w" 10)), (3, .onTask "t" (.pause none (some "maintenance")))]

theorem stopped_quiescent_pausedRun :
    ∃ task, (exec (LongTaskState.step noStr) .empty pausedRun).tasks.get? "t" = some task ∧
      ∀ id unit, task.units.get? id = some unit →
        unit.status ≠ .claimed ∧ unit.status ≠ .running := by
  have hpaused : ((exec (LongTaskState.step noStr) .empty pausedRun).tasks.get? "t").map
      (·.record.status) = some .paused := by decide
  obtain ⟨task, hget, hstatus⟩ := Option.map_eq_some_iff.1 hpaused
  have hclean : Along (LongTaskState.step noStr) (Meets StopsCleanly) .empty pausedRun := by
    refine ⟨?_, ?_, ?_, ?_, trivial⟩ <;> intro k task e _ he <;>
      simp only [LongTaskOp.event] at he
    · cases he
    all_goals
      split at he
      · cases he
        trivial
      · cases he
  exact ⟨task, hget,
    (stopped_quiescent hclean (List.append_nil _).symm hget (Or.inl hstatus)).1⟩

/-- Two units are claimed; the interrupt of the first pauses the task. -/
def interruptedRun : List (Int × LongTaskOp) :=
  [(0, .create "t" pairCommand), (1, .onTask "t" (.start 1)),
    (2, .onTask "t" (.claimUnit none "w" 10)), (3, .onTask "t" (.claimUnit none "v" 10)),
    (4, .onTask "t" (.interruptUnit "u" "w" 1 "shutdown"))]

/-- The second worker keeps its unit while the task is paused. -/
theorem paused_task_holds_unit :
    ¬ ∀ (pyStr : Json → String) (run : List (Int × LongTaskOp)) (k : String)
        (task : StoredLongTask), ClockForward run →
      (exec (LongTaskState.step pyStr) .empty run).tasks.get? k = some task →
      (task.record.status = .paused ∨ task.record.status.terminal = true) →
      ∀ id unit, task.units.get? id = some unit →
        unit.status ≠ .claimed ∧ unit.status ≠ .running := by
  intro h
  have hafter : ((exec (LongTaskState.step noStr) .empty interruptedRun).tasks.get? "t").map
      (fun task => (task.record.status, (task.units.get? "v").map (·.status))) =
      some (.paused, some .claimed) := by decide
  obtain ⟨task, hget, hview⟩ := Option.map_eq_some_iff.1 hafter
  rw [Prod.mk.injEq, Option.map_eq_some_iff] at hview
  obtain ⟨hstatus, unit, hunit, hclaimed⟩ := hview
  exact (h noStr interruptedRun "t" task (by decide) hget (Or.inl hstatus) "v" unit hunit).1
    hclaimed

end Purra
