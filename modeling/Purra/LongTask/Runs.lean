import Purra.LongTask.Split

/-!
# Runs of the long-task repository

A run is a list of calls, each with the clock reading it saw.  Tasks do not
interfere: a call changes the task it names (a restart recovery changes each task
by itself), so an invariant of one task under its own events is an invariant of
every task of every run.

* `get?_step` — the repository after a call, task by task.
* `UnitsSound` is kept by every change, hence `sound_reachable` and
  `TaskEvent.move_reachable`.
* `forall_task_exec` — **the induction rule**: what new tasks have and admissible
  events keep, every task of an admissible run has.  `forall_task_exec_timed` is the
  same rule for invariants that refer to the clock.
-/

namespace Purra

open StoredLongTask LongTaskRepository

/-! ## Soundness of the units -/

variable {k : String}

variable {units : Dict String LongTaskUnitRecord}

theorem UnitsSound.set (hs : UnitsSound units)
    {v : LongTaskUnitRecord} (hid : v.id = k) (hreq : v.status = .expanded → v.required = false) :
    UnitsSound (units.set k v) where
  id_eq k' u hu := by
    rw [Dict.get?_set] at hu
    split at hu
    · cases hu
      rw [hid]
      exact Eq.symm ‹_›
    · exact hs.id_eq k' u hu
  not_required k' u hu := by
    rw [Dict.get?_set] at hu
    split at hu
    · cases hu
      exact hreq
    · exact hs.not_required k' u hu

variable {task : StoredLongTask}

theorem Split.sound {parent : LongTaskUnitRecord} {split : LongTaskSplitResult}
    (h : Split task parent split units) (hs : UnitsSound task.units) : UnitsSound units where
  id_eq k v hv := by
    obtain ⟨u, hu | ⟨child, -, hk, rfl⟩, rfl⟩ := h.get?_iff.1 hv
    · exact hs.id_eq k u hu
    · exact hk
  not_required k v hv he := by
    obtain ⟨u, hu | ⟨child, -, -, rfl⟩, rfl⟩ := h.get?_iff.1 hv
    · exact hs.not_required k u hu he
    · cases he

theorem Move.sound {now : Int} {e : TaskEvent} {granted : Option LongTaskUnitRecord}
    {status : LongTaskStatus} (h : Move now task e granted units status)
    (hs : UnitsSound task.units) : UnitsSound units := by
  cases h with
  | stay | start | finalFailed | finalCompleted | finalPaused => exact hs
  | halt hrel => exact sound_of_rel hs (hrel.mono fun _ _ h => h.toSameUnit)
  | resume hrel => exact sound_of_rel hs (hrel.mono fun _ _ h => h.toSameUnit)
  | lapse hrel => exact sound_of_rel hs (hrel.mono fun _ _ h => h.kept.toSameUnit)
  | grant hrel =>
    exact (sound_of_rel hs (hrel.mono fun _ _ h => h.kept.toSameUnit)).set rfl (by
      simp [LongTaskUnitRecord.claimed])
  | hold holds same | settle holds same =>
    exact sound_of_rel hs (Dict.Rel.set holds.stored same SameUnit.refl)
  | interrupt holds =>
    exact sound_of_rel hs (Dict.Rel.set holds.stored
      (LongTaskUnitRecord.halted_interrupted holds.active _).toSameUnit SameUnit.refl)
  | expand _ _ _ _ checked prospective =>
    exact ((split_of_prospective checked prospective).sound hs).set rfl fun _ => rfl

/-! ## The repository after a call -/

/-- The event a call is for the task stored under `k`. -/
def LongTaskOp.event (op : LongTaskOp) (k : String) : Option TaskEvent :=
  match op with
  | .create _ _ => none
  | .onTask taskId op =>
    if requiredText taskId "long task id" = .ok k then some (.call op) else none
  | .recoverAfterRestart wall reasonCode =>
    match requiredText reasonCode "restart recovery reason" with
    | .ok reason => some (.recover wall reason)
    | .error _ => none

/-- What a call leaves of a task that was there. -/
def LongTaskOp.leaves (op : LongTaskOp) (k : String) (now : Int) (task : StoredLongTask) :
    StoredLongTask :=
  match op.event k with
  | some e => e.apply now task
  | none => task

variable {pyStr : Json → String}

theorem get?_step_create (pyStr : Json → String) (state : LongTaskState) (now : Int) (taskId : String)
    (command : LongTaskCreateCommand) (k : String) :
    (state.step pyStr (now, .create taskId command)).tasks.get? k = state.tasks.get? k ∨
      (state.tasks.get? k = none ∧
        (state.step pyStr (now, .create taskId command)).tasks.get? k =
          some (newTask k command)) := by
  unfold LongTaskState.step LongTaskRepository.create
  simp only [Action.final_ofExcept_bind, Action.final_read_bind]
  cases requiredText taskId "long task id" with
  | error e => exact Or.inl rfl
  | ok id =>
    simp only
    cases hid : state.tasks.get? id with
    | some existing =>
      simp only [Action.final_ite]
      split <;> exact Or.inl rfl
    | none =>
      simp only
      split
      · exact Or.inl rfl
      · simp only [Action.final_write_bind, Action.final_pure]
        by_cases hk : k = id
        · subst hk
          exact Or.inr ⟨hid, Dict.get?_set_self _ _ _⟩
        · exact Or.inl (Dict.get?_set_of_ne hk)

theorem get?_step_onTask (state : LongTaskState) (now : Int) (taskId : String) (op : TaskOp)
    (k : String) :
    (state.step pyStr (now, .onTask taskId op)).tasks.get? k =
      (state.tasks.get? k).map ((LongTaskOp.onTask taskId op).leaves k now) := by
  unfold LongTaskState.step LongTaskRepository.onTask LongTaskOp.leaves LongTaskOp.event
  simp only [Action.final_ofExcept_bind, Action.final_read_bind]
  cases hid : requiredText taskId "long task id" with
  | error e =>
    simp only [reduceCtorEq, if_false]
    cases op.method now <;> simp
  | ok id =>
    by_cases hk : id = k
    · subst hk
      simp only [if_true, TaskEvent.apply, TaskOp.apply]
      cases hm : op.method now with
      | error e => simp
      | ok action =>
        cases hget : state.tasks.get? id with
        | none => simp [hget]
        | some task =>
          simp only [Action.final_write_bind, Option.map_some]
          exact Dict.get?_set_self _ _ _
    · have hne : (Except.ok id : Except PyError String) ≠ .ok k := by
        intro h
        cases h
        exact hk rfl
      simp only [hne, if_false]
      cases op.method now with
      | error e => simp
      | ok action =>
        cases state.tasks.get? id with
        | none => simp
        | some task =>
          simp only [Action.final_write_bind]
          refine (Dict.get?_set_of_ne (Ne.symm hk)).trans ?_
          simp

theorem get?_step_recover (state : LongTaskState) (now wall : Int) (reasonCode : String)
    (k : String) :
    (state.step pyStr (now, .recoverAfterRestart wall reasonCode)).tasks.get? k =
      (state.tasks.get? k).map
        ((LongTaskOp.recoverAfterRestart wall reasonCode).leaves k now) := by
  unfold LongTaskState.step LongTaskRepository.recoverAfterRestart LongTaskOp.leaves
    LongTaskOp.event
  simp only [Action.final_ofExcept_bind]
  cases requiredText reasonCode "restart recovery reason" with
  | error e => simp
  | ok reason => exact Dict.get?_map _ _ _

variable {state : LongTaskState}

/-- **The repository after a call**, task by task: a task that was there is left by its event, one
that was not is new. -/
theorem get?_step {call : Int × LongTaskOp}
    {task' : StoredLongTask} (h : (state.step pyStr call).tasks.get? k = some task') :
    (∃ task, state.tasks.get? k = some task ∧ task' = call.2.leaves k call.1 task) ∨
      (state.tasks.get? k = none ∧ ∃ command, task' = newTask k command) := by
  obtain ⟨now, op⟩ := call
  cases op with
  | create taskId command =>
    rcases get?_step_create pyStr state now taskId command k with heq | ⟨hnone, heq⟩
    · exact Or.inl ⟨task', heq.symm.trans h, rfl⟩
    · exact Or.inr ⟨hnone, command, Option.some.inj (h.symm.trans heq)⟩
  | onTask taskId op =>
    rw [get?_step_onTask, Option.map_eq_some_iff] at h
    obtain ⟨task, hget, rfl⟩ := h
    exact Or.inl ⟨task, hget, rfl⟩
  | recoverAfterRestart wall reasonCode =>
    rw [get?_step_recover, Option.map_eq_some_iff] at h
    obtain ⟨task, hget, rfl⟩ := h
    exact Or.inl ⟨task, hget, rfl⟩

/-- A task stays in the repository. -/
theorem get?_step_of_some (h : state.tasks.get? k = some task) (call : Int × LongTaskOp) :
    (state.step pyStr call).tasks.get? k = some (call.2.leaves k call.1 task) := by
  obtain ⟨now, op⟩ := call
  cases op with
  | create taskId command =>
    rcases get?_step_create pyStr state now taskId command k with heq | ⟨hnone, -⟩
    · exact heq.trans h
    · rw [h] at hnone
      cases hnone
  | onTask taskId op => rw [get?_step_onTask, h, Option.map_some]
  | recoverAfterRestart wall reasonCode => rw [get?_step_recover, h, Option.map_some]

/-! ## The induction rules -/

/-- Every task of the repository satisfies `I`. -/
def LongTaskState.All (I : StoredLongTask → Prop) (state : LongTaskState) : Prop :=
  ∀ k task, state.tasks.get? k = some task → I task

/-- A condition on events, for the steps of a run: what the call is to each task meets it. -/
def Meets (P : Int → TaskEvent → StoredLongTask → Prop) (state : LongTaskState)
    (call : Int × LongTaskOp) : Prop :=
  ∀ k task e, state.tasks.get? k = some task → call.2.event k = some e → P call.1 e task

theorem all_empty (I : StoredLongTask → Prop) : LongTaskState.empty.All I := by
  intro k task h
  cases h

variable {I : StoredLongTask → Prop}

variable {P : Int → TaskEvent → StoredLongTask → Prop}

theorem all_step (hnew : ∀ k command, I (newTask k command))
    (happly : ∀ now e task, P now e task → I task → I (e.apply now task))
    (state : LongTaskState) (call : Int × LongTaskOp) (hP : Meets P state call)
    (h : state.All I) : (state.step pyStr call).All I := by
  intro k task' hget
  rcases get?_step hget with ⟨task, hold, rfl⟩ | ⟨-, command, rfl⟩
  · unfold LongTaskOp.leaves
    cases he : call.2.event k with
    | none => exact h k task hold
    | some e => exact happly call.1 e task (hP k task e hold he) (h k task hold)
  · exact hnew k command

/-- **The induction rule.**  What every new task has and admissible events keep, every task has at
the end of an admissible run. -/
theorem forall_task_exec (hnew : ∀ k command, I (newTask k command))
    (happly : ∀ now e task, P now e task → I task → I (e.apply now task))
    {run : List (Int × LongTaskOp)} (hstate : state.All I)
    (hrun : Along (LongTaskState.step pyStr) (Meets P) state run) :
    (exec (LongTaskState.step pyStr) state run).All I :=
  exec_induction (all_step hnew happly) hrun hstate

theorem all_of_run (hnew : ∀ k command, I (newTask k command))
    (happly : ∀ now (e : TaskEvent) task, I task → I (e.apply now task))
    (run : List (Int × LongTaskOp)) (hstate : state.All I) :
    (exec (LongTaskState.step pyStr) state run).All I :=
  exec_induction_of_all (fun s call => all_step (P := fun _ _ _ => True) hnew
    (fun now e task _ => happly now e task) s call fun _ _ _ _ _ => trivial) run hstate

/-- The clock readings of a run never go back. -/
def ClockForward (run : List (Int × LongTaskOp)) : Prop :=
  (run.map Prod.fst).Pairwise (· ≤ ·)

instance (run : List (Int × LongTaskOp)) : Decidable (ClockForward run) :=
  inferInstanceAs (Decidable (List.Pairwise _ _))

theorem exists_last_reading (run : List (Int × LongTaskOp)) :
    ∃ last : Int, ∀ call ∈ run, call.1 ≤ last := by
  induction run with
  | nil => exact ⟨0, by simp⟩
  | cons call run ih =>
    obtain ⟨last, hlast⟩ := ih
    refine ⟨max call.1 last, fun c hc => ?_⟩
    rcases List.mem_cons.1 hc with rfl | hc
    · exact le_max_left _ _
    · exact (hlast c hc).trans (le_max_right _ _)

/-- The induction rule for an invariant that refers to the clock and is not spoilt by time
passing: it holds at every reading from the last call on. -/
theorem forall_task_exec_timed {I : Int → StoredLongTask → Prop}
    (hmono : ∀ {c c' : Int} {task}, c ≤ c' → I c task → I c' task)
    (hnew : ∀ c k command, I c (newTask k command))
    (happly : ∀ now (e : TaskEvent) task, I now task → I now (e.apply now task))
    (run : List (Int × LongTaskOp)) (hclock : ClockForward run) (now : Int)
    (hnow : ∀ call ∈ run, call.1 ≤ now) :
    (exec (LongTaskState.step pyStr) .empty run).All (I now) := by
  -- the last call saw the largest reading so far, so induction removes it first
  induction run using List.reverseRecOn generalizing now with
  | nil => exact all_empty _
  | append_singleton run call ih =>
    unfold ClockForward at hclock
    rw [List.map_append, List.pairwise_append] at hclock
    obtain ⟨hrun, -, hle⟩ := hclock
    have hbefore := ih hrun call.1 fun c hc =>
      hle c.1 (List.mem_map_of_mem hc) call.1 (by simp)
    rw [exec_append]
    have hafter : ((exec (LongTaskState.step pyStr) .empty run).step pyStr call).All (I call.1) :=
      all_step (P := fun now _ _ => now = call.1) (hnew call.1)
      (fun now e task hnow h => by subst hnow; exact happly call.1 e task h) _ call
      (fun _ _ _ _ _ => rfl) hbefore
    intro k task hget
    exact hmono (hnow call (by simp)) (hafter k task hget)

theorem entries_newTask (id : String) (command : LongTaskCreateCommand) :
    (newTask id command).units.entries =
      command.units.map fun spec => (spec.id, unitFromSpec id spec) := by
  refine (Dict.entries_extend ?_ ?_).trans (List.nil_append _)
  · simpa [List.map_map, Function.comp_def] using command.nodup_ids
  · intro p _
    exact List.not_mem_nil

/-- The units of a new task come from the command's specs. -/
theorem get?_newTask {id : String} {command : LongTaskCreateCommand} {unit : LongTaskUnitRecord} :
    (newTask id command).units.get? k = some unit ↔
      ∃ spec ∈ command.units, spec.id = k ∧ unit = unitFromSpec id spec := by
  rw [← Dict.mem_entries_iff, entries_newTask, List.mem_map]
  simp only [Prod.mk.injEq]
  constructor
  · rintro ⟨spec, hspec, hk, hu⟩
    exact ⟨spec, hspec, hk, hu.symm⟩
  · rintro ⟨spec, hspec, hk, hu⟩
    exact ⟨spec, hspec, hk, hu.symm⟩

theorem unitsSound_newTask (id : String) (command : LongTaskCreateCommand) :
    UnitsSound (newTask id command).units where
  id_eq k unit h := by
    obtain ⟨spec, -, rfl, rfl⟩ := get?_newTask.1 h
    rfl
  not_required k unit h he := by
    obtain ⟨spec, -, -, rfl⟩ := get?_newTask.1 h
    cases he

theorem unitsSound_apply (now : Int) (e : TaskEvent) (task : StoredLongTask)
    (h : UnitsSound task.units) : UnitsSound (e.apply now task).units :=
  (e.apply_move h).sound h

theorem all_unitsSound_step (pyStr : Json → String)
    (h : state.All fun task => UnitsSound task.units) (call : Int × LongTaskOp) :
    (state.step pyStr call).All fun task => UnitsSound task.units :=
  all_step (P := fun _ _ _ => True) unitsSound_newTask
    (fun now e task _ hs => unitsSound_apply now e task hs) state call (fun _ _ _ _ _ => trivial) h

/-- The induction rule for a property that the changes of `Move` keep. -/
theorem forall_task_exec_move (hnew : ∀ k command, I (newTask k command))
    (hmove : ∀ now (e : TaskEvent) task, P now e task → UnitsSound task.units → I task →
      Move now task e (e.granted now task) (e.apply now task).units
        (e.apply now task).record.status → I (e.apply now task)) {run : List (Int × LongTaskOp)}
    (hsound : state.All fun task => UnitsSound task.units) (hstate : state.All I)
    (hrun : Along (LongTaskState.step pyStr) (Meets P) state run) :
    (exec (LongTaskState.step pyStr) state run).All fun task => UnitsSound task.units ∧ I task :=
  forall_task_exec (fun k command => ⟨unitsSound_newTask k command, hnew k command⟩)
    (fun now e task hP h => ⟨unitsSound_apply now e task h.1,
      hmove now e task hP h.1 h.2 (e.apply_move h.1)⟩)
    (fun k task hget => ⟨hsound k task hget, hstate k task hget⟩) hrun

/-! ## Small tasks

One or two required units: the runs that show where a property fails start from them. -/

/-- A required unit with two attempts. -/
def soloUnit (id : String) (position : Nat) (required : Bool := true) : LongTaskUnitSpec where
  id := id
  position := position
  semanticKey := id
  dependencies := []
  parentUnitId := none
  required := required
  inputRef := none
  maxAttempts := 2
  metadata := []
  max_attempts_pos := by decide
  not_self := List.not_mem_nil

/-- A task of the single unit `u`. -/
def soloCommand (deadlineAtMs : Option Nat) : LongTaskCreateCommand where
  namespace_ := "n"
  kind := "k"
  ownerId := "o"
  createdByRunId := "r"
  units := [soloUnit "u" 0]
  maxParallelism := 1
  deadlineAtMs := deadlineAtMs
  budgetLimits := {}
  budgetExhaustionDisposition := .pauseRecoverable
  metadata := []
  some_required := ⟨soloUnit "u" 0, by simp, rfl⟩
  nodup_ids := by decide
  nodup_semanticKeys := by decide
  nodup_positions := by decide
  known := by decide
  acyclic := by decide
  max_parallelism_pos := by decide

/-- A task of the two units `u` and `v`, which may run at once. -/
def pairCommand : LongTaskCreateCommand where
  namespace_ := "n"
  kind := "k"
  ownerId := "o"
  createdByRunId := "r"
  units := [soloUnit "u" 0, soloUnit "v" 1]
  maxParallelism := 2
  deadlineAtMs := none
  budgetLimits := {}
  budgetExhaustionDisposition := .pauseRecoverable
  metadata := []
  some_required := ⟨soloUnit "u" 0, by simp, rfl⟩
  nodup_ids := by decide
  nodup_semanticKeys := by decide
  nodup_positions := by decide
  known := by decide
  acyclic := by decide
  max_parallelism_pos := by decide

/-- Python's `str` on the values of the small runs, whose metadata is empty. -/
def noStr : Json → String
  | .str s => s
  | _ => ""

end Purra
