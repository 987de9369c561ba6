import Purra.RunState.Machine

/-!
# What a reducer does

The reducers other than `revise_plan` leave a Run's steps where they are: each step keeps
its id, its dependencies and its tools, and takes another status (`TaskStep.Restates`).
`reduce_cases` says this once for all of them — the snapshot is unchanged, or a list of
sound changes was written — and the later modules derive what they need from it.

* `RunReduction` names these reducers, `RunOperation` adds the revision.
* `SoundChanges` — every change restates the step it replaces, keeps it done if it was
  done, and no step is changed twice.
* `runningSteps_set`, `isDone_set` — which steps run, and which are done, after one step
  was replaced.
-/

namespace Purra

open RunStateMachine

/-- The reducers of a Run that keep its plan. -/
inductive RunReduction where
  | modelDelta
  | toolCallsStarted (toolNames : List String)
  | toolRoundCompleted (outcome : ToolBatchOutcome)
  | toolRoundFailed (error : String)
  | complete (finalResponse : String)
  | completeDurable (finalResponse : String) (coveredStepIds : List String)
  | finishDurable (coveredStepIds : List String)
  | syncDurable (statuses : Dict String StepStatus)
  | fail (error : String)
  | cancel (reason : String)

/-- Durable synchronisation is the reducer that may reopen a finished step. -/
def RunReduction.reopens : RunReduction → Bool
  | .syncDurable _ => true
  | _ => false

/-- The reducers of a Run. -/
inductive RunOperation where
  | revisePlan (plan : ExecutionPlan)
  | reduce (reduction : RunReduction)

namespace RunSnapshot

/-- Run a reducer that keeps the plan. -/
def reduce (state : RunSnapshot) : RunReduction → Except PyError RunTransition
  | .modelDelta => onModelDelta state
  | .toolCallsStarted toolNames => onToolCallsStarted state toolNames
  | .toolRoundCompleted outcome => onToolRoundCompleted state outcome
  | .toolRoundFailed error => onToolRoundFailed state error
  | .complete finalResponse => RunStateMachine.complete state finalResponse
  | .completeDurable finalResponse coveredStepIds =>
    completeDurableExecution state finalResponse coveredStepIds
  | .finishDurable coveredStepIds => finishDurableExecution state coveredStepIds
  | .syncDurable statuses => syncDurableExecution state statuses
  | .fail error => RunStateMachine.fail state error
  | .cancel reason => RunStateMachine.cancel state reason

/-- Run a reducer: the snapshot it leads to, or what it raises. -/
def apply (state : RunSnapshot) : RunOperation → Except PyError RunSnapshot
  | .revisePlan plan => revisePlan state plan
  | .reduce reduction => (state.reduce reduction).map (·.after)

/-- The snapshot the caller holds afterwards: a reducer that raised changed nothing. -/
def next (state : RunSnapshot) (op : RunOperation) : RunSnapshot :=
  match state.apply op with
  | .ok after => after
  | .error _ => state

/-- The snapshots reachable from `initialize` by any run of the reducers. -/
def Reachable (state : RunSnapshot) : Prop :=
  ∃ runId plan title start ops, initializeRun runId plan title = .ok start ∧
    state = exec next start ops

end RunSnapshot

/-! ## Lists of steps -/

variable {steps : List TaskStep}

theorem stepIds_eq_of_restates {steps' : List TaskStep}
    (h : List.Forall₂ TaskStep.Restates steps steps') : stepIds steps' = stepIds steps := by
  induction h with
  | nil => rfl
  | cons h _ ih => simp [stepIds, h.id_eq] at ih ⊢; exact ih

theorem stepRows_eq_of_restates {steps' : List TaskStep}
    (h : List.Forall₂ TaskStep.Restates steps steps') : stepRows steps' = stepRows steps := by
  induction h with
  | nil => rfl
  | cons h _ ih => simp [stepRows, h.id_eq, h.dependsOn_eq] at ih ⊢; exact ih

/-- A step with this id is done. -/
def IsDone (steps : List TaskStep) (id : RequiredText) : Prop :=
  ∃ step ∈ steps, step.id = id ∧ step.status = .done

instance (steps : List TaskStep) (id : RequiredText) : Decidable (IsDone steps id) :=
  inferInstanceAs (Decidable (∃ step ∈ steps, _))

/-- Two steps with one id are one step. -/
theorem eq_of_id_eq (hnd : (stepIds steps).Nodup) {a b : TaskStep}
    (ha : a ∈ steps) (hb : b ∈ steps) (h : a.id = b.id) : a = b :=
  List.inj_on_of_nodup_map hnd ha hb h

theorem statusById_eq_some (hnd : (stepIds steps).Nodup) {id : RequiredText} {status : StepStatus} :
    statusById steps id = some status ↔ ∃ step ∈ steps, step.id = id ∧ step.status = status := by
  unfold statusById
  rw [Option.map_eq_some_iff]
  constructor
  · rintro ⟨step, hfind, rfl⟩
    exact ⟨step, List.mem_of_find?_eq_some hfind, by simpa using List.find?_some hfind, rfl⟩
  · rintro ⟨step, hmem, rfl, rfl⟩
    cases hfind : steps.find? fun s => s.id = step.id with
    | none =>
      have := List.find?_eq_none.1 hfind step hmem
      simp at this
    | some found =>
      have hid : found.id = step.id := by simpa using List.find?_some hfind
      exact ⟨found, rfl, by
        rw [eq_of_id_eq hnd (List.mem_of_find?_eq_some hfind) hmem hid]⟩

variable {step : TaskStep}

theorem mem_runningSteps :
    step ∈ runningSteps steps ↔ step ∈ steps ∧ step.status = .running := by
  simp [runningSteps]

theorem runningSteps_eq_nil :
    runningSteps steps = [] ↔ ∀ step ∈ steps, step.status ≠ .running := by
  simp [runningSteps, List.filter_eq_nil_iff]

variable {i : Nat}

/-- The running steps around a position. -/
theorem runningSteps_set (hi : i < steps.length) (step : TaskStep) :
    runningSteps (steps.set i step) =
      runningSteps (steps.take i) ++ runningSteps [step] ++ runningSteps (steps.drop (i + 1)) := by
  unfold runningSteps
  rw [List.set_eq_take_append_cons_drop, if_pos hi, ← List.filter_append, ← List.filter_append,
    List.append_assoc, List.singleton_append]

/-- When one step runs, none runs before or after it. -/
theorem runningSteps_around (hone : (runningSteps steps).length ≤ 1)
    (hget : steps[i]? = some step) (hrun : step.status = .running) :
    runningSteps (steps.take i) = [] ∧ runningSteps (steps.drop (i + 1)) = [] := by
  obtain ⟨hi, hstep⟩ := List.getElem?_eq_some_iff.1 hget
  have hself : steps.set i step = steps := by
    rw [← hstep]
    exact List.set_getElem_self hi
  have hsplit := runningSteps_set hi step
  have hsingle : runningSteps [step] = [step] := by simp [runningSteps, hrun]
  rw [hself, hsingle] at hsplit
  have hlen := congrArg List.length hsplit
  simp only [List.length_append, List.length_singleton] at hlen
  constructor
  · exact List.eq_nil_of_length_eq_zero (by omega)
  · exact List.eq_nil_of_length_eq_zero (by omega)

/-- Replacing the running step leaves its replacement to run, or nothing. -/
theorem runningSteps_set_running (hone : (runningSteps steps).length ≤ 1)
    (hget : steps[i]? = some step) (hrun : step.status = .running) (step' : TaskStep) :
    runningSteps (steps.set i step') = runningSteps [step'] := by
  obtain ⟨hbefore, hafter⟩ := runningSteps_around hone hget hrun
  rw [runningSteps_set (List.getElem?_eq_some_iff.1 hget).1, hbefore, hafter, List.nil_append,
    List.append_nil]

/-- Starting a step while none runs. -/
theorem runningSteps_set_idle (hidle : runningSteps steps = [])
    (hi : i < steps.length) (step : TaskStep) :
    runningSteps (steps.set i step) = runningSteps [step] := by
  rw [runningSteps_eq_nil] at hidle
  rw [runningSteps_set hi, runningSteps_eq_nil.2 fun s hs => hidle s (List.mem_of_mem_take hs),
    runningSteps_eq_nil.2 fun s hs => hidle s (List.mem_of_mem_drop hs), List.nil_append,
    List.append_nil]

/-- Which steps are done after one was restated. -/
theorem isDone_set (hnd : (stepIds steps).Nodup)
    {step' : TaskStep} (hget : steps[i]? = some step) (hid : step'.id = step.id)
    {id : RequiredText} :
    IsDone (steps.set i step') id ↔
      id = step.id ∧ step'.status = .done ∨ id ≠ step.id ∧ IsDone steps id := by
  have hi := (List.getElem?_eq_some_iff.1 hget).1
  constructor
  · rintro ⟨s, hs, rfl, hdone⟩
    obtain ⟨j, hj⟩ := List.mem_iff_getElem?.1 hs
    rw [List.getElem?_set] at hj
    by_cases hij : i = j
    · rw [if_pos hij, if_pos hi] at hj
      cases hj
      exact Or.inl ⟨hid, hdone⟩
    · rw [if_neg hij] at hj
      refine Or.inr ⟨fun heq => hij ?_, s, List.mem_of_getElem? hj, rfl, hdone⟩
      have hsame : (stepIds steps)[i]? = (stepIds steps)[j]? := by
        simp only [stepIds, List.getElem?_map, hget, hj, Option.map_some, heq]
      exact (List.getElem?_inj (by simpa [stepIds] using hi) hnd).1 hsame
  · rintro (⟨rfl, hdone⟩ | ⟨hne, s, hs, rfl, hdone⟩)
    · exact ⟨step', List.mem_of_getElem? (List.getElem?_set_self hi), hid, hdone⟩
    · obtain ⟨j, hj⟩ := List.mem_iff_getElem?.1 hs
      have hij : i ≠ j := by
        rintro rfl
        rw [hget] at hj
        cases hj
        exact hne rfl
      refine ⟨s, List.mem_of_getElem? (i := j) ?_, rfl, hdone⟩
      rw [List.getElem?_set_ne hij, hj]

/-! ## Sound changes -/

theorem not_done_of_open (h : step.status.finished = false) :
    step.status ≠ .done := by
  intro hdone
  rw [hdone] at h
  cases h

theorem open_of_running (h : step.status = .running) :
    step.status.finished = false := by
  rw [h]
  rfl

/-- Each change restates the step it replaces and keeps it done, and no step is changed twice; a
finished step stays finished unless the changes may reopen it. -/
structure SoundChanges (reopens : Bool) (steps : List TaskStep) (changes : List (Nat × TaskStep)) :
    Prop where
  moves : ∀ i step', (i, step') ∈ changes → ∃ step, steps[i]? = some step ∧
    step.Restates step' ∧ (step.status = .done → step'.status = .done) ∧
    (reopens = false → step.status.finished = true → step'.status.finished = true)
  once : (changes.map Prod.fst).Nodup

namespace SoundChanges

variable {reopens : Bool} {steps : List TaskStep} {changes : List (Nat × TaskStep)}

theorem nil : SoundChanges reopens steps [] :=
  ⟨fun _ _ h => absurd h List.not_mem_nil, List.nodup_nil⟩

/-- An open step may change in any way. -/
theorem single {i : Nat} {step step' : TaskStep} (hget : steps[i]? = some step)
    (hrestates : step.Restates step') (hopen : step.status.finished = false) :
    SoundChanges reopens steps [(i, step')] where
  moves := by
    intro j a hmem
    cases List.mem_singleton.1 hmem
    refine ⟨step, hget, hrestates, fun h => absurd h (not_done_of_open hopen), fun _ h => ?_⟩
    rw [hopen] at h
    cases h
  once := List.nodup_singleton i

/-- One step ends, another one that is unfinished then starts. -/
theorem handOver {i j : Nat} {step step' other : TaskStep} (hget : steps[i]? = some step)
    (hrestates : step.Restates step') (hopen : step.status.finished = false)
    (hfinished : step'.status.finished = true) (hother : (steps.set i step')[j]? = some other)
    (hopen' : other.status.finished = false) :
    SoundChanges reopens steps [(i, step'), (j, start other)] := by
  have hij : i ≠ j := by
    rintro rfl
    rw [List.getElem?_set_self (List.getElem?_eq_some_iff.1 hget).1] at hother
    cases hother
    rw [hfinished] at hopen'
    cases hopen'
  rw [List.getElem?_set_ne hij] at hother
  have hstart : SoundChanges reopens steps [(j, start other)] := single hother rfl hopen'
  have hend : SoundChanges reopens steps [(i, step')] := single hget hrestates hopen
  constructor
  · intro k a hmem
    rcases List.mem_cons.1 hmem with h | h
    · exact hend.moves k a (List.mem_singleton.2 h)
    · exact hstart.moves k a h
  · simp [hij]

theorem positions {f : TaskStep → Option TaskStep}
    (hf : ∀ step step', f step = some step' →
      step.Restates step' ∧ (step.status = .done → step'.status = .done) ∧
        (reopens = false → step.status.finished = true → step'.status.finished = true)) :
    SoundChanges reopens steps (Purra.positions f steps) where
  moves := by
    intro i a hmem
    obtain ⟨b, hb, hfb⟩ := mem_positions.1 hmem
    exact ⟨b, hb, hf b a hfb⟩
  once := nodup_positions f steps

/-- What holds of every sound change, and of a step left alone, holds between the two lists. -/
theorem forall₂ {R : TaskStep → TaskStep → Prop} (hrefl : ∀ step, R step step)
    (hR : ∀ step step', step.Restates step' → (step.status = .done → step'.status = .done) →
      (reopens = false → step.status.finished = true → step'.status.finished = true) →
      R step step')
    (h : SoundChanges reopens steps changes) : List.Forall₂ R steps (setAll steps changes) := by
  refine forall₂_setAll hrefl fun i a hmem b hb => ?_
  obtain ⟨step, hstep, hrestates, hdone, hfinished⟩ := h.moves i a hmem
  rw [hb] at hstep
  cases hstep
  exact hR b a hrestates hdone hfinished

theorem restates (h : SoundChanges reopens steps changes) :
    List.Forall₂ TaskStep.Restates steps (setAll steps changes) :=
  h.forall₂ TaskStep.Restates.refl fun _ _ hrestates _ _ => hrestates

/-- What is done stays done. -/
theorem keeps_done (h : SoundChanges reopens steps changes) :
    List.Forall₂ (fun step step' => step.status = .done → step'.status = .done) steps
      (setAll steps changes) :=
  h.forall₂ (fun _ h => h) fun _ _ _ hdone _ => hdone

end SoundChanges

/-! ## What a reducer returns -/

/-- How a change of steps may end the Run. -/
inductive Ending : Option RunStatus → Option String → Option RequiredText → Prop
  | open_ : Ending none none none
  | done (response : String) : Ending (some .done) (some response) none
  | blocked (response : String) : Ending (some .blocked) (some response) none
  | failed (error : RequiredText) : Ending (some .failed) none (some error)
  | canceled (reason : RequiredText) : Ending (some .canceled) none (some reason)

theorem mem_runningStep {p : TaskStep → Bool} (h : runningStep p steps = some (i, step)) :
    steps[i]? = some step ∧ step.status = .running ∧ p step = true := by
  obtain ⟨hget, hp, -⟩ := findFirst_eq_some.1 h
  rw [Bool.and_eq_true, decide_eq_true_eq] at hp
  exact ⟨hget, hp⟩

theorem mem_nextIncomplete (h : nextIncomplete steps = some (i, step)) :
    steps[i]? = some step ∧ step.status.finished = false := by
  obtain ⟨hget, hp, -⟩ := findFirst_eq_some.1 h
  exact ⟨hget, by simpa using hp⟩

theorem start_restates (step : TaskStep) : step.Restates (start step) := rfl

theorem decline_restates (step : TaskStep) : step.Restates (decline step) := rfl

theorem conclude_restates (status : StepStatus) (summary : RequiredText) (step : TaskStep) :
    step.Restates (conclude status summary step) := rfl

/-- The step that is to run the requested tools, once the reasoning step has ended. -/
theorem mem_toolStep
    (h : (runningStep TaskStep.isToolStep steps).or (nextIncomplete steps) = some (i, step)) :
    steps[i]? = some step ∧ step.status.finished = false := by
  cases hrun : runningStep TaskStep.isToolStep steps with
  | none =>
    rw [hrun, Option.none_or] at h
    exact mem_nextIncomplete h
  | some p =>
    rw [hrun, Option.some_or] at h
    cases h
    obtain ⟨hget, hstatus, -⟩ := mem_runningStep hrun
    exact ⟨hget, by rw [hstatus]; rfl⟩

/-- The changes `on_tool_calls_started` makes, whichever step it finds. -/
theorem soundChanges_toolCalls (hget : (setAll steps (concludeReasoning steps))[i]? = some step)
    (hopen : step.status.finished = false) :
    SoundChanges false steps (concludeReasoning steps) ∧
      SoundChanges false steps (concludeReasoning steps ++ [(i, start step)]) := by
  unfold concludeReasoning at hget ⊢
  cases hmodel : runningStep TaskStep.isModelStep steps with
  | none =>
    rw [hmodel] at hget
    exact ⟨.nil, .single hget rfl hopen⟩
  | some p =>
    rw [hmodel] at hget
    obtain ⟨hp, hrun, -⟩ := mem_runningStep hmodel
    exact ⟨.single hp (conclude_restates _ _ _) (open_of_running hrun),
      .handOver hp (conclude_restates _ _ _) (open_of_running hrun) rfl hget hopen⟩

/-- A rule that ends open steps: it restates them, leaves the finished ones alone, and leaves no
step running. -/
structure Ends (f : TaskStep → Option TaskStep) : Prop where
  restates : ∀ step step', f step = some step' →
    step.Restates step' ∧ step.status.finished = false
  idle : ∀ step, ((f step).getD step).status ≠ .running

theorem Ends.sound {f : TaskStep → Option TaskStep} (h : Ends f) (steps : List TaskStep) :
    SoundChanges false steps (Purra.positions f steps) := by
  refine .positions fun step step' hstep => ?_
  obtain ⟨hrestates, hopen⟩ := h.restates step step' hstep
  refine ⟨hrestates, fun hdone => absurd hdone (not_done_of_open hopen), fun _ hfinished => ?_⟩
  rw [hopen] at hfinished
  cases hfinished

theorem Ends.runningSteps {f : TaskStep → Option TaskStep} (h : Ends f) (steps : List TaskStep) :
    runningSteps (setAll steps (Purra.positions f steps)) = [] := by
  rw [setAll_positions, runningSteps_eq_nil]
  intro step hstep
  obtain ⟨original, -, rfl⟩ := List.mem_map.1 hstep
  exact h.idle original

theorem ends_coverStep (incomplete : Bool) : Ends (coverStep incomplete) where
  restates := by
    intro step step' h
    unfold coverStep at h
    split at h
    · cases h
    rename_i hopen
    split at h
    · cases h
      exact ⟨conclude_restates _ _ _, by simpa using hopen⟩
    · cases h
      exact ⟨conclude_restates _ _ _, by simpa using hopen⟩
  idle := by
    intro step
    unfold coverStep
    split
    · rename_i hfinished
      intro hrun
      rw [show step.status = .running from hrun] at hfinished
      cases hfinished
    split
    · exact StepStatus.noConfusion
    · exact StepStatus.noConfusion

theorem ends_failStep (error : RequiredText) : Ends (failStep error) where
  restates := by
    intro step step' h
    unfold failStep at h
    split at h
    · rename_i hrun
      cases h
      exact ⟨rfl, open_of_running hrun⟩
    · cases h
  idle := by
    intro step
    unfold failStep
    split
    · exact StepStatus.noConfusion
    · rename_i hrun
      exact hrun

theorem ends_cancelStep : Ends cancelStep where
  restates := by
    intro step step' h
    unfold cancelStep at h
    split at h
    · cases h
    · rename_i hopen
      cases h
      exact ⟨conclude_restates _ _ _, by simpa using hopen⟩
  idle := by
    intro step
    unfold cancelStep
    split
    · rename_i hfinished
      intro hrun
      rw [show step.status = .running from hrun] at hfinished
      cases hfinished
    · exact StepStatus.noConfusion

theorem fulfilStep_sound (coveredStepIds : List String) (steps : List TaskStep) :
    SoundChanges false steps (positions (fulfilStep coveredStepIds) steps) := by
  refine .positions fun step step' h => ?_
  unfold fulfilStep at h
  split at h
  · cases h
    exact ⟨conclude_restates _ _ _, fun _ => rfl, fun _ _ => rfl⟩
  · cases h

/-- What a durable completion changes, or why it is refused. -/
theorem fulfil_cases (state : RunSnapshot) (coveredStepIds : List String) :
    ((∀ id ∈ (stepIds state.steps).map (·.text), id ∈ coveredStepIds) ∧
        (∀ id ∈ coveredStepIds, id ∈ (stepIds state.steps).map (·.text)) ∧
        fulfil state coveredStepIds = .ok (positions (fulfilStep coveredStepIds) state.steps)) ∨
      (¬ ((∀ id ∈ (stepIds state.steps).map (·.text), id ∈ coveredStepIds) ∧
        ∀ id ∈ coveredStepIds, id ∈ (stepIds state.steps).map (·.text))) ∧
        fulfil state coveredStepIds =
          .error (.runtimeError "durable completion must match the admitted plan steps") := by
  simp only [fulfil]
  split
  · rename_i h
    exact Or.inr ⟨h, rfl⟩
  · rename_i h
    exact Or.inl ⟨(not_not.1 h).1, (not_not.1 h).2, rfl⟩

variable {state : RunSnapshot}

theorem soundChanges_fulfil {coveredStepIds : List String}
    {changes : List (Nat × TaskStep)} (h : fulfil state coveredStepIds = .ok changes) :
    SoundChanges false state.steps changes := by
  rcases fulfil_cases state coveredStepIds with ⟨-, -, hok⟩ | ⟨-, hraise⟩
  · rw [hok] at h
    cases h
    exact fulfilStep_sound coveredStepIds state.steps
  · rw [hraise] at h
    cases h

theorem project_sound {status : StepStatus} {step' : TaskStep}
    (h : project status step = some step') :
    step.Restates step' ∧ (step.status = .done → step'.status = .done) := by
  unfold project at h
  split at h
  · cases h
  split at h
  · cases h
  · rename_i hdone
    cases h
    exact ⟨rfl, fun h => absurd h hdone⟩

/-- A step under the statuses its durable units have. -/
def synced (statuses : Dict String StepStatus) (step : TaskStep) : Option TaskStep :=
  (statuses.get? step.id.text).bind fun status => project status step

/-- The changes `sync_durable_execution` makes, found step by step. -/
theorem mem_syncChanges {statuses : Dict String StepStatus} {step' : TaskStep} :
    (i, step') ∈ (statuses.entries.filterMap fun entry =>
        (findFirst (fun step => step.id.text = entry.1) state.steps).bind fun p =>
          (project entry.2 p.2).map fun step => (p.1, step)) ↔
      ∃ step, state.steps[i]? = some step ∧ synced statuses step = some step' := by
  simp only [List.mem_filterMap, Option.bind_eq_some_iff, Option.map_eq_some_iff, Prod.exists,
    synced]
  constructor
  · rintro ⟨key, status, hentry, j, step, hfind, projected, hproject, heq⟩
    cases heq
    obtain ⟨hget, hid, -⟩ := findFirst_eq_some.1 hfind
    have hkey : step.id.text = key := by simpa using hid
    exact ⟨step, hget, status, by rw [hkey, ← Dict.mem_entries_iff]; exact hentry, hproject⟩
  · rintro ⟨step, hget, status, hstatus, hproject⟩
    refine ⟨step.id.text, status, Dict.mem_entries_iff.2 hstatus, i, step, ?_, step', hproject, rfl⟩
    refine findFirst_eq_some.2 ⟨hget, by simp, fun j other hj hother => ?_⟩
    by_contra hsame
    have hid : other.id = step.id := RequiredText.ext (by simpa using hsame)
    have hij : (stepIds state.steps)[j]? = (stepIds state.steps)[i]? := by
      simp only [stepIds, List.getElem?_map, hother, hget, Option.map_some, hid]
    have hlt : j < (stepIds state.steps).length := by
      simpa [stepIds] using (List.getElem?_eq_some_iff.1 hother).1
    have := (List.getElem?_inj hlt state.valid.ids_nodup).1 hij
    omega

theorem soundChanges_sync (state : RunSnapshot) (statuses : Dict String StepStatus) :
    SoundChanges true state.steps (statuses.entries.filterMap fun entry =>
      (findFirst (fun step => step.id.text = entry.1) state.steps).bind fun p =>
        (project entry.2 p.2).map fun step => (p.1, step)) where
  moves := by
    intro i step' hmem
    obtain ⟨step, hget, hsynced⟩ := mem_syncChanges.1 hmem
    obtain ⟨status, -, hproject⟩ := Option.bind_eq_some_iff.1 hsynced
    obtain ⟨hrestates, hdone⟩ := project_sound hproject
    exact ⟨step, hget, hrestates, hdone, fun h => by cases h⟩
  once := by
    rw [List.map_filterMap, List.Nodup, List.pairwise_filterMap]
    refine (List.pairwise_map.1 statuses.nodup).imp fun {a a'} hne i hi i' hi' heq => hne ?_
    subst heq
    -- one position belongs to one step, whose id is the key of its entry
    have hkey : ∀ entry : String × StepStatus, Option.map Prod.fst
        ((findFirst (fun step => step.id.text = entry.1) state.steps).bind fun p =>
          (project entry.2 p.2).map fun step => (p.1, step)) = some i →
        ∃ step, state.steps[i]? = some step ∧ step.id.text = entry.1 := by
      intro entry h
      obtain ⟨change, hchange, rfl⟩ := Option.map_eq_some_iff.1 h
      obtain ⟨⟨j, step⟩, hfind, hmap⟩ := Option.bind_eq_some_iff.1 hchange
      obtain ⟨step', -, rfl⟩ := Option.map_eq_some_iff.1 hmap
      obtain ⟨hget, hid, -⟩ := findFirst_eq_some.1 hfind
      exact ⟨step, hget, by simpa using hid⟩
    obtain ⟨step, hget, hid⟩ := hkey a hi
    obtain ⟨step', hget', hid'⟩ := hkey a' hi'
    rw [hget] at hget'
    cases hget'
    exact hid.symm.trans hid'

/-- A finished Run is final. -/
theorem reduce_terminal (h : state.terminal = true)
    (reduction : RunReduction) : state.reduce reduction = .ok ⟨state, state, []⟩ := by
  cases reduction <;>
    simp [RunSnapshot.reduce, onModelDelta, onToolCallsStarted, onToolRoundCompleted,
      onToolRoundFailed, complete, completeDurableExecution, finishDurableExecution,
      syncDurableExecution, fail, cancel, unchanged, h]

/-- **What a reducer that keeps the plan returns**: the snapshot unchanged, or a live snapshot
with sound changes. -/
theorem reduce_cases {reduction : RunReduction} {t : RunTransition}
    (h : state.reduce reduction = .ok t) :
    t = ⟨state, state, []⟩ ∨ state.terminal = false ∧ ∃ changes status response error,
      SoundChanges reduction.reopens state.steps changes ∧ Ending status response error ∧
      withStepChanges state changes status response error = .ok t := by
  cases hterminal : state.terminal with
  | true =>
    rw [reduce_terminal hterminal] at h
    cases h
    exact Or.inl rfl
  | false =>
    have hlive : ¬ state.terminal = true := by simp [hterminal]
    cases reduction with
    | modelDelta =>
      simp only [RunSnapshot.reduce, onModelDelta] at h
      split at h
      · cases h
        exact Or.inl rfl
      split at h
      · cases h
        exact Or.inl rfl
      · rename_i index step hnext
        obtain ⟨hget, hopen⟩ := mem_nextIncomplete hnext
        split at h
        · cases h
          exact Or.inl rfl
        split at h
        · cases h
          exact Or.inl rfl
        · exact Or.inr ⟨rfl, _, _, _, _, .single hget (start_restates step) hopen, .open_, h⟩
    | toolCallsStarted toolNames =>
      simp only [RunSnapshot.reduce, onToolCallsStarted, if_neg hlive] at h
      split at h
      · cases h
      split at h
      · cases h
      · rename_i index step hfound
        obtain ⟨hget, hopen⟩ := mem_toolStep hfound
        obtain ⟨hconclude, hstart⟩ := soundChanges_toolCalls hget hopen
        split at h
        · cases h
        split at h
        · exact Or.inr ⟨rfl, _, _, _, _, hconclude, .open_, h⟩
        · exact Or.inr ⟨rfl, _, _, _, _, hstart, .open_, h⟩
    | toolRoundCompleted outcome =>
      simp only [RunSnapshot.reduce, onToolRoundCompleted, if_neg hlive] at h
      split at h
      · cases h
      split at h
      · cases h
        exact Or.inl rfl
      · rename_i index step hfound
        obtain ⟨hget, hrun, -⟩ := mem_runningStep hfound
        have hnot := open_of_running hrun
        split at h
        · exact Or.inr ⟨rfl, _, _, _, _, .single hget (decline_restates step) hnot, .open_, h⟩
        split at h
        · cases h
          exact Or.inl rfl
        split at h
        · exact Or.inr ⟨rfl, _, _, _, _, .single hget (conclude_restates _ _ _) hnot, .open_, h⟩
        · rename_i next step' hnext
          obtain ⟨hget', hopen⟩ := mem_nextIncomplete hnext
          split at h
          · exact Or.inr ⟨rfl, _, _, _, _, .single hget (conclude_restates _ _ _) hnot, .open_, h⟩
          · exact Or.inr ⟨rfl, _, _, _, _,
              .handOver hget (conclude_restates _ _ _) hnot rfl hget' hopen, .open_, h⟩
    | toolRoundFailed error =>
      simp only [RunSnapshot.reduce, onToolRoundFailed, if_neg hlive] at h
      split at h
      · cases h
      · rename_i index step hfound
        obtain ⟨hget, hrun, -⟩ := mem_runningStep hfound
        exact Or.inr ⟨rfl, _, _, _, _, .single hget (by exact rfl) (open_of_running hrun), .open_,
          h⟩
    | complete finalResponse =>
      simp only [RunSnapshot.reduce, complete, if_neg hlive] at h
      refine Or.inr ⟨rfl, _, _, _, _, (ends_coverStep _).sound _, ?_, h⟩
      split
      · exact .blocked finalResponse
      · exact .done finalResponse
    | completeDurable finalResponse coveredStepIds =>
      simp only [RunSnapshot.reduce, completeDurableExecution, if_neg hlive] at h
      obtain ⟨changes, hchanges, h⟩ := bind_eq_ok h
      exact Or.inr ⟨rfl, changes, _, _, _, soundChanges_fulfil hchanges, .done finalResponse, h⟩
    | finishDurable coveredStepIds =>
      simp only [RunSnapshot.reduce, finishDurableExecution, if_neg hlive] at h
      obtain ⟨changes, hchanges, h⟩ := bind_eq_ok h
      exact Or.inr ⟨rfl, changes, _, _, _, soundChanges_fulfil hchanges, .open_, h⟩
    | syncDurable statuses =>
      simp only [RunSnapshot.reduce, syncDurableExecution, if_neg hlive] at h
      split at h
      · cases h
      · exact Or.inr ⟨rfl, _, _, _, _, soundChanges_sync state statuses, .open_, h⟩
    | fail error =>
      simp only [RunSnapshot.reduce, fail, if_neg hlive] at h
      split at h
      · cases h
      · rename_i normalizedError _
        exact Or.inr ⟨rfl, _, _, _, _, (ends_failStep _).sound _, .failed normalizedError, h⟩
    | cancel reason =>
      simp only [RunSnapshot.reduce, cancel, if_neg hlive] at h
      exact Or.inr ⟨rfl, _, _, _, _, ends_cancelStep.sound _, .canceled _, h⟩

end Purra
