import Purra.RunState.History

/-!
# The reducers are closed

A reducer returns a valid snapshot or raises `ContractViolationError`; completing a
durable execution that does not cover the plan raises `RuntimeError` (`Answer`).

The snapshot's constructor lets a step run only when everything it depends on is done.
The reducers pick the step to start without looking at its dependencies, so the rule is
about each operation that starts no step too early (`StartsReady`), whatever happened before it:
then the constructor accepts what it builds.  The initial step, and every operation that ends steps only, is
covered without a condition.
-/

namespace Purra

open RunStateMachine

/-- Everything the step depends on is done. -/
def Ready (steps : List TaskStep) (step : TaskStep) : Prop :=
  ∀ id ∈ step.dependsOn, IsDone steps id

instance (steps : List TaskStep) (step : TaskStep) : Decidable (Ready steps step) :=
  inferInstanceAs (Decidable (∀ id ∈ step.dependsOn, IsDone steps id))

/-- The steps after the running model step, if there is one, has ended. -/
def afterReasoning (steps : List TaskStep) : List TaskStep :=
  setAll steps (concludeReasoning steps)

/-- The steps under the statuses their durable units have. -/
def syncedSteps (statuses : Dict String StepStatus) (steps : List TaskStep) : List TaskStep :=
  steps.map fun step => (synced statuses step).getD step

/-- One step at most runs, and it is ready. -/
def RunsReady (steps : List TaskStep) : Prop :=
  (runningSteps steps).length ≤ 1 ∧ ∀ step ∈ runningSteps steps, Ready steps step

instance (steps : List TaskStep) : Decidable (RunsReady steps) :=
  inferInstanceAs (Decidable (_ ∧ _))

/-- A round asks for tools, and only for granted ones. -/
def Granted (state : RunSnapshot) (toolNames : List String) : Prop :=
  requestedTools toolNames ≠ [] ∧
    ∀ name ∈ requestedTools toolNames, name ∈ allowedToolNamesForCurrentTransition state

instance (state : RunSnapshot) (toolNames : List String) : Decidable (Granted state toolNames) :=
  inferInstanceAs (Decidable (_ ∧ _))

/-- The steps an operation starts are ready, and none starts next to a running one. -/
def StartsReady (state : RunSnapshot) : RunOperation → Prop
  | .revisePlan plan => MeetsContract state plan →
      ∀ step ∈ runningSteps (restoredFuture state plan),
        Ready (history state ++ restoredFuture state plan) step
  | .reduce .modelDelta =>
    (runningSteps state.steps).any (·.isToolStep) = false →
      ∀ p ∈ nextIncomplete state.steps, p.2.isModelStep = true → p.2.status = .pending →
        runningSteps state.steps = [] ∧ Ready state.steps p.2
  | .reduce (.toolCallsStarted toolNames) =>
    Granted state toolNames → (runningStep TaskStep.isModelStep state.steps).isSome = true →
      ∀ p ∈ nextIncomplete (afterReasoning state.steps), p.2.isToolStep = true →
        Ready (afterReasoning state.steps) p.2
  | .reduce (.toolRoundCompleted .completed) =>
    ∀ r ∈ runningStep TaskStep.isToolStep state.steps,
      let steps := state.steps.set r.1 (conclude .done (.lit "Planned tool step completed." planned_text) r.2)
      ∀ p ∈ nextIncomplete steps, p.2.type ≠ .confirm → Ready steps p.2
  | .reduce (.syncDurable statuses) =>
    (∀ id ∈ statuses.keys, id ∈ (stepIds state.steps).map (·.text)) →
      RunsReady (syncedSteps statuses state.steps)
  | .reduce _ => True

instance (state : RunSnapshot) : (op : RunOperation) → Decidable (StartsReady state op)
  | .revisePlan plan => inferInstanceAs (Decidable (MeetsContract state plan →
      ∀ step ∈ runningSteps (restoredFuture state plan), _))
  | .reduce .modelDelta => inferInstanceAs (Decidable (_ → ∀ p ∈ nextIncomplete state.steps, _))
  | .reduce (.toolCallsStarted toolNames) =>
    inferInstanceAs (Decidable (Granted state toolNames → _ →
      ∀ p ∈ nextIncomplete (afterReasoning state.steps), _))
  | .reduce (.toolRoundCompleted .completed) =>
    inferInstanceAs (Decidable (∀ r ∈ runningStep TaskStep.isToolStep state.steps,
      ∀ p ∈ nextIncomplete (state.steps.set r.1
        (conclude .done (.lit "Planned tool step completed." planned_text) r.2)), _))
  | .reduce (.syncDurable statuses) =>
    inferInstanceAs (Decidable ((∀ id ∈ statuses.keys, _) →
      RunsReady (syncedSteps statuses state.steps)))
  | .reduce (.toolRoundCompleted .progressed) | .reduce (.toolRoundCompleted .declined)
  | .reduce (.toolRoundCompleted .canceled) | .reduce (.toolRoundCompleted .rejected)
  | .reduce (.toolRoundCompleted .failed) | .reduce (.toolRoundFailed _)
  | .reduce (.complete _) | .reduce (.completeDurable _ _) | .reduce (.finishDurable _)
  | .reduce (.fail _) | .reduce (.cancel _) => isTrue trivial

/-- A durable execution is completed that does not cover the planned steps. -/
def Uncovered (state : RunSnapshot) (coveredStepIds : List String) : Prop :=
  ¬ ((∀ id ∈ (stepIds state.steps).map (·.text), id ∈ coveredStepIds) ∧
    ∀ id ∈ coveredStepIds, id ∈ (stepIds state.steps).map (·.text))

/-- What an operation may answer. -/
inductive Answer (state : RunSnapshot) : RunOperation → Except PyError RunSnapshot → Prop
  | returned {op : RunOperation} (after : RunSnapshot) : Answer state op (.ok after)
  | refused {op : RunOperation} (message : String) : Answer state op (.error (runViolation message))
  | uncovered {finalResponse : String} {coveredStepIds : List String}
      (h : Uncovered state coveredStepIds) (message : String) :
      Answer state (.reduce (.completeDurable finalResponse coveredStepIds))
        (.error (.runtimeError message))
  | uncoveredFinish {coveredStepIds : List String} (h : Uncovered state coveredStepIds)
      (message : String) :
      Answer state (.reduce (.finishDurable coveredStepIds)) (.error (.runtimeError message))

/-! ## Changes that the constructor accepts -/

section Changes

variable {state : RunSnapshot} {changes : List (Nat × TaskStep)} {status : Option RunStatus}
  {response : Option String} {error : Option RequiredText}

theorem withStepChanges_returns (hrestates : List.Forall₂ TaskStep.Restates state.steps (setAll state.steps changes))
    (hready : RunsReady (setAll state.steps changes))
    (hsettled : (status.getD state.status).terminal = true →
      runningSteps (setAll state.steps changes) = []) :
    ∃ t, withStepChanges state changes status response error = .ok t := by
  have hids := stepIds_eq_of_restates hrestates
  have hvalid : SnapshotFields.Valid { state.toSnapshotFields with
      steps := setAll state.steps changes
      status := status.getD state.status
      finalResponse := response.getD state.finalResponse
      error := error.or state.error } := by
    refine .of_done ?_ hready.1 hready.2 hsettled ?_
    · rw [hids]
      exact state.valid.ids_nodup
    · rw [hids]
      exact state.valid.work_known
  unfold withStepChanges
  rw [show RunSnapshot.of _ = .ok ⟨_, hvalid⟩ from RunSnapshot.of_eq_ok.2 rfl]
  exact ⟨_, if_neg (fun h => h rfl)⟩

/-- Changes after which no step runs. -/
theorem withStepChanges_idle (hrestates : List.Forall₂ TaskStep.Restates state.steps (setAll state.steps changes))
    (hidle : runningSteps (setAll state.steps changes) = []) :
    ∃ t, withStepChanges state changes status response error = .ok t := by
  refine withStepChanges_returns hrestates ⟨?_, ?_⟩ fun _ => hidle
  · rw [hidle]
    exact Nat.zero_le 1
  · rw [hidle]
    exact fun step hstep => absurd hstep List.not_mem_nil

/-- Changes that keep the Run open. -/
theorem withStepChanges_live (hrestates : List.Forall₂ TaskStep.Restates state.steps (setAll state.steps changes))
    (hlive : state.terminal = false) (hready : RunsReady (setAll state.steps changes)) :
    ∃ t, withStepChanges state changes none none none = .ok t := by
  refine withStepChanges_returns hrestates hready fun h => ?_
  have : state.status.terminal = true := h
  rw [show state.status.terminal = false from hlive] at this
  cases this

end Changes

/-- An open step changed in any way. -/
theorem restates_single {steps : List TaskStep} {i : Nat} {step step' : TaskStep}
    (hget : steps[i]? = some step) (hrestates : step.Restates step')
    (hopen : step.status.finished = false) :
    List.Forall₂ TaskStep.Restates steps (setAll steps [(i, step')]) :=
  (SoundChanges.single hget hrestates hopen : SoundChanges false steps _).restates

theorem answer_reduce {state : RunSnapshot} {reduction : RunReduction}
    (h : ∃ t, state.reduce reduction = .ok t) :
    Answer state (.reduce reduction) (state.apply (.reduce reduction)) := by
  obtain ⟨t, ht⟩ := h
  unfold RunSnapshot.apply
  simp only [ht]
  exact .returned t.after

theorem refuse_reduce {state : RunSnapshot} {reduction : RunReduction}
    (h : ∃ message, state.reduce reduction = .error (runViolation message)) :
    Answer state (.reduce reduction) (state.apply (.reduce reduction)) := by
  obtain ⟨message, hm⟩ := h
  unfold RunSnapshot.apply
  simp only [hm]
  exact .refused message

/-! ## One operation -/

section Operations

variable {state : RunSnapshot}

theorem runsReady_self (state : RunSnapshot) : RunsReady state.steps := by
  refine ⟨state.valid.one_running, fun step hstep id hid => ?_⟩
  exact (statusById_eq_some state.valid.ids_nodup).1 (state.valid.ready step hstep id hid)

variable {i : Nat} {step : TaskStep}

/-- The running step found is the only one. -/
theorem runningSteps_of_runningStep {p : TaskStep → Bool}
    (h : runningStep p state.steps = some (i, step)) (step' : TaskStep) :
    runningSteps (state.steps.set i step') = runningSteps [step'] := by
  obtain ⟨hget, hrun, -⟩ := mem_runningStep h
  exact runningSteps_set_running state.valid.one_running hget hrun step'

/-- Ending the running step leaves none. -/
theorem runningSteps_end {p : TaskStep → Bool} {step' : TaskStep}
    (h : runningStep p state.steps = some (i, step)) (hend : step'.status ≠ .running) :
    runningSteps (state.steps.set i step') = [] := by
  rw [runningSteps_of_runningStep h, runningSteps_eq_nil]
  intro s hs
  cases List.mem_singleton.1 hs
  exact hend

/-- Starting a ready step while none runs. -/
theorem runsReady_start {steps : List TaskStep} (hnd : (stepIds steps).Nodup)
    (hidle : runningSteps steps = []) (hget : steps[i]? = some step)
    (hopen : step.status.finished = false) (hready : Ready steps step) :
    RunsReady (steps.set i (start step)) := by
  have hnot : step.status ≠ .done := by
    intro h
    rw [h] at hopen
    cases hopen
  obtain ⟨hsingle, hall⟩ := ready_start hnd hidle hget hnot hready
  exact ⟨by rw [hsingle]; exact Nat.le_refl 1, hall⟩

theorem answer_modelDelta (hclear : StartsReady state (.reduce .modelDelta)) :
    ∃ t, state.reduce .modelDelta = .ok t := by
  simp only [RunSnapshot.reduce, onModelDelta]
  split
  · exact ⟨_, rfl⟩
  rename_i hbusy
  simp only [Bool.or_eq_true, not_or, Bool.not_eq_true] at hbusy
  split
  · exact ⟨_, rfl⟩
  rename_i index step hnext
  obtain ⟨hget, hopen⟩ := mem_nextIncomplete hnext
  split
  · exact ⟨_, rfl⟩
  rename_i hmodel
  split
  · exact ⟨_, rfl⟩
  rename_i hrun
  have hpending : step.status = .pending := by
    cases hs : step.status <;> simp_all [StepStatus.finished]
  obtain ⟨hidle, hready⟩ := hclear hbusy.2 (index, step) hnext (not_not.1 hmodel) hpending
  exact withStepChanges_live (restates_single hget (start_restates step) hopen) hbusy.1
    (runsReady_start state.valid.ids_nodup hidle hget hopen hready)

/-- The step after the running one, when that one has ended. -/
theorem handOver_returns {p : TaskStep → Bool} {j : Nat} {step' other : TaskStep}
    (hlive : state.terminal = false) (hfound : runningStep p state.steps = some (i, step))
    (hrestates : step.Restates step') (hfinished : step'.status.finished = true)
    (hnext : nextIncomplete (state.steps.set i step') = some (j, other))
    (hready : Ready (state.steps.set i step') other) :
    ∃ t, withStepChanges state [(i, step'), (j, start other)] = .ok t := by
  obtain ⟨hget, hrun, -⟩ := mem_runningStep hfound
  obtain ⟨hother, hopen⟩ := mem_nextIncomplete hnext
  have hend : step'.status ≠ .running := by
    intro h
    rw [h] at hfinished
    cases hfinished
  have hids : stepIds (state.steps.set i step') = stepIds state.steps :=
    stepIds_eq_of_restates (restates_single hget hrestates (open_of_running hrun))
  have hsound : SoundChanges false state.steps [(i, step'), (j, start other)] :=
    .handOver hget hrestates (open_of_running hrun) hfinished hother hopen
  exact withStepChanges_live hsound.restates hlive
    (runsReady_start (by rw [hids]; exact state.valid.ids_nodup) (runningSteps_end hfound hend)
      hother hopen hready)

/-- Tools are requested only while some step runs: the running tool step, or the running model
step before it. -/
theorem running_of_allowed {name : RequiredText}
    (h : name ∈ allowedToolNamesForCurrentTransition state) :
    (runningStep TaskStep.isModelStep state.steps).isSome = true ∨
      (runningStep TaskStep.isToolStep state.steps).isSome = true := by
  have hfound : ∀ {p : TaskStep → Bool} {i : Nat} {step : TaskStep},
      state.steps[i]? = some step → step.status = .running → p step = true →
      (runningStep p state.steps).isSome = true := by
    intro p i step hget hrun hp
    rw [Option.isSome_iff_ne_none, runningStep]
    intro hnone
    have := findFirst_eq_none.1 hnone step (List.mem_of_getElem? hget)
    simp [hrun, hp] at this
  unfold allowedToolNamesForCurrentTransition at h
  split at h
  · exact absurd h List.not_mem_nil
  split at h
  · exact absurd h List.not_mem_nil
  · rename_i index running hrunning
    obtain ⟨hget, hrun, -⟩ := mem_runningStep hrunning
    split at h
    · rename_i htool
      exact Or.inr (hfound hget hrun htool)
    split at h
    · exact absurd h List.not_mem_nil
    · rename_i hmodel
      exact Or.inl (hfound hget hrun (not_not.1 hmodel))

theorem answer_toolCallsStarted {toolNames : List String}
    (hclear : StartsReady state (.reduce (.toolCallsStarted toolNames))) :
    (∃ t, state.reduce (.toolCallsStarted toolNames) = .ok t) ∨
      ∃ message, state.reduce (.toolCallsStarted toolNames) = .error (runViolation message) := by
  cases hlive : state.terminal with
  | true => exact Or.inl ⟨_, reduce_terminal hlive _⟩
  | false =>
    simp only [RunSnapshot.reduce, onToolCallsStarted, hlive, Bool.false_eq_true, if_false]
    split
    · exact Or.inr ⟨_, rfl⟩
    rename_i hallowed
    obtain ⟨hne, hsub⟩ := not_or.1 hallowed
    obtain ⟨name, hname⟩ := List.exists_mem_of_ne_nil _ hne
    have hrunning := running_of_allowed (not_not.1 hsub name hname)
    split
    · exact Or.inr ⟨_, rfl⟩
    rename_i index step hfound
    obtain ⟨hget, hopen⟩ := mem_toolStep hfound
    obtain ⟨hconclude, -⟩ := soundChanges_toolCalls hget hopen
    split
    · exact Or.inr ⟨_, rfl⟩
    rename_i htool
    left
    cases hmodel : runningStep TaskStep.isModelStep state.steps with
    | some r =>
      -- the reasoning step ends, and the next step starts
      obtain ⟨hr, hrun, -⟩ := mem_runningStep hmodel
      have hchanges : concludeReasoning state.steps = [(r.1, conclude .done
          (.lit "Model reasoning completed before tool execution.") r.2)] := by
        rw [concludeReasoning, hmodel]
        rfl
      have hidle : runningSteps (afterReasoning state.steps) = [] := by
        rw [afterReasoning, hchanges]
        exact runningSteps_end hmodel StepStatus.noConfusion
      have hnone : runningStep TaskStep.isToolStep (afterReasoning state.steps) = none := by
        refine findFirst_eq_none.2 fun s hs => ?_
        simp [runningSteps_eq_nil.1 hidle s hs]
      rw [show setAll state.steps (concludeReasoning state.steps) =
        afterReasoning state.steps from rfl, hnone, Option.none_or] at hfound
      have hready := hclear ⟨hne, not_not.1 hsub⟩ (by rw [hmodel]; rfl) (index, step) hfound
        (not_not.1 htool)
      have hnotRunning : step.status ≠ .running :=
        runningSteps_eq_nil.1 hidle step (List.mem_of_getElem? hget)
      rw [if_neg hnotRunning, hchanges]
      rw [afterReasoning, hchanges] at hready hfound
      exact handOver_returns hlive hmodel (conclude_restates _ _ _) rfl hfound hready
    | none =>
      -- a tool step runs already
      have hchanges : concludeReasoning state.steps = [] := by
        rw [concludeReasoning, hmodel]
        rfl
      rw [hmodel] at hrunning
      obtain ⟨r, hr⟩ := Option.isSome_iff_exists.1 (hrunning.resolve_left Bool.false_ne_true)
      rw [hchanges, setAll_nil, hr, Option.some_or] at hfound
      cases hfound
      obtain ⟨-, hrun, -⟩ := mem_runningStep hr
      rw [if_pos hrun, hchanges]
      exact withStepChanges_live (List.forall₂_same.2 fun step _ => .refl step) hlive (runsReady_self state)

theorem answer_toolRoundCompleted {outcome : ToolBatchOutcome}
    (hclear : StartsReady state (.reduce (.toolRoundCompleted outcome))) :
    (∃ t, state.reduce (.toolRoundCompleted outcome) = .ok t) ∨
      ∃ message, state.reduce (.toolRoundCompleted outcome) = .error (runViolation message) := by
  cases hlive : state.terminal with
  | true => exact Or.inl ⟨_, reduce_terminal hlive _⟩
  | false =>
    simp only [RunSnapshot.reduce, onToolRoundCompleted, hlive, Bool.false_eq_true, if_false]
    split
    · exact Or.inr ⟨_, rfl⟩
    rename_i houtcome
    left
    split
    · exact ⟨_, rfl⟩
    rename_i index step hfound
    obtain ⟨hget, hrun, -⟩ := mem_runningStep hfound
    have hnot := open_of_running hrun
    split
    · exact withStepChanges_idle (restates_single hget (decline_restates step) hnot)
        (runningSteps_end hfound StepStatus.noConfusion)
    split
    · exact ⟨_, rfl⟩
    rename_i hdeclined hprogressed
    have hcompleted : outcome = .completed := by
      rcases not_not.1 houtcome with h | h | h
      · exact absurd h hprogressed
      · exact h
      · exact absurd h hdeclined
    subst hcompleted
    have hend : ∃ t, withStepChanges state
        [(index, conclude .done (.lit "Planned tool step completed.") step)] = .ok t :=
      withStepChanges_idle (restates_single hget (conclude_restates _ _ _) hnot)
        (runningSteps_end hfound StepStatus.noConfusion)
    split
    · exact hend
    rename_i next step' hnext
    split
    · exact hend
    rename_i hconfirm
    exact handOver_returns hlive hfound (conclude_restates _ _ _) rfl hnext
      (hclear (index, step) hfound (next, step') hnext hconfirm)

theorem answer_toolRoundFailed (error : String) :
    (∃ t, state.reduce (.toolRoundFailed error) = .ok t) ∨
      ∃ message, state.reduce (.toolRoundFailed error) = .error (runViolation message) := by
  cases hlive : state.terminal with
  | true => exact Or.inl ⟨_, reduce_terminal hlive _⟩
  | false =>
    simp only [RunSnapshot.reduce, onToolRoundFailed, hlive, Bool.false_eq_true, if_false]
    split
    · exact Or.inr ⟨_, rfl⟩
    rename_i index step hfound
    obtain ⟨hget, hrun, -⟩ := mem_runningStep hfound
    exact Or.inl (withStepChanges_idle (restates_single hget (by exact rfl) (open_of_running hrun))
      (runningSteps_end hfound StepStatus.noConfusion))

theorem ends_returns {f : TaskStep → Option TaskStep} {status : Option RunStatus}
    {response : Option String} {error : Option RequiredText} (h : Ends f) :
    ∃ t, withStepChanges state (positions f state.steps) status response error = .ok t :=
  withStepChanges_idle (h.sound _).restates (h.runningSteps _)

theorem answer_complete (finalResponse : String) :
    ∃ t, state.reduce (.complete finalResponse) = .ok t := by
  cases hlive : state.terminal with
  | true => exact ⟨_, reduce_terminal hlive _⟩
  | false =>
    simp only [RunSnapshot.reduce, complete, hlive, Bool.false_eq_true, if_false]
    exact ends_returns (ends_coverStep _)

theorem answer_fail (error : String) :
    (∃ t, state.reduce (.fail error) = .ok t) ∨
      ∃ message, state.reduce (.fail error) = .error (runViolation message) := by
  cases hlive : state.terminal with
  | true => exact Or.inl ⟨_, reduce_terminal hlive _⟩
  | false =>
    simp only [RunSnapshot.reduce, fail, hlive, Bool.false_eq_true, if_false]
    split
    · exact Or.inr ⟨_, rfl⟩
    · exact Or.inl (ends_returns (ends_failStep _))

theorem answer_cancel (reason : String) : ∃ t, state.reduce (.cancel reason) = .ok t := by
  cases hlive : state.terminal with
  | true => exact ⟨_, reduce_terminal hlive _⟩
  | false =>
    simp only [RunSnapshot.reduce, cancel, hlive, Bool.false_eq_true, if_false]
    exact ends_returns ends_cancelStep

/-- Fulfilling all planned steps leaves none of them running. -/
theorem runningSteps_fulfil {coveredStepIds : List String}
    (hcovered : ∀ id ∈ (stepIds state.steps).map (·.text), id ∈ coveredStepIds) :
    runningSteps (setAll state.steps (positions (fulfilStep coveredStepIds) state.steps)) = [] := by
  rw [setAll_positions, runningSteps_eq_nil]
  intro step hstep
  obtain ⟨original, horiginal, rfl⟩ := List.mem_map.1 hstep
  have hmem : original.id.text ∈ coveredStepIds :=
    hcovered _ (List.mem_map_of_mem (List.mem_map_of_mem horiginal))
  unfold fulfilStep
  split
  · exact StepStatus.noConfusion
  · rename_i h
    intro hrun
    exact h ⟨hmem, not_done_of_open (open_of_running hrun)⟩

theorem fulfil_returns {coveredStepIds : List String} {status : Option RunStatus}
    {response : Option String}
    (hcovered : ∀ id ∈ (stepIds state.steps).map (·.text), id ∈ coveredStepIds) :
    ∃ t, withStepChanges state (positions (fulfilStep coveredStepIds) state.steps) status
      response none = .ok t :=
  withStepChanges_idle (fulfilStep_sound coveredStepIds state.steps).restates
    (runningSteps_fulfil hcovered)

theorem answer_completeDurable (finalResponse : String) (coveredStepIds : List String) :
    Answer state (.reduce (.completeDurable finalResponse coveredStepIds))
      (state.apply (.reduce (.completeDurable finalResponse coveredStepIds))) := by
  cases hlive : state.terminal with
  | true => exact answer_reduce ⟨_, reduce_terminal hlive _⟩
  | false =>
    rcases fulfil_cases state coveredStepIds with ⟨hcovered, -, hok⟩ | ⟨huncovered, hraise⟩
    · refine answer_reduce ?_
      simp only [RunSnapshot.reduce, completeDurableExecution, hlive, Bool.false_eq_true,
        if_false, hok]
      exact fulfil_returns hcovered
    · simp only [RunSnapshot.apply, RunSnapshot.reduce, completeDurableExecution, hlive,
        Bool.false_eq_true, if_false, hraise]
      exact .uncovered huncovered _

theorem answer_finishDurable (coveredStepIds : List String) :
    Answer state (.reduce (.finishDurable coveredStepIds))
      (state.apply (.reduce (.finishDurable coveredStepIds))) := by
  cases hlive : state.terminal with
  | true => exact answer_reduce ⟨_, reduce_terminal hlive _⟩
  | false =>
    rcases fulfil_cases state coveredStepIds with ⟨hcovered, -, hok⟩ | ⟨huncovered, hraise⟩
    · refine answer_reduce ?_
      simp only [RunSnapshot.reduce, finishDurableExecution, hlive, Bool.false_eq_true,
        if_false, hok]
      exact fulfil_returns hcovered
    · simp only [RunSnapshot.apply, RunSnapshot.reduce, finishDurableExecution, hlive,
        Bool.false_eq_true, if_false, hraise]
      exact .uncoveredFinish huncovered _

theorem answer_syncDurable {statuses : Dict String StepStatus}
    (hclear : StartsReady state (.reduce (.syncDurable statuses))) :
    (∃ t, state.reduce (.syncDurable statuses) = .ok t) ∨
      ∃ message, state.reduce (.syncDurable statuses) = .error (runViolation message) := by
  cases hlive : state.terminal with
  | true => exact Or.inl ⟨_, reduce_terminal hlive _⟩
  | false =>
    simp only [RunSnapshot.reduce, syncDurableExecution, hlive, Bool.false_eq_true, if_false]
    split
    · exact Or.inr ⟨_, rfl⟩
    · rename_i hknown
      left
      refine withStepChanges_live (soundChanges_sync state statuses).restates hlive ?_
      rw [setAll_eq_map fun i step' => mem_syncChanges]
      refine hclear fun id hid => ?_
      have := List.filter_eq_nil_iff.1 (not_not.1 hknown) id hid
      simpa using this

/-! ## The revision -/

/-- Steps with one id among them are one step. -/
theorem length_le_one_of_id {steps : List TaskStep} (hnd : (stepIds steps).Nodup)
    (h : ∀ a ∈ steps, ∀ b ∈ steps, a.id = b.id) : steps.length ≤ 1 := by
  match steps with
  | [] => exact Nat.zero_le 1
  | [_] => exact Nat.le_refl 1
  | a :: b :: _ =>
    have hid := h a (by simp) b (by simp)
    simp [stepIds, hid] at hnd

theorem currentFuture_eq_some {id : RequiredText} {running : TaskStep}
    (h : currentFuture state id = some running) :
    running ∈ runningSteps state.steps ∧ running.id = id :=
  ⟨List.mem_of_find?_eq_some h, by simpa using List.find?_some h⟩

/-- The running step continues in the new plan, or the first one of its future starts: one step at
most runs. -/
theorem runningSteps_restored (plan : ExecutionPlan) :
    (runningSteps (restoredFuture state plan)).length ≤ 1 := by
  cases hpreserve : preservesRunningStep state plan with
  | true =>
    -- whatever runs continues the running step
    have hid : ∀ step ∈ runningSteps (restoredFuture state plan),
        ∃ running ∈ runningSteps state.steps, running.id = step.id := by
      intro step hstep
      obtain ⟨hmem, hrun⟩ := mem_runningSteps.1 hstep
      obtain ⟨opened, -, rfl⟩ := List.mem_map.1 hmem
      simp only [continueStep, hpreserve, if_true] at hrun
      cases hcurrent : currentFuture state opened.id with
      | none =>
        rw [hcurrent] at hrun
        cases hrun
      | some running =>
        obtain ⟨hrunning, heq⟩ := currentFuture_eq_some hcurrent
        exact ⟨running, hrunning, heq⟩
    refine length_le_one_of_id ?_ fun a ha b hb => ?_
    · have hnd : (stepIds (restoredFuture state plan)).Nodup := by
        rw [stepIds_restored]
        exact future_nodup state plan
      exact (List.Sublist.map _ List.filter_sublist).nodup hnd
    · obtain ⟨r, hr, hra⟩ := hid a ha
      obtain ⟨r', hr', hrb⟩ := hid b hb
      rw [← hra, ← hrb, eq_of_length_le_one state.valid.one_running hr hr']
  | false =>
    have hnone : ∀ step ∈ startFirst ((openFuture state plan).map initialStep),
        currentFuture state step.id = none := by
      intro step hstep
      have hid : step.id ∈ stepIds (future state plan) := by
        rw [← stepIds_startFuture]
        exact List.mem_map_of_mem hstep
      obtain ⟨planned, hplanned, hpid⟩ := List.mem_map.1 hid
      have := List.any_eq_false.1 hpreserve planned hplanned
      rw [← hpid]
      simpa using this
    have hmap : runningSteps (restoredFuture state plan) =
        (runningSteps (startFirst ((openFuture state plan).map initialStep))).map fun step =>
          continueStep state plan
            (((future state plan).find? fun original => original.id = step.id).getD step) step := by
      rw [restoredFuture, runningSteps, List.filter_map, runningSteps]
      congr 1
      refine List.filter_congr fun step hstep => ?_
      simp only [Function.comp_apply, continueStep, hnone step hstep, hpreserve,
        Bool.false_eq_true, if_false]
    rw [hmap, List.length_map]
    exact runningSteps_startFirst (runningSteps_initial _)

/-- The finished steps do not run. -/
theorem runningSteps_history (state : RunSnapshot) : runningSteps (history state) = [] := by
  rw [runningSteps_eq_nil]
  intro step hstep hrun
  have hfinished := (List.mem_filter.1 hstep).2
  rw [hrun] at hfinished
  cases hfinished

theorem revisedFields_valid {plan : ExecutionPlan} (hlive : state.terminal = false)
    (hready : ∀ step ∈ runningSteps (restoredFuture state plan),
      Ready (history state ++ restoredFuture state plan) step) : (revisedFields state plan).Valid := by
  have hids : stepIds (revisedFields state plan).steps =
      stepIds (history state) ++ stepIds (future state plan) := by
    rw [← stepIds_restored]
    exact List.map_append
  have hrunning : runningSteps (revisedFields state plan).steps =
      runningSteps (restoredFuture state plan) := by
    show runningSteps (history state ++ restoredFuture state plan) = _
    rw [runningSteps, List.filter_append]
    show runningSteps (history state) ++ _ = _
    rw [runningSteps_history]
    rfl
  refine .of_done ?_ ?_ ?_ ?_ ?_
  · rw [hids]
    refine List.nodup_append.2 ⟨?_, future_nodup state plan, ?_⟩
    · exact (List.Sublist.map _ List.filter_sublist).nodup state.valid.ids_nodup
    · rintro id hid _ hfuture rfl
      obtain ⟨step, hstep, rfl⟩ := List.mem_map.1 hfuture
      exact future_fresh state plan step hstep hid
  · rw [hrunning]
    exact runningSteps_restored plan
  · intro step hstep
    rw [hrunning] at hstep
    exact hready step hstep
  · intro hterminal
    rw [show (revisedFields state plan).status.terminal = false from hlive] at hterminal
    cases hterminal
  · intro id hid
    rw [hids, List.mem_append]
    rcases List.mem_append.1 (Dict.mem_fromKeys.1 hid) with hold | hnew
    · exact Or.inl (of_decide_eq_true (List.mem_filter.1 hold).2)
    · obtain ⟨step, hstep, rfl⟩ := List.mem_map.1 (plan.work_known id hnew)
      rcases planned_mem state plan hstep with h | h
      · exact Or.inl h
      · exact Or.inr (List.mem_map_of_mem h)

theorem answer_revisePlan {plan : ExecutionPlan}
    (hclear : StartsReady state (.revisePlan plan)) :
    Answer state (.revisePlan plan) (state.apply (.revisePlan plan)) := by
  unfold RunSnapshot.apply
  rcases revisePlan_cases state plan with ⟨message, hraise⟩ | ⟨hlive, hcontract, hof⟩
  · simp only [hraise]
    exact .refused message
  · have hok : RunSnapshot.of (revisedFields state plan) =
        .ok ⟨_, revisedFields_valid hlive (hclear hcontract)⟩ := RunSnapshot.of_eq_ok.2 rfl
    simp only [hof, hok]
    exact .returned _

theorem answer_or {reduction : RunReduction}
    (h : (∃ t, state.reduce reduction = .ok t) ∨
      ∃ message, state.reduce reduction = .error (runViolation message)) :
    Answer state (.reduce reduction) (state.apply (.reduce reduction)) := by
  rcases h with h | h
  · exact answer_reduce h
  · exact refuse_reduce h

theorem answer_live {op : RunOperation} (hclear : StartsReady state op) :
    Answer state op (state.apply op) := by
  cases op with
  | revisePlan plan => exact answer_revisePlan hclear
  | reduce reduction =>
    cases reduction with
    | modelDelta => exact answer_reduce (answer_modelDelta hclear)
    | toolCallsStarted toolNames => exact answer_or (answer_toolCallsStarted hclear)
    | toolRoundCompleted outcome => exact answer_or (answer_toolRoundCompleted hclear)
    | toolRoundFailed error => exact answer_or (answer_toolRoundFailed error)
    | complete finalResponse => exact answer_reduce (answer_complete finalResponse)
    | completeDurable finalResponse coveredStepIds =>
      exact answer_completeDurable finalResponse coveredStepIds
    | finishDurable coveredStepIds => exact answer_finishDurable coveredStepIds
    | syncDurable statuses => exact answer_or (answer_syncDurable hclear)
    | fail error => exact answer_or (answer_fail error)
    | cancel reason => exact answer_reduce (answer_cancel reason)

/-- **An operation that starts no step too early** returns a valid snapshot or refuses. -/
theorem answer_apply {op : RunOperation} (hclear : state.terminal = false → StartsReady state op) :
    Answer state op (state.apply op) := by
  cases hterminal : state.terminal with
  | false => exact answer_live (hclear hterminal)
  | true =>
    cases op with
    | reduce reduction => exact answer_reduce ⟨_, reduce_terminal hterminal reduction⟩
    | revisePlan plan =>
      unfold RunSnapshot.apply
      rcases revisePlan_cases state plan with ⟨message, hraise⟩ | ⟨hlive, -⟩
      · simp only [hraise]
        exact .refused message
      · rw [hterminal] at hlive
        cases hlive

end Operations

/-! ## Every run -/

/-- An operation on a live Run starts no step too early. -/
def StartsReadySteps (state : RunSnapshot) (op : RunOperation) : Prop :=
  state.terminal = false → StartsReady state op

instance (state : RunSnapshot) (op : RunOperation) : Decidable (StartsReadySteps state op) :=
  inferInstanceAs (Decidable (_ → _))

/-- Every run opens or is refused, and in every run from there each operation that starts no step
too early returns a valid snapshot or refuses. -/
theorem run_state_closed (runId : RequiredText) (plan : Option ExecutionPlan)
    (title : RequiredText) :
    (∃ message, initializeRun runId plan title = .error (runViolation message)) ∨
      ∃ start, initializeRun runId plan title = .ok start ∧
        ∀ ops op, StartsReadySteps (exec RunSnapshot.next start ops) op →
          Answer (exec RunSnapshot.next start ops) op
            ((exec RunSnapshot.next start ops).apply op) := by
  cases plan with
  | none =>
    have hvalid : SnapshotFields.Valid
        { runId, title, goal := none, status := .running, steps := [],
          workStepIds := publicStepIds [] } :=
      .of_done List.nodup_nil (Nat.zero_le 1) (fun step hstep => absurd hstep List.not_mem_nil)
        (fun h => by cases h) publicStepIds_subset
    exact Or.inr ⟨⟨_, hvalid⟩, RunSnapshot.of_eq_ok.2 rfl, fun ops op => answer_apply⟩
  | some plan =>
    rcases initializeRun_cases runId plan title with ⟨start, hstart, -⟩ | hraise
    · exact Or.inr ⟨start, hstart, fun ops op => answer_apply⟩
    · exact Or.inl hraise

namespace RunSample

/-- The model calls the tool, and the user declines. -/
def declined : List RunOperation :=
  [.reduce (.toolCallsStarted ["search"]), .reduce (.toolRoundCompleted .declined)]

end RunSample

/-- A Run whose next answer is refused by the snapshot's constructor can still be failed. -/
theorem run_state_closed_report : ∃ start,
    initializeRun (.lit "run" RunSample.run_text) (some RunSample.gatherThenDraft) = .ok start ∧
      Answer (exec RunSnapshot.next start (RunSample.declined ++ [.reduce .modelDelta]))
        (.reduce (.fail "stuck"))
        ((exec RunSnapshot.next start (RunSample.declined ++ [.reduce .modelDelta])).apply
          (.reduce (.fail "stuck"))) := by
  rcases run_state_closed (.lit "run" RunSample.run_text) (some RunSample.gatherThenDraft)
    defaultTitle with ⟨message, hraise⟩ | ⟨start, hstart, hrun⟩
  · rw [RunSample.initializeRun_gatherThenDraft] at hraise
    cases hraise
  · exact ⟨start, hstart, hrun _ _ fun _ => trivial⟩

/-- After the user declined, the answer the model starts to give is refused by the snapshot's
constructor: its step depends on the declined one.  And a durable execution that covers no step
cannot be finished. -/
theorem declined_run_stuck :
    initializeRun (.lit "run" RunSample.run_text) (some RunSample.gatherThenDraft) = .ok RunSample.gathering ∧
      (exec RunSnapshot.next RunSample.gathering RunSample.declined).apply (.reduce .modelDelta) =
        .error (.valueError "a running step requires all Planner dependencies to be done") ∧
      RunSample.gathering.apply (.reduce (.finishDurable [])) =
        .error (.runtimeError "durable completion must match the admitted plan steps") :=
  ⟨RunSample.initializeRun_gatherThenDraft, by decide +kernel, by decide +kernel⟩

end Purra
