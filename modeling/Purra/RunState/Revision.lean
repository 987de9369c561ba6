import Purra.RunState.Moves

/-!
# What a revision does

`initialize` and `revise_plan` build a step list instead of changing one.

* `initializeRun_cases` — opening a Run with a plan returns a snapshot or raises
  `ContractViolationError`: the first step that is not done depends only on steps before
  it, and these are done.
* `uniqueStepId_fresh` — the id made up for the final answer is unused.
* `revisePlan_cases` — a revision raises `ContractViolationError`, or builds a snapshot of
  the finished steps and the restored future; `stepRows_restored` says that the restored
  future has the ids and the dependencies the new plan gave it.
-/

namespace Purra

open RunStateMachine

/-! ## Opening a Run -/

theorem initialStep_restates (step : TaskStep) : step.Restates (initialStep step) := rfl

theorem initialSteps_restates (steps : List TaskStep) :
    List.Forall₂ TaskStep.Restates steps (steps.map initialStep) := by
  rw [List.forall₂_map_right_iff, List.forall₂_same]
  exact fun step _ => initialStep_restates step

theorem startFirst_restates (steps : List TaskStep) :
    List.Forall₂ TaskStep.Restates steps (startFirst steps) := by
  unfold startFirst
  split
  · exact List.forall₂_same.2 fun step _ => .refl step
  · rename_i i step hfirst
    have hget := (findFirst_eq_some.1 hfirst).1
    refine @forall₂_setAll _ _ TaskStep.Restates.refl _ [(i, start step)] ?_
    intro j a hmem b hb
    cases List.mem_singleton.1 hmem
    rw [hget] at hb
    cases hb
    exact start_restates step

variable {steps : List TaskStep}

/-- A step that has only done steps before it may start. -/
theorem isDone_start (hnd : (stepIds steps).Nodup) {i : Nat}
    {step : TaskStep} (hget : steps[i]? = some step) (hnot : step.status ≠ .done)
    {id : RequiredText} (h : IsDone steps id) : IsDone (steps.set i (start step)) id := by
  refine (isDone_set hnd hget (show (start step).id = step.id from rfl)).2 (Or.inr ⟨?_, h⟩)
  rintro rfl
  obtain ⟨other, hother, hid, hdone⟩ := h
  rw [eq_of_id_eq hnd hother (List.mem_of_getElem? hget) hid] at hdone
  exact hnot hdone

theorem runningSteps_start (step : TaskStep) : runningSteps [start step] = [start step] := rfl

/-- One step is started while none runs: the snapshot is valid when the step is ready. -/
theorem ready_start (hnd : (stepIds steps).Nodup)
    (hidle : runningSteps steps = []) {i : Nat} {step : TaskStep} (hget : steps[i]? = some step)
    (hnot : step.status ≠ .done) (hready : ∀ id ∈ step.dependsOn, IsDone steps id) :
    runningSteps (steps.set i (start step)) = [start step] ∧
      ∀ running ∈ runningSteps (steps.set i (start step)), ∀ id ∈ running.dependsOn,
        IsDone (steps.set i (start step)) id := by
  have hsingle : runningSteps (steps.set i (start step)) = [start step] := by
    rw [runningSteps_set_idle hidle (List.getElem?_eq_some_iff.1 hget).1, runningSteps_start]
  refine ⟨hsingle, fun running hrunning id hid => ?_⟩
  rw [hsingle, List.mem_singleton] at hrunning
  subst hrunning
  exact isDone_start hnd hget hnot (hready id hid)

/-- `SnapshotFields.Valid`, its dependency rule said about done steps. -/
theorem SnapshotFields.Valid.of_done {fields : SnapshotFields}
    (hids : (stepIds fields.steps).Nodup) (hone : (runningSteps fields.steps).length ≤ 1)
    (hready : ∀ step ∈ runningSteps fields.steps, ∀ id ∈ step.dependsOn, IsDone fields.steps id)
    (hsettled : fields.status.terminal = true → runningSteps fields.steps = [])
    (hwork : ∀ id ∈ fields.workStepIds, id ∈ stepIds fields.steps) : fields.Valid where
  ids_nodup := hids
  one_running := hone
  ready := fun step hstep id hid => (statusById_eq_some hids).2 (hready step hstep id hid)
  settled := hsettled
  work_known := hwork

theorem validateStepExecutionContract_cases (step : TaskStep) :
    validateStepExecutionContract step = .ok () ∧ step.type ≠ .confirm ∨
      ∃ message, validateStepExecutionContract step = .error (runViolation message) := by
  unfold validateStepExecutionContract
  split
  · exact Or.inr ⟨_, rfl⟩
  split
  · exact Or.inr ⟨_, rfl⟩
  split
  · exact Or.inr ⟨_, rfl⟩
  split
  · exact Or.inr ⟨_, rfl⟩
  · rename_i hconfirm _ _ _
    exact Or.inl ⟨rfl, hconfirm⟩

theorem initialStep_status (step : TaskStep) :
    (initialStep step).status = .done ∨ (initialStep step).status = .pending := by
  unfold initialStep
  by_cases h : step.status = .done
  · exact Or.inl (if_pos h)
  · exact Or.inr (if_neg h)

theorem runningSteps_initial (steps : List TaskStep) :
    runningSteps (steps.map initialStep) = [] := by
  rw [runningSteps_eq_nil]
  intro step hstep hrun
  obtain ⟨original, -, rfl⟩ := List.mem_map.1 hstep
  rcases initialStep_status original with h | h <;> rw [h] at hrun <;> cases hrun

theorem runningSteps_startFirst (hidle : runningSteps steps = []) :
    (runningSteps (startFirst steps)).length ≤ 1 := by
  unfold startFirst
  split
  · rw [hidle]
    exact Nat.zero_le 1
  · rename_i i step hfirst
    have hi := (List.getElem?_eq_some_iff.1 (findFirst_eq_some.1 hfirst).1).1
    rw [runningSteps_set_idle hidle hi, runningSteps_start]
    exact Nat.le_refl 1

/-- The first step that is not done is ready: what it depends on stands before it. -/
theorem startFirst_ready (hnd : (stepIds steps).Nodup)
    (horder : InOrder [] (stepRows steps)) (hidle : runningSteps steps = [])
    (hconfirm : ∀ step ∈ steps, step.type ≠ .confirm) :
    ∀ step ∈ runningSteps (startFirst steps), ∀ id ∈ step.dependsOn,
      IsDone (startFirst steps) id := by
  unfold startFirst
  split
  · rw [hidle]
    exact fun step hstep => absurd hstep List.not_mem_nil
  · rename_i i step hfirst
    obtain ⟨hget, hp, hbefore⟩ := findFirst_eq_some.1 hfirst
    rw [Bool.and_eq_true, decide_eq_true_eq] at hp
    refine (ready_start hnd hidle hget hp.1 fun id hid => ?_).2
    · -- the rows above the first open step are done
      have hrow : (stepRows steps)[i]? = some (step.id, step.dependsOn) := by
        simp [stepRows, hget]
      rcases horder.earlier hrow id hid with hnone | ⟨j, hj, row, hrow', rfl⟩
      · exact absurd hnone List.not_mem_nil
      · simp only [stepRows, List.getElem?_map, Option.map_eq_some_iff] at hrow'
        obtain ⟨earlier, hearlier, rfl⟩ := hrow'
        have hmem := List.mem_of_getElem? hearlier
        refine ⟨earlier, hmem, rfl, ?_⟩
        have hnot := hbefore j earlier hj hearlier
        by_contra hopen
        simp [hopen, hconfirm earlier hmem] at hnot

/-- **Opening a Run** returns a snapshot or raises `ContractViolationError`. -/
theorem initializeRun_cases (runId : RequiredText) (plan : ExecutionPlan) (title : RequiredText) :
    (∃ state, initializeRun runId (some plan) title = .ok state ∧
        state.steps = startFirst (plan.steps.map initialStep) ∧
        ∀ step ∈ plan.steps.map initialStep, validateStepExecutionContract step = .ok ()) ∨
      ∃ message, initializeRun runId (some plan) title = .error (runViolation message) := by
  have hopen := initialSteps_restates plan.steps
  have hstart := startFirst_restates (plan.steps.map initialStep)
  have hids : stepIds (startFirst (plan.steps.map initialStep)) = stepIds plan.steps :=
    (stepIds_eq_of_restates hstart).trans (stepIds_eq_of_restates hopen)
  rcases forM_cases validateStepExecutionContract (plan.steps.map initialStep) with
    ⟨hok, hall⟩ | ⟨step, -, e, he, hraise⟩
  · have hconfirm : ∀ step ∈ plan.steps.map initialStep, step.type ≠ .confirm := by
      intro step hstep
      rcases validateStepExecutionContract_cases step with ⟨-, h⟩ | ⟨message, h⟩
      · exact h
      · rw [hall step hstep] at h
        cases h
    have hready := startFirst_ready
      (by rw [stepIds_eq_of_restates hopen]; exact plan.ids_nodup)
      (by rw [stepRows_eq_of_restates hopen]; exact plan.inOrder)
      (runningSteps_initial plan.steps) hconfirm
    have hvalid : SnapshotFields.Valid
        { runId, title := plan.title, goal := plan.goal, status := .running,
          steps := startFirst (plan.steps.map initialStep), workStepIds := plan.workStepIds } :=
      .of_done (by rw [hids]; exact plan.ids_nodup)
        (runningSteps_startFirst (runningSteps_initial plan.steps)) hready (fun h => by cases h)
        (by rw [hids]; exact plan.work_known)
    refine Or.inl ⟨⟨_, hvalid⟩, ?_, rfl, hall⟩
    unfold initializeRun
    simp only
    rw [hok]
    exact RunSnapshot.of_eq_ok.2 rfl
  · right
    rcases validateStepExecutionContract_cases step with ⟨h, -⟩ | ⟨message, h⟩
    · rw [h] at he
      cases he
    · rw [h] at he
      cases he
      refine ⟨message, ?_⟩
      unfold initializeRun
      simp only
      rw [hraise]
      rfl

/-! ## The planned future -/

theorem freeSuffix_mem {base : RequiredText} {used : List RequiredText} :
    ∀ {fuel suffix : Nat}, freeSuffix base used fuel suffix ∈ used →
      ∀ k ≤ fuel, suffixed base (suffix + k) ∈ used := by
  intro fuel
  induction fuel with
  | zero =>
    intro suffix h k hk
    cases Nat.le_zero.1 hk
    exact h
  | succ fuel ih =>
    intro suffix h k hk
    rw [freeSuffix] at h
    split at h
    · rename_i hused
      cases k with
      | zero => exact hused
      | succ k =>
        have := ih h k (by omega)
        rwa [show suffix + 1 + k = suffix + (k + 1) by omega] at this
    · exact absurd h (by assumption)

/-- The id made up by `_unique_step_id` is not used: there are more suffixes than used ids. -/
theorem uniqueStepId_fresh (base : RequiredText) (used : List RequiredText) :
    uniqueStepId base used ∉ used := by
  unfold uniqueStepId
  split
  · assumption
  · intro hmem
    have hall := freeSuffix_mem hmem
    have hnodup : ((List.range (used.length + 1)).map fun k => suffixed base (2 + k)).Nodup := by
      refine (List.nodup_map_iff_inj_on List.nodup_range).2 fun i _ j _ h => ?_
      have := RequiredText.numbered_inj.1 h
      omega
    have hsub : ((List.range (used.length + 1)).map fun k => suffixed base (2 + k)) ⊆ used := by
      intro id hid
      obtain ⟨k, hk, rfl⟩ := List.mem_map.1 hid
      exact hall k (by rw [List.mem_range] at hk; omega)
    have := (List.subperm_of_subset hnodup hsub).length_le
    rw [List.length_map, List.length_range] at this
    omega

section Future

variable (state : RunSnapshot) (plan : ExecutionPlan)

theorem future_cases :
    future state plan = [respondStep (stepIds (history state))] ∨
      future state plan = plan.steps.filter (fun step => step.id ∉ stepIds (history state)) ∧
        future state plan ≠ [] := by
  unfold future
  simp only
  split
  · exact Or.inl rfl
  · rename_i h
    exact Or.inr ⟨rfl, h⟩

theorem future_ne_nil : future state plan ≠ [] := by
  rcases future_cases state plan with h | ⟨-, h⟩
  · rw [h]
    exact List.cons_ne_nil _ _
  · exact h

theorem future_fresh : ∀ step ∈ future state plan, step.id ∉ stepIds (history state) := by
  intro step hstep
  rcases future_cases state plan with h | ⟨h, -⟩
  · rw [h, List.mem_singleton] at hstep
    subst hstep
    exact uniqueStepId_fresh _ _
  · rw [h, List.mem_filter] at hstep
    simpa using hstep.2

/-- A planned step is finished already or still to be done. -/
theorem planned_mem {step : TaskStep} (hstep : step ∈ plan.steps) :
    step.id ∈ stepIds (history state) ∨ step ∈ future state plan := by
  by_cases hmem : step.id ∈ stepIds (history state)
  · exact Or.inl hmem
  · right
    have hfilter : step ∈ plan.steps.filter fun step => step.id ∉ stepIds (history state) :=
      List.mem_filter.2 ⟨hstep, decide_eq_true hmem⟩
    unfold future
    simp only
    rw [if_neg (List.ne_nil_of_mem hfilter)]
    exact hfilter

theorem future_nodup : (stepIds (future state plan)).Nodup := by
  rcases future_cases state plan with h | ⟨h, -⟩
  · rw [h]
    exact List.nodup_singleton _
  · rw [h]
    exact (List.Sublist.map _ List.filter_sublist).nodup plan.ids_nodup

theorem future_inOrder :
    InOrder (stepIds (history state)) (stepRows (future state plan)) := by
  rcases future_cases state plan with h | ⟨h, -⟩
  · rw [h]
    exact ⟨fun b hb => absurd hb List.not_mem_nil, trivial⟩
  · have hrows : stepRows (future state plan) = (stepRows plan.steps).filter fun row =>
        !decide (row.1 ∈ stepIds (history state)) := by
      rw [h, stepRows, stepRows, List.filter_map]
      congr 1
      apply List.filter_congr
      intro step _
      simp
    rw [hrows]
    exact plan.inOrder.without (fun id => decide (id ∈ stepIds (history state)))
      (fun a ha => absurd ha List.not_mem_nil) fun row _ hout => of_decide_eq_true hout

/-- The steps the revision opens its future with: their dependencies on history are met. -/
def openFuture : List TaskStep :=
  (future state plan).map (TaskStep.keepDependencies (· ∉ stepIds (history state)))

theorem stepIds_openFuture : stepIds (openFuture state plan) = stepIds (future state plan) := by
  simp [stepIds, openFuture, TaskStep.keepDependencies]

theorem openFuture_inOrder : InOrder [] (stepRows (openFuture state plan)) := by
  have hrows : stepRows (openFuture state plan) = (stepRows (future state plan)).map fun row =>
      (row.1, row.2.filter fun id => decide (id ∉ stepIds (history state))) := by
    simp [stepRows, openFuture, TaskStep.keepDependencies]
  rw [hrows]
  exact (future_inOrder state plan).restrict
    (fun id => decide (id ∉ stepIds (history state))) fun a ha hkeep =>
      absurd ha (of_decide_eq_true hkeep)

/-- The future as the revision writes it back. -/
def restoredFuture : List TaskStep :=
  (startFirst ((openFuture state plan).map initialStep)).map fun step =>
    continueStep state plan
      (((future state plan).find? fun original => original.id = step.id).getD step) step

theorem continueStep_id (original step : TaskStep) :
    (continueStep state plan original step).id = step.id := rfl

theorem continueStep_dependsOn (original step : TaskStep) :
    (continueStep state plan original step).dependsOn = original.dependsOn := rfl

/-- The planned step with an id of the future. -/
theorem find_future {id : RequiredText} (h : id ∈ stepIds (future state plan)) :
    ∃ original ∈ future state plan, original.id = id ∧
      ((future state plan).find? fun original => original.id = id) = some original := by
  obtain ⟨step, hstep, rfl⟩ := List.mem_map.1 h
  cases hfind : (future state plan).find? fun original => original.id = step.id with
  | none =>
    have := List.find?_eq_none.1 hfind step hstep
    simp at this
  | some original =>
    exact ⟨original, List.mem_of_find?_eq_some hfind, by simpa using List.find?_some hfind, rfl⟩

theorem stepIds_startFuture :
    stepIds (startFirst ((openFuture state plan).map initialStep)) =
      stepIds (future state plan) :=
  ((stepIds_eq_of_restates (startFirst_restates _)).trans
    (stepIds_eq_of_restates (initialSteps_restates _))).trans (stepIds_openFuture state plan)

/-- The restored future has the planned ids and dependencies. -/
theorem stepRows_restored :
    stepRows (restoredFuture state plan) = stepRows (future state plan) := by
  -- both lists pair an id of the future with the dependencies the plan gave it
  let planned : RequiredText → RequiredText × List RequiredText := fun id =>
    (id, (((future state plan).find? fun original => original.id = id).map (·.dependsOn)).getD [])
  have hrestored : stepRows (restoredFuture state plan) =
      (stepIds (startFirst ((openFuture state plan).map initialStep))).map planned := by
    rw [restoredFuture, stepRows, stepIds, List.map_map, List.map_map]
    refine List.map_congr_left fun step hstep => ?_
    have hid : step.id ∈ stepIds (future state plan) := by
      rw [← stepIds_startFuture]
      exact List.mem_map_of_mem hstep
    obtain ⟨original, -, -, hfind⟩ := find_future state plan hid
    simp only [Function.comp_apply, continueStep_id, continueStep_dependsOn, planned, hfind,
      Option.getD_some, Option.map_some]
  have hfuture : stepRows (future state plan) = (stepIds (future state plan)).map planned := by
    rw [stepRows, stepIds, List.map_map]
    refine List.map_congr_left fun step hstep => ?_
    obtain ⟨original, horiginal, hid, hfind⟩ := find_future state plan (List.mem_map_of_mem hstep)
    rw [eq_of_id_eq (future_nodup state plan) horiginal hstep hid] at hfind
    simp only [Function.comp_apply, planned, hfind, Option.map_some, Option.getD_some]
  rw [hrestored, hfuture, stepIds_startFuture]

theorem stepIds_restored :
    stepIds (restoredFuture state plan) = stepIds (future state plan) := by
  rw [← map_fst_stepRows, ← map_fst_stepRows, stepRows_restored]

/-- The fields `revise_plan` builds its snapshot from. -/
def revisedFields : SnapshotFields :=
  { state.toSnapshotFields with
    title := plan.title
    goal := plan.goal
    steps := history state ++ restoredFuture state plan
    workStepIds := Dict.fromKeys
      (state.workStepIds.filter (· ∈ stepIds (history state)) ++ plan.workStepIds) }

/-- The steps still to be done meet the execution contract. -/
def MeetsContract : Prop :=
  ∀ step ∈ (openFuture state plan).map initialStep, validateStepExecutionContract step = .ok ()

instance : Decidable (MeetsContract state plan) :=
  inferInstanceAs (Decidable (∀ step ∈ _, _ = _))

/-- **A revision** raises `ContractViolationError`, or builds a snapshot of the finished steps and
the restored future. -/
theorem revisePlan_cases :
    (∃ message, revisePlan state plan = .error (runViolation message)) ∨
      state.terminal = false ∧ MeetsContract state plan ∧
        revisePlan state plan = RunSnapshot.of (revisedFields state plan) := by
  unfold revisePlan
  cases hterminal : state.terminal with
  | true =>
    rw [if_pos rfl]
    exact Or.inl ⟨_, rfl⟩
  | false =>
    rw [if_neg Bool.false_ne_true]
    obtain ⟨futurePlan, hplan⟩ : ∃ futurePlan,
        ExecutionPlan.of plan.title (openFuture state plan) plan.goal = .ok futurePlan :=
      (ExecutionPlan.of_iff
        (by rw [openFuture, ne_eq, List.map_eq_nil_iff]; exact future_ne_nil state plan)
        (by rw [stepIds_openFuture]; exact future_nodup state plan)
        (by exact publicStepIds_subset)).2 (openFuture_inOrder state plan)
    have hopen := (ExecutionPlan.of_eq_ok hplan).2.1
    simp only
    rw [show (future state plan).map (TaskStep.keepDependencies
      (· ∉ stepIds (history state))) = openFuture state plan from rfl, hplan]
    show (∃ message, (initializeRun state.runId (some futurePlan) defaultTitle >>= _) = _) ∨ _
    rcases initializeRun_cases state.runId futurePlan defaultTitle with
      ⟨revised, hrevised, hsteps, hcontract⟩ | ⟨message, hraise⟩
    · right
      rw [hopen] at hcontract
      refine ⟨trivial, hcontract, ?_⟩
      have hrestore : revised.steps.mapM (restoreStep state plan) =
          .ok (restoredFuture state plan) := by
        rw [hsteps, hopen]
        refine mapM_eq_map fun step hstep => ?_
        have hid : step.id ∈ stepIds (future state plan) := by
          rw [← stepIds_startFuture]
          exact List.mem_map_of_mem hstep
        obtain ⟨original, -, -, hfind⟩ := find_future state plan hid
        rw [restoreStep, hfind]
        rfl
      show (initializeRun state.runId (some futurePlan) defaultTitle >>= _) = _
      rw [hrevised]
      show (revised.steps.mapM (restoreStep state plan) >>= _) = _
      rw [hrestore]
      rfl
    · left
      rw [hraise]
      exact ⟨message, rfl⟩

/-- What a revision returned. -/
theorem revisePlan_eq_ok {after : RunSnapshot} (h : revisePlan state plan = .ok after) :
    state.terminal = false ∧ after.toSnapshotFields = revisedFields state plan := by
  rcases revisePlan_cases state plan with ⟨message, hraise⟩ | ⟨hlive, -, hof⟩
  · rw [hraise] at h
    cases h
  · rw [hof] at h
    exact ⟨hlive, RunSnapshot.of_eq_ok.1 h⟩

end Future

end Purra
