import Purra.RunState.Revision

/-!
# A Run's history only grows

Over every run of the reducers, a step that is done stays done, finished steps keep their
order, one step runs at a time and a finished Run is final (`HistoryKept`).

A revision keeps the finished steps in front of the new ones.  The plan made of both can
be read back exactly when the finished steps are themselves in dependency order
(`executionPlan_revised`): durable synchronisation may finish a step before the step it
depends on, and then the revised snapshot has no execution plan.
-/

namespace Purra

open RunStateMachine

/-! ## Finished steps -/

/-- The ids of the finished steps, in order. -/
def finishedIds (steps : List TaskStep) : List RequiredText :=
  stepIds (steps.filter (·.status.finished))

theorem mem_finishedIds {steps : List TaskStep} (hnd : (stepIds steps).Nodup) {step : TaskStep}
    (hstep : step ∈ steps) : step.id ∈ finishedIds steps ↔ step.status.finished = true := by
  constructor
  · intro h
    obtain ⟨other, hother, hid⟩ := List.mem_map.1 h
    rw [List.mem_filter] at hother
    rw [← eq_of_id_eq hnd hother.1 hstep hid]
    exact hother.2
  · intro h
    exact List.mem_map_of_mem (List.mem_filter.2 ⟨hstep, h⟩)

theorem finishedIds_eq_filter {steps : List TaskStep} (hnd : (stepIds steps).Nodup) :
    finishedIds steps = (stepIds steps).filter (· ∈ finishedIds steps) := by
  conv_lhs => rw [finishedIds, stepIds]
  conv_rhs => rw [stepIds, List.filter_map]
  congr 1
  refine List.filter_congr fun step hstep => ?_
  rw [Function.comp_apply, Bool.eq_iff_iff, decide_eq_true_iff]
  exact (mem_finishedIds hnd hstep).symm

/-- The steps finished in both lists stand in the same order. -/
theorem finishedIds_order {steps steps' : List TaskStep} (hnd : (stepIds steps).Nodup)
    (hids : stepIds steps' = stepIds steps) :
    (finishedIds steps).filter (· ∈ finishedIds steps') =
      (finishedIds steps').filter (· ∈ finishedIds steps) := by
  have h := finishedIds_eq_filter hnd
  have h' := finishedIds_eq_filter (hids ▸ hnd : (stepIds steps').Nodup)
  calc (finishedIds steps).filter (· ∈ finishedIds steps')
      = ((stepIds steps).filter (· ∈ finishedIds steps)).filter (· ∈ finishedIds steps') := by
        rw [← h]
    _ = ((stepIds steps).filter (· ∈ finishedIds steps')).filter (· ∈ finishedIds steps) :=
        List.filter_comm ..
    _ = (finishedIds steps').filter (· ∈ finishedIds steps) := by
        rw [← hids, ← h']

/-! ## One operation -/

/-- What no operation may undo. -/
structure HistoryKept (state after : RunSnapshot) : Prop where
  one_running : (runningSteps after.steps).length ≤ 1
  ids_nodup : (stepIds after.steps).Nodup
  done : ∀ step ∈ state.steps, step.status = .done → ∃ step' ∈ after.steps,
    step'.id = step.id ∧ step'.suggestedTools = step.suggestedTools ∧ step'.status = .done
  order : (finishedIds state.steps).filter (· ∈ finishedIds after.steps) =
    (finishedIds after.steps).filter (· ∈ finishedIds state.steps)
  sealed : state.terminal = true → after = state

theorem HistoryKept.refl (state : RunSnapshot) : HistoryKept state state where
  one_running := state.valid.one_running
  ids_nodup := state.valid.ids_nodup
  done := fun step hstep hdone => ⟨step, hstep, rfl, rfl, hdone⟩
  order := rfl
  sealed := fun _ => rfl

variable {after state : RunSnapshot}

/-- What `_with_step_changes` returned. -/
theorem withStepChanges_eq_ok {changes : List (Nat × TaskStep)}
    {status : Option RunStatus} {response : Option String} {error : Option RequiredText}
    {t : RunTransition} (h : withStepChanges state changes status response error = .ok t) :
    t.before = state ∧
      t.after.toSnapshotFields = { state.toSnapshotFields with
        steps := setAll state.steps changes
        status := status.getD state.status
        finalResponse := response.getD state.finalResponse
        error := error.or state.error } ∧
      t.stepUpdates = changes.map fun change =>
        ⟨change.2.id, change.2.status, change.2.resultSummary, change.2.error⟩ := by
  unfold withStepChanges at h
  obtain ⟨after, hafter, h⟩ := bind_eq_ok h
  have hfields := RunSnapshot.of_eq_ok.1 hafter
  unfold RunTransition.of at h
  split at h
  · cases h
  · cases h
    exact ⟨rfl, hfields, rfl⟩

theorem historyKept_changes {reopens : Bool} {changes : List (Nat × TaskStep)}
    (hsound : SoundChanges reopens state.steps changes) (hlive : state.terminal = false)
    (hsteps : after.steps = setAll state.steps changes) : HistoryKept state after where
  one_running := after.valid.one_running
  ids_nodup := after.valid.ids_nodup
  done := by
    intro step hstep hdone
    obtain ⟨i, hi⟩ := List.mem_iff_getElem?.1 hstep
    have hlt : i < (setAll state.steps changes).length := by
      rw [length_setAll]
      exact (List.getElem?_eq_some_iff.1 hi).1
    obtain ⟨hlt', hget⟩ := List.getElem?_eq_some_iff.1 hi
    have hrestates := (List.forall₂_iff_get.1 hsound.restates).2 i hlt' hlt
    have hdone' := (List.forall₂_iff_get.1 hsound.keeps_done).2 i hlt' hlt
    rw [List.get_eq_getElem, hget] at hrestates hdone'
    exact ⟨_, by rw [hsteps]; exact List.getElem_mem hlt, hrestates.id_eq, hrestates.tools_eq,
      hdone' hdone⟩
  order := by
    rw [hsteps]
    exact finishedIds_order state.valid.ids_nodup (stepIds_eq_of_restates hsound.restates)
  sealed := by
    intro h
    rw [hlive] at h
    cases h

theorem finishedIds_append (steps steps' : List TaskStep) :
    finishedIds (steps ++ steps') = finishedIds steps ++ finishedIds steps' := by
  simp [finishedIds, stepIds]

theorem finishedIds_history (state : RunSnapshot) :
    finishedIds (history state) = finishedIds state.steps := by
  simp [finishedIds, history, List.filter_filter]

theorem historyKept_revise {plan : ExecutionPlan}
    (h : revisePlan state plan = .ok after) : HistoryKept state after where
  one_running := after.valid.one_running
  ids_nodup := after.valid.ids_nodup
  done := by
    obtain ⟨-, hfields⟩ := revisePlan_eq_ok state plan h
    intro step hstep hdone
    refine ⟨step, ?_, rfl, rfl, hdone⟩
    rw [hfields]
    exact List.mem_append_left _ (List.mem_filter.2 ⟨hstep, by rw [hdone]; rfl⟩)
  order := by
    obtain ⟨-, hfields⟩ := revisePlan_eq_ok state plan h
    -- the finished steps are the history; no id of the future is among them
    have hafter : finishedIds after.steps =
        finishedIds state.steps ++ finishedIds (restoredFuture state plan) := by
      rw [hfields]
      exact (finishedIds_append _ _).trans (by rw [finishedIds_history])
    have hleft : (finishedIds state.steps).filter (· ∈ finishedIds after.steps) =
        finishedIds state.steps := by
      refine List.filter_eq_self.2 fun id hid => ?_
      rw [decide_eq_true_iff, hafter]
      exact List.mem_append_left _ hid
    have hfuture : (finishedIds (restoredFuture state plan)).filter
        (· ∈ finishedIds state.steps) = [] := by
      refine List.filter_eq_nil_iff.2 fun id hid hold => ?_
      obtain ⟨step, hstep, rfl⟩ := List.mem_map.1 hid
      have hmem : step.id ∈ stepIds (future state plan) := by
        rw [← stepIds_restored]
        exact List.mem_map_of_mem (List.mem_of_mem_filter hstep)
      obtain ⟨planned, hplanned, hpid⟩ := List.mem_map.1 hmem
      exact future_fresh state plan planned hplanned (hpid ▸ of_decide_eq_true hold)
    rw [hleft, hafter, List.filter_append, hfuture, List.append_nil]
    refine (List.filter_eq_self.2 fun id hid => ?_).symm
    exact decide_eq_true hid
  sealed := by
    intro hterminal
    rw [(revisePlan_eq_ok state plan h).1] at hterminal
    cases hterminal

/-- **No operation undoes history.** -/
theorem historyKept_apply {op : RunOperation}
    (h : state.apply op = .ok after) : HistoryKept state after := by
  cases op with
  | revisePlan plan => exact historyKept_revise h
  | reduce reduction =>
    unfold RunSnapshot.apply at h
    cases ht : state.reduce reduction with
    | error e =>
      simp only [ht] at h
      cases h
    | ok t =>
      simp only [ht] at h
      cases h
      rcases reduce_cases ht with rfl | ⟨hlive, changes, _, _, _, hsound, -, hchanges⟩
      · exact HistoryKept.refl state
      · exact historyKept_changes hsound hlive (by rw [(withStepChanges_eq_ok hchanges).2.1])

/-- The finished steps depend on finished steps before them. -/
def HistoryInOrder (state : RunSnapshot) : Prop := InOrder [] (stepRows (history state))

instance (state : RunSnapshot) : Decidable (HistoryInOrder state) :=
  inferInstanceAs (Decidable (InOrder _ _))

/-- **The revised plan can be read back exactly when the history is in order.** -/
theorem executionPlan_revised {plan : ExecutionPlan} (h : revisePlan state plan = .ok after) :
    (∃ revised, after.executionPlan = .ok revised) ↔ HistoryInOrder state := by
  obtain ⟨-, hfields⟩ := revisePlan_eq_ok state plan h
  have hsteps : after.steps = history state ++ restoredFuture state plan := by
    rw [hfields]
    rfl
  have hne : after.steps ≠ [] := by
    intro hnil
    rw [hsteps] at hnil
    have hids := stepIds_restored state plan
    rw [(List.append_eq_nil_iff.1 hnil).2] at hids
    exact future_ne_nil state plan (List.map_eq_nil_iff.1 hids.symm)
  have hread : (∃ revised, after.executionPlan = .ok revised) ↔ ∃ revised, ExecutionPlan.of
      after.title after.steps after.goal (some after.workStepIds) = .ok revised := by
    unfold RunSnapshot.executionPlan
    rw [if_neg hne]
    constructor
    · rintro ⟨revised, hrevised⟩
      obtain ⟨p, hp, -⟩ := bind_eq_ok hrevised
      exact ⟨p, hp⟩
    · rintro ⟨revised, hrevised⟩
      rw [hrevised]
      exact ⟨_, rfl⟩
  have hrows : stepRows after.steps =
      stepRows (history state) ++ stepRows (future state plan) := by
    rw [hsteps, ← stepRows_restored]
    exact List.map_append
  have hwork : ∀ id ∈ ((some after.workStepIds).map Dict.fromKeys).getD
      (publicStepIds after.steps), id ∈ stepIds after.steps := fun id hid =>
    after.valid.work_known id (Dict.mem_fromKeys.1 hid)
  rw [hread, ExecutionPlan.of_iff hne after.valid.ids_nodup hwork, hrows, inOrder_append]
  refine and_iff_left ?_
  rw [List.nil_append, map_fst_stepRows]
  exact future_inOrder state plan

/-! ## Every run -/

/-- The operation undoes no history, and after a revision the plan can be read back. -/
def OperationKeepsHistory (state : RunSnapshot) (op : RunOperation) : Prop :=
  ∀ after, state.apply op = .ok after → HistoryKept state after ∧
    ∀ plan, op = .revisePlan plan → ∃ revised, after.executionPlan = .ok revised

/-- A revision that succeeds finds the finished steps in dependency order. -/
def RevisesInOrder (state : RunSnapshot) (op : RunOperation) : Prop :=
  ∀ plan after, op = .revisePlan plan → state.apply op = .ok after → HistoryInOrder state

theorem operationKeepsHistory_iff (state : RunSnapshot) (op : RunOperation) :
    OperationKeepsHistory state op ↔ RevisesInOrder state op := by
  constructor
  · rintro h plan after rfl hafter
    exact (executionPlan_revised hafter).1 ((h after hafter).2 plan rfl)
  · intro h after hafter
    refine ⟨historyKept_apply hafter, ?_⟩
    rintro plan rfl
    exact (executionPlan_revised hafter).2 (h plan after rfl hafter)

/-- Over every run of the reducers, each operation keeps the history and leaves a plan that can be
read back, exactly when each revision finds the finished steps in dependency order. -/
theorem history_monotone (start : RunSnapshot) (ops : List RunOperation) :
    Along RunSnapshot.next OperationKeepsHistory start ops ↔
      Along RunSnapshot.next RevisesInOrder start ops :=
  ⟨fun h => h.mono fun state op => (operationKeepsHistory_iff state op).1,
    fun h => h.mono fun state op => (operationKeepsHistory_iff state op).2⟩

/-! ## A history out of order -/

namespace RunSample

theorem run_text : strip "run" = "run" ∧ "run" ≠ "" := by decide +kernel

theorem gather_text : strip "gather" = "gather" ∧ "gather" ≠ "" := by decide +kernel

theorem search_text : strip "search" = "search" ∧ "search" ≠ "" := by decide +kernel

theorem draft_text : strip "draft" = "draft" ∧ "draft" ≠ "" := by decide +kernel

/-- A step the model carries out. -/
def reasoning (id : RequiredText) (dependsOn : List RequiredText)
    (h : dependsOn.Nodup := by first | exact List.nodup_nil | decide +kernel) : TaskStep where
  id
  title := id
  type := .analyze
  executor := .model
  dependsOn
  depends_nodup := h

/-- A step that calls one tool. -/
def calling (id tool : RequiredText) (dependsOn : List RequiredText)
    (h : dependsOn.Nodup := by first | exact List.nodup_nil | decide +kernel) : TaskStep where
  id
  title := id
  type := .read
  executor := .tool
  suggestedTools := [tool]
  dependsOn
  depends_nodup := h

/-- The value a computation returned. -/
def got {α : Type} (x : Except PyError α)
    (h : x.toOption.isSome = true := by decide +kernel) : α := x.toOption.get h

theorem got_eq {α : Type} {x : Except PyError α} (h : x.toOption.isSome = true) :
    x = .ok (got x h) := by
  cases x with
  | ok a => rfl
  | error e => cases h

/-- Gather the evidence, then draft from it. -/
def gatherThenDraft : ExecutionPlan :=
  got (ExecutionPlan.of (.lit "Report")
    [calling (.lit "gather") (.lit "search") [], reasoning (.lit "draft") [.lit "gather"]])

/-- Answer at once. -/
def answerOnly : ExecutionPlan := got (ExecutionPlan.of (.lit "Report") [reasoning (.lit "answer") []])

/-- The Run that has started to gather. -/
def gathering : RunSnapshot := got (initializeRun (.lit "run") (some gatherThenDraft))

theorem initializeRun_gatherThenDraft :
    initializeRun (.lit "run") (some gatherThenDraft) = .ok gathering := got_eq _

/-- Durable execution reports the draft as done. -/
def reportDraft : RunOperation :=
  .reduce (.syncDurable ⟨[("draft", .done)], by decide +kernel⟩)

end RunSample

/-- The draft is reported done before the evidence is gathered, and the plan is revised: the
revised snapshot has no execution plan, for its draft depends on a step that is gone. -/
theorem history_torn :
    initializeRun (.lit "run") (some RunSample.gatherThenDraft) = .ok RunSample.gathering ∧
      ¬ Along RunSnapshot.next OperationKeepsHistory RunSample.gathering
        [RunSample.reportDraft, .revisePlan RunSample.answerOnly] := by
  refine ⟨RunSample.initializeRun_gatherThenDraft, fun ⟨_, hrevise, _⟩ => ?_⟩
  have hready := (operationKeepsHistory_iff _ _).1 hrevise RunSample.answerOnly _ rfl
    (RunSample.got_eq (by decide +kernel))
  exact absurd hready (by decide +kernel)

end Purra
