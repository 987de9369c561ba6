import Purra.RunMemory.Steps

/-!
# What a commit makes of a record

`applyCommit` writes the parts of a commit one after the other.  Here its result is
described at once: `Applied` is the whole commit, `StoredRun.reported` is what the step
updates leave behind that were written before one failed, and `applyCommit_cases` says
which of the two, and when.

A record is left as it was by a commit that fails exactly when `CommitFits`: nothing was
written by then, or what was written was there before.
-/

namespace Purra.RunMemory

open Contracts Output Purra.Action

/-! ## Step updates -/

/-- A step as the updates leave it. -/
def reportedStep (updates : List TaskStepUpdate) (step : TaskStep) : TaskStep :=
  match updates.find? (·.stepId = step.id) with
  | none => step
  | some update => updated update step

/-- A record whose steps have been updated, and whose plan has not. -/
def StoredRun.reported (record : StoredRun) (updates : List TaskStepUpdate) : StoredRun :=
  { record with steps := record.steps.map (reportedStep updates) }

@[simp] theorem updated_id (update : TaskStepUpdate) (step : TaskStep) :
    (updated update step).id = step.id := rfl

@[simp] theorem reportedStep_id (updates : List TaskStepUpdate) (step : TaskStep) :
    (reportedStep updates step).id = step.id := by
  unfold reportedStep
  cases updates.find? (·.stepId = step.id) with
  | none => rfl
  | some update => rfl

theorem StoredRun.reported_nil (record : StoredRun) : record.reported [] = record := by
  unfold StoredRun.reported
  rw [show reportedStep [] = id from rfl, List.map_id]

theorem stepIds_reported (record : StoredRun) (updates : List TaskStepUpdate) :
    stepIds (record.reported updates).steps = stepIds record.steps := by
  unfold stepIds StoredRun.reported
  rw [List.map_map]
  exact List.map_congr_left fun step _ => reportedStep_id updates step

theorem stepRows_reported (record : StoredRun) (updates : List TaskStepUpdate) :
    stepRows (record.reported updates).steps = stepRows record.steps := by
  unfold stepRows StoredRun.reported
  rw [List.map_map]
  refine List.map_congr_left fun step _ => ?_
  show (_, _) = (_, _)
  unfold reportedStep
  cases updates.find? (·.stepId = step.id) with
  | none => rfl
  | some update => rfl

/-- An update no other one names the step of can be written first. -/
theorem reportedStep_cons {update : TaskStepUpdate} {rest : List TaskStepUpdate}
    (hnew : update.stepId ∉ rest.map (·.stepId)) (step : TaskStep) :
    reportedStep rest (reportedStep [update] step) = reportedStep (update :: rest) step := by
  by_cases hid : update.stepId = step.id
  · have hrest : rest.find? (·.stepId = step.id) = none := by
      refine List.find?_eq_none.2 fun other hother => ?_
      rw [← hid]
      exact fun h => hnew (List.mem_map.2 ⟨other, hother, by simpa using h⟩)
    unfold reportedStep
    simp [hid, hrest]
  · unfold reportedStep
    simp [hid]

theorem StoredRun.reported_cons (record : StoredRun) {update : TaskStepUpdate}
    {rest : List TaskStepUpdate} (hnew : update.stepId ∉ rest.map (·.stepId)) :
    (record.reported [update]).reported rest = record.reported (update :: rest) := by
  unfold StoredRun.reported
  simp only [List.map_map]
  congr 1
  exact List.map_congr_left fun step _ => reportedStep_cons hnew step

section

variable (host : Host)

/-- The refusal of an update that names no step. -/
def stepNotFound (update : TaskStepUpdate) : PyError :=
  violation ("task step " ++ host.py.repr (.str update.stepId.text) ++ " does not exist")

variable {record : StoredRun} {update : TaskStepUpdate}

theorem applyUpdate_unknown (h : update.stepId ∉ stepIds record.steps) :
    applyUpdate host update record = (.error (stepNotFound host update), record) := by
  have hnone : findFirst (fun step => step.id = update.stepId) record.steps = none := by
    refine findFirst_eq_none.2 fun step hstep => decide_eq_false fun hid => h ?_
    rw [← hid]
    exact List.mem_map_of_mem hstep
  unfold applyUpdate
  rw [read_bind_apply, hnone]
  rfl

theorem applyUpdate_known (hids : (stepIds record.steps).Nodup)
    (h : update.stepId ∈ stepIds record.steps) :
    applyUpdate host update record = (.ok (), record.reported [update]) := by
  unfold applyUpdate
  rw [read_bind_apply]
  cases hfound : findFirst (fun step => step.id = update.stepId) record.steps with
  | none =>
    obtain ⟨step, hstep, hid⟩ := List.mem_map.1 h
    have := findFirst_eq_none.1 hfound step hstep
    simp [hid] at this
  | some found =>
    obtain ⟨index, step⟩ := found
    obtain ⟨hget, hid, -⟩ := findFirst_eq_some.1 hfound
    have hid : step.id = update.stepId := by simpa using hid
    -- the ids of the steps differ, so the update changes this step and no other
    have hset : record.steps.set index (updated update step) =
        record.steps.map (reportedStep [update]) := by
      refine List.ext_getElem? fun i => ?_
      rw [List.getElem?_set, List.getElem?_map]
      by_cases hi : index = i
      · subst hi
        rw [if_pos rfl, if_pos (List.getElem?_eq_some_iff.1 hget).1, hget]
        unfold reportedStep
        simp [hid]
      · rw [if_neg hi]
        cases hother : record.steps[i]? with
        | none => rfl
        | some other =>
          have hne : update.stepId ≠ other.id := by
            rw [← hid]
            intro hsame
            obtain ⟨hlt, heq⟩ := List.getElem?_eq_some_iff.1 hget
            obtain ⟨hlt', heq'⟩ := List.getElem?_eq_some_iff.1 hother
            have hat : (stepIds record.steps)[index]? = (stepIds record.steps)[i]? := by
              simp [stepIds, hget, hother, hsame]
            refine hi ((List.getElem?_inj ?_ hids).1 hat)
            simpa [stepIds] using hlt
          unfold reportedStep
          simp [hne]
    unfold StoredRun.reported
    rw [← hset]
    rfl

/-- Updates that all name a step. -/
theorem forM_applyUpdate_known {updates : List TaskStepUpdate}
    (hids : (stepIds record.steps).Nodup) (hupdates : (updates.map (·.stepId)).Nodup)
    (h : ∀ update ∈ updates, update.stepId ∈ stepIds record.steps) :
    updates.forM (applyUpdate host) record = (.ok (), record.reported updates) := by
  induction updates generalizing record with
  | nil => rw [record.reported_nil]; rfl
  | cons update rest ih =>
    rw [List.map_cons, List.nodup_cons] at hupdates
    have hhead := applyUpdate_known host hids (h update (List.mem_cons_self ..))
    have hids' : (stepIds (record.reported [update]).steps).Nodup := by rwa [stepIds_reported]
    have hrest := ih hids' hupdates.2 (by
      intro other hother
      rw [stepIds_reported]
      exact h other (List.mem_cons_of_mem _ hother))
    rw [record.reported_cons hupdates.1] at hrest
    exact Action.bind_eq_ok.2 ⟨(), _, hhead, hrest⟩

/-- Updates of which one names no step: those in front of it are written. -/
theorem forM_applyUpdate_stops {before after : List TaskStepUpdate}
    (hids : (stepIds record.steps).Nodup) (hupdates : (before.map (·.stepId)).Nodup)
    (h : ∀ earlier ∈ before, earlier.stepId ∈ stepIds record.steps)
    (hunknown : update.stepId ∉ stepIds record.steps) :
    (before ++ update :: after).forM (applyUpdate host) record =
      (.error (stepNotFound host update), record.reported before) := by
  induction before generalizing record with
  | nil =>
    show (applyUpdate host update >>= fun _ => after.forM (applyUpdate host)) record = _
    rw [bind_apply, applyUpdate_unknown host hunknown, record.reported_nil]
  | cons earlier rest ih =>
    rw [List.map_cons, List.nodup_cons] at hupdates
    show (applyUpdate host earlier >>= fun _ =>
      (rest ++ update :: after).forM (applyUpdate host)) record = _
    rw [bind_apply, applyUpdate_known host hids (h earlier (List.mem_cons_self ..))]
    dsimp only
    have hids' : (stepIds (record.reported [earlier]).steps).Nodup := by rwa [stepIds_reported]
    rw [ih hids' hupdates.2
      (by
        intro other hother
        rw [stepIds_reported]
        exact h other (List.mem_cons_of_mem _ hother))
      (by rwa [stepIds_reported]), record.reported_cons hupdates.1]

/-! ## Commits -/

/-- The plan is built again around the steps, when some were updated. -/
def StoredRun.refreshed (record : StoredRun) (updates : List TaskStepUpdate) : StoredRun :=
  if updates = [] then record
  else { record with
    executionPlan := record.executionPlan.bind fun plan =>
      (ExecutionPlan.of plan.title record.steps plan.goal (some plan.workStepIds)).toOption }

/-- The plan and the steps of a record, as a commit writes them. -/
def StoredRun.written (record : StoredRun) (commit : RunCommit) : StoredRun :=
  ((record.replaced commit).reported commit.stepUpdates).refreshed commit.stepUpdates

/-- A record after the whole commit. -/
def StoredRun.applied (record : StoredRun) (commit : RunCommit) : StoredRun :=
  let record := (record.written commit).terminated commit
  { record with
    executionCheckpoint := commit.executionCheckpoint.or record.executionCheckpoint
    checkpointAttemptCount := if commit.executionCheckpoint.isSome = true
      then record.modelAttemptIds.length else record.checkpointAttemptCount
    events := record.events ++ commit.events }

/-- The plan of a record can be built again around its steps. -/
theorem StoredRun.Planned.of_plan (h : record.Planned) {plan : ExecutionPlan}
    (hplan : record.executionPlan = some plan) : ∃ plan',
      ExecutionPlan.of plan.title record.steps plan.goal (some plan.workStepIds) = .ok plan' := by
  have hrows : stepRows record.steps = stepRows plan.steps := by
    unfold Planned at h
    rw [hplan] at h
    exact h
  have hids : stepIds record.steps = stepIds plan.steps := by
    rw [← map_fst_stepRows, hrows, map_fst_stepRows]
  refine ⟨_, ExecutionPlan.of_ok ?_ ?_ ?_ ?_⟩
  · intro hnil
    rw [hnil] at hids
    exact plan.steps_ne_nil (List.map_eq_nil_iff.1 hids.symm)
  · rw [hids]
    exact plan.ids_nodup
  · rw [hrows]
    exact plan.inOrder
  · intro id hid
    rw [hids]
    exact plan.work_known id (Dict.mem_fromKeys.1 hid)

/-- The ids of the steps of a record differ. -/
theorem StoredRun.Planned.ids_nodup (h : record.Planned) :
    (stepIds record.steps).Nodup := by
  rw [← map_fst_stepRows, h]
  cases record.executionPlan with
  | none => exact List.nodup_nil
  | some plan =>
    show ((stepRows plan.steps).map Prod.fst).Nodup
    rw [map_fst_stepRows]
    exact plan.ids_nodup

theorem refreshPlan_apply (h : record.Planned) (commit : RunCommit) :
    refreshPlan commit record = (.ok (), record.refreshed commit.stepUpdates) := by
  unfold refreshPlan StoredRun.refreshed
  rw [read_bind_apply]
  cases hplan : record.executionPlan with
  | none =>
    dsimp only
    split
    · rfl
    · rw [Option.bind_none, ← hplan]
      rfl
  | some plan =>
    dsimp only
    split
    · rfl
    · obtain ⟨plan', hof⟩ := h.of_plan hplan
      rw [hof, Option.bind_some, hof]
      rfl

theorem planned_replaced (h : record.Planned) (commit : RunCommit) :
    (record.replaced commit).Planned := (keeping_replaced record commit).planned h

theorem planned_reported (h : record.Planned) (updates : List TaskStepUpdate) :
    (record.reported updates).Planned := by
  unfold StoredRun.Planned
  rw [stepRows_reported]
  exact h

/-- What is written is the steps, and a plan. -/
theorem written_eq (record : StoredRun) (commit : RunCommit) :
    ∃ plan, record.written commit = { record with
      steps := (record.replaced commit).steps.map (reportedStep commit.stepUpdates)
      executionPlan := plan } := by
  unfold StoredRun.written StoredRun.refreshed StoredRun.reported StoredRun.replaced
  cases commit.replacePlan with
  | none => split <;> exact ⟨_, rfl⟩
  | some plan => split <;> exact ⟨_, rfl⟩

theorem written_checkpoint (record : StoredRun) (commit : RunCommit) :
    (record.written commit).executionCheckpoint = record.executionCheckpoint := by
  obtain ⟨plan, hwritten⟩ := written_eq record commit
  rw [hwritten]

theorem terminated_checkpoint (record : StoredRun) (commit : RunCommit) :
    (record.terminated commit).executionCheckpoint = record.executionCheckpoint := by
  unfold StoredRun.terminated
  cases commit.terminalStatus with
  | none => rfl
  | some status => rfl

/-- A commit keeps the parameters of the Run. -/
theorem applied_params (record : StoredRun) (commit : RunCommit) :
    (record.applied commit).params = record.params := by
  obtain ⟨plan, hwritten⟩ := written_eq record commit
  unfold StoredRun.applied StoredRun.terminated
  rw [hwritten]
  cases commit.terminalStatus with
  | none => rfl
  | some status => rfl

/-- The status after a commit. -/
theorem applied_status (record : StoredRun) (commit : RunCommit) :
    (record.applied commit).status = commit.terminalStatus.getD record.status := by
  obtain ⟨plan, hwritten⟩ := written_eq record commit
  unfold StoredRun.applied StoredRun.terminated
  rw [hwritten]
  cases commit.terminalStatus with
  | none => rfl
  | some status => rfl

/-- The steps after a commit. -/
theorem applied_steps (record : StoredRun) (commit : RunCommit) :
    (record.applied commit).steps =
      (record.replaced commit).steps.map (reportedStep commit.stepUpdates) := by
  obtain ⟨plan, hwritten⟩ := written_eq record commit
  unfold StoredRun.applied StoredRun.terminated
  rw [hwritten]
  cases commit.terminalStatus with
  | none => rfl
  | some status => rfl

/-- What a commit to a running record did. -/
inductive Applying (record : StoredRun) (commit : RunCommit) :
    Except PyError Unit × StoredRun → Prop where
  | applied (hknown : ∀ update ∈ commit.stepUpdates, update.stepId ∈ stepIds record.steps)
      (haccept : ∀ checkpoint ∈ commit.executionCheckpoint,
        acceptCheckpoint host.py host.loads record.executionCheckpoint checkpoint = .ok ()) :
      Applying record commit (.ok (), record.applied commit)
  | stopped {before after : List TaskStepUpdate} {update : TaskStepUpdate}
      (hsplit : commit.stepUpdates = before ++ update :: after)
      (hknown : ∀ earlier ∈ before, earlier.stepId ∈ stepIds record.steps)
      (hunknown : update.stepId ∉ stepIds record.steps) :
      Applying record commit (.error (stepNotFound host update), record.reported before)
  | refused {checkpoint : StoredCheckpoint} {e : PyError}
      (hknown : ∀ update ∈ commit.stepUpdates, update.stepId ∈ stepIds record.steps)
      (hcheckpoint : commit.executionCheckpoint = some checkpoint)
      (hrefused : acceptCheckpoint host.py host.loads record.executionCheckpoint checkpoint =
        .error e) : Applying record commit (.error e, record.written commit)

/-- The updates all name steps, or there is a first one that does not. -/
theorem known_or_split (ids : List RequiredText) (updates : List TaskStepUpdate) :
    (∀ update ∈ updates, update.stepId ∈ ids) ∨
      ∃ before update after, updates = before ++ update :: after ∧
        (∀ earlier ∈ before, earlier.stepId ∈ ids) ∧ update.stepId ∉ ids := by
  induction updates with
  | nil => exact Or.inl fun _ h => absurd h List.not_mem_nil
  | cons update rest ih =>
    by_cases hid : update.stepId ∈ ids
    · rcases ih with hall | ⟨before, stop, after, rfl, hbefore, hstop⟩
      · exact Or.inl (List.forall_mem_cons.2 ⟨hid, hall⟩)
      · exact Or.inr ⟨update :: before, stop, after, rfl,
          List.forall_mem_cons.2 ⟨hid, hbefore⟩, hstop⟩
    · exact Or.inr ⟨[], update, rest, rfl, fun _ h => absurd h List.not_mem_nil, hid⟩

variable {commit : RunCommit}

theorem replaced_of_none (h : commit.replacePlan = none) : record.replaced commit = record := by
  unfold StoredRun.replaced
  rw [h]

/-- A commit with updates replaces no plan. -/
theorem replaced_of_updates (h : commit.stepUpdates ≠ []) : record.replaced commit = record := by
  refine replaced_of_none ?_
  cases hplan : commit.replacePlan with
  | none => rfl
  | some plan =>
    refine absurd (commit.valid.plan_alone ?_) h
    rw [hplan]
    rfl

/-- Updates that name steps of the record name steps of the plan that takes their place. -/
theorem known_replaced (h : ∀ update ∈ commit.stepUpdates, update.stepId ∈ stepIds record.steps) :
    ∀ update ∈ commit.stepUpdates, update.stepId ∈ stepIds (record.replaced commit).steps := by
  intro update hupdate
  rw [replaced_of_updates (List.ne_nil_of_mem hupdate)]
  exact h update hupdate

/-- A Run that has ended refuses every commit. -/
theorem applyCommit_ended (h : record.status ≠ .running) (commit : RunCommit) :
    applyCommit host commit record =
      (.error (violation "terminal run cannot accept another commit"), record) := by
  unfold applyCommit
  rw [read_bind_apply, if_pos h]
  rfl

theorem applyCommit_cases (hrunning : record.status = .running)
    (hplanned : record.Planned) (commit : RunCommit) :
    Applying host record commit (applyCommit host commit record) := by
  have hunfold : applyCommit host commit record = (do
      commit.stepUpdates.forM (applyUpdate host)
      refreshPlan commit
      Action.write (·.terminated commit)
      installCheckpoint host commit
      Action.write fun record => { record with events := record.events ++ commit.events })
        (record.replaced commit) := by
    unfold applyCommit
    rw [read_bind_apply, if_neg (not_not.2 hrunning)]
    rfl
  rw [hunfold]
  have hreplaced := planned_replaced hplanned commit
  rcases known_or_split (stepIds record.steps) commit.stepUpdates with
    hknown | ⟨before, update, after, hsplit, hbefore, hunknown⟩
  · rw [bind_apply, forM_applyUpdate_known host hreplaced.ids_nodup commit.valid.updates_nodup
      (known_replaced hknown)]
    dsimp only
    rw [bind_apply, refreshPlan_apply (planned_reported hreplaced _)]
    show Applying host record commit ((do
      installCheckpoint host commit
      Action.write fun record => { record with events := record.events ++ commit.events })
        ((record.written commit).terminated commit))
    rw [bind_apply]
    unfold installCheckpoint
    cases hcheckpoint : commit.executionCheckpoint with
    | none =>
      have happlied := @Applying.applied host record commit hknown (by simp [hcheckpoint])
      unfold StoredRun.applied at happlied
      rw [hcheckpoint] at happlied
      exact happlied
    | some checkpoint =>
      dsimp only
      rw [read_bind_apply, terminated_checkpoint, written_checkpoint]
      have hterminated : (record.written commit).terminated commit = record.written commit := by
        unfold StoredRun.terminated
        cases hstatus : commit.terminalStatus with
        | none => rfl
        | some status =>
          have hnone := commit.valid.terminal_checkpoint (by rw [hstatus]; exact Option.some_ne_none _)
          rw [hcheckpoint] at hnone
          cases hnone
      cases haccept : acceptCheckpoint host.py host.loads record.executionCheckpoint checkpoint with
      | error e =>
        rw [hterminated]
        exact .refused hknown hcheckpoint haccept
      | ok u =>
        have happlied := @Applying.applied host record commit hknown (by
            intro found hfound
            rw [hcheckpoint, Option.mem_some] at hfound
            subst hfound
            exact haccept)
        unfold StoredRun.applied at happlied
        rw [hcheckpoint] at happlied
        exact happlied
  · have hne : commit.stepUpdates ≠ [] := by simp [hsplit]
    have hnodup := commit.valid.updates_nodup
    rw [hsplit, List.map_append] at hnodup
    rw [replaced_of_updates hne, bind_apply]
    have hstops := @forM_applyUpdate_stops host record update before after hplanned.ids_nodup
      (List.Nodup.of_append_left hnodup) hbefore hunknown
    rw [← hsplit] at hstops
    rw [hstops]
    exact .stopped hsplit hbefore hunknown

/-! ## Commits that leave no trace when they fail -/

/-- The update writes what the step already says. -/
def RestatesStep (steps : List TaskStep) (update : TaskStepUpdate) : Prop :=
  ∀ step ∈ steps, step.id = update.stepId → updated update step = step

/-- The plan and the updates of a commit write what the record already says. -/
structure Unchanging (record : StoredRun) (commit : RunCommit) : Prop where
  replaced : record.replaced commit = record
  updates : ∀ update ∈ commit.stepUpdates, RestatesStep record.steps update
  plan : commit.stepUpdates ≠ [] → ∀ plan ∈ record.executionPlan,
    ExecutionPlan.of plan.title record.steps plan.goal (some plan.workStepIds) = .ok plan

/-- The condition under which a commit to a record is all or nothing: the updates in front of the
first one that names no step write nothing new, and a checkpoint that is not accepted comes with a
plan and with updates that write nothing new. -/
structure CommitFits (record : StoredRun) (commit : RunCommit) : Prop where
  updates : ∀ before update after, commit.stepUpdates = before ++ update :: after →
    (∀ earlier ∈ before, earlier.stepId ∈ stepIds record.steps) →
    update.stepId ∉ stepIds record.steps → ∀ earlier ∈ before, RestatesStep record.steps earlier
  checkpoint : (∀ update ∈ commit.stepUpdates, update.stepId ∈ stepIds record.steps) →
    ∀ checkpoint ∈ commit.executionCheckpoint,
      acceptCheckpoint host.py host.loads record.executionCheckpoint checkpoint = .ok () ∨
        Unchanging record commit

theorem reported_eq_self {updates : List TaskStepUpdate}
    (hupdates : (updates.map (·.stepId)).Nodup) :
    record.reported updates = record ↔ ∀ update ∈ updates, RestatesStep record.steps update := by
  constructor
  · intro h update hupdate step hstep hid
    have hsteps : record.steps.map (reportedStep updates) = record.steps :=
      congrArg StoredRun.steps h
    have hsame : reportedStep updates step = step :=
      List.map_eq_map_iff.1 (hsteps.trans (List.map_id _).symm) step hstep
    -- the first update that names this step is the one at hand
    have hfind : updates.find? (·.stepId = step.id) = some update := by
      cases hfound : updates.find? (·.stepId = step.id) with
      | none =>
        have := List.find?_eq_none.1 hfound update hupdate
        simp [hid] at this
      | some found =>
        have hfoundId : found.stepId = step.id := by simpa using List.find?_some hfound
        rw [List.inj_on_of_nodup_map hupdates (List.mem_of_find?_eq_some hfound) hupdate
          (hfoundId.trans hid)]
    unfold reportedStep at hsame
    rwa [hfind] at hsame
  · intro h
    have hsteps : record.steps.map (reportedStep updates) = record.steps := by
      conv_rhs => rw [← List.map_id record.steps]
      refine List.map_congr_left fun step hstep => ?_
      unfold reportedStep
      cases hfound : updates.find? (·.stepId = step.id) with
      | none => rfl
      | some found =>
        have hfoundId : found.stepId = step.id := by simpa using List.find?_some hfound
        exact h found (List.mem_of_find?_eq_some hfound) step hstep hfoundId.symm
    unfold StoredRun.reported
    rw [hsteps]

/-- What a commit wrote changed nothing. -/
theorem written_eq_self (hplanned : record.Planned) :
    record.written commit = record ↔ Unchanging record commit := by
  have hnodup := commit.valid.updates_nodup
  by_cases hnil : commit.stepUpdates = []
  · have hwritten : record.written commit = record.replaced commit := by
      unfold StoredRun.written StoredRun.refreshed
      rw [if_pos hnil, hnil, StoredRun.reported_nil]
    rw [hwritten]
    constructor
    · intro h
      refine ⟨h, fun update hupdate => ?_, fun hne => absurd hnil hne⟩
      rw [hnil] at hupdate
      cases hupdate
    · exact fun h => h.replaced
  · have hreplaced : record.replaced commit = record := replaced_of_updates hnil
    have hwritten : record.written commit =
        (record.reported commit.stepUpdates).refreshed commit.stepUpdates := by
      unfold StoredRun.written
      rw [hreplaced]
    rw [hwritten]
    constructor
    · intro h
      have hsteps : (record.reported commit.stepUpdates).steps = record.steps := by
        have := congrArg StoredRun.steps h
        unfold StoredRun.refreshed at this
        rwa [if_neg hnil] at this
      have hreported : record.reported commit.stepUpdates = record := by
        unfold StoredRun.reported at hsteps ⊢
        rw [show record.steps.map (reportedStep commit.stepUpdates) = record.steps from hsteps]
      rw [hreported] at h
      refine ⟨hreplaced, (reported_eq_self hnodup).1 hreported, fun _ plan hplan => ?_⟩
      have hrefreshed := congrArg StoredRun.executionPlan h
      unfold StoredRun.refreshed at hrefreshed
      rw [if_neg hnil] at hrefreshed
      rw [Option.mem_def] at hplan
      obtain ⟨plan', hof⟩ := hplanned.of_plan hplan
      rw [hplan, Option.bind_some, hof] at hrefreshed
      rw [hof, Option.some.inj hrefreshed]
    · intro h
      rw [(reported_eq_self hnodup).2 h.updates]
      unfold StoredRun.refreshed
      rw [if_neg hnil]
      cases hplan : record.executionPlan with
      | none =>
        rw [Option.bind_none, ← hplan]
      | some plan =>
        rw [Option.bind_some, h.plan hnil plan hplan]
        show { record with executionPlan := some plan } = record
        rw [← hplan]

/-- The first update that names no step is where the updates are cut. -/
theorem before_eq_takeWhile {ids : List RequiredText} {before after : List TaskStepUpdate}
    (hbefore : ∀ earlier ∈ before, earlier.stepId ∈ ids) (hunknown : update.stepId ∉ ids) :
    before = (before ++ update :: after).takeWhile fun u => u.stepId ∈ ids := by
  rw [List.takeWhile_append_of_pos (by simpa using hbefore),
    List.takeWhile_cons_of_neg (by simpa using hunknown), List.append_nil]

/-- **A commit to a record is all or nothing exactly when it fits.** -/
theorem applyCommit_atomic_iff (hrunning : record.status = .running)
    (hplanned : record.Planned) (commit : RunCommit) :
    (applyCommit host commit record = (.ok (), record.applied commit) ∨
        ∃ e, applyCommit host commit record = (.error e, record)) ↔
      CommitFits host record commit := by
  have hnodup := commit.valid.updates_nodup
  have hcases := applyCommit_cases host hrunning hplanned commit
  generalize applyCommit host commit record = result at hcases ⊢
  cases hcases with
  | applied hknown haccept =>
    refine iff_of_true (Or.inl rfl) ⟨?_, fun _ checkpoint hcheckpoint => ?_⟩
    · intro before update after hsplit _ hunknown
      exact absurd (hknown update (by simp [hsplit])) hunknown
    · exact Or.inl (haccept checkpoint hcheckpoint)
  | @stopped before after update hsplit hbefore hunknown =>
    have hbeforeNodup : (before.map (·.stepId)).Nodup := by
      rw [hsplit, List.map_append] at hnodup
      exact List.Nodup.of_append_left hnodup
    constructor
    · rintro (h | ⟨e, h⟩)
      · cases h
      · have hsame := (reported_eq_self hbeforeNodup).1 (Prod.mk.inj h).2
        refine ⟨fun before' update' after' hsplit' hbefore' hunknown' => ?_, fun hknown => ?_⟩
        · have heq : before' = before := by
            rw [before_eq_takeWhile hbefore' hunknown', ← hsplit', hsplit,
              ← before_eq_takeWhile hbefore hunknown]
          rwa [heq]
        · exact absurd (hknown update (by simp [hsplit])) hunknown
    · intro h
      have hsame := h.updates before update after hsplit hbefore hunknown
      rw [(reported_eq_self hbeforeNodup).2 hsame]
      exact Or.inr ⟨_, rfl⟩
  | @refused checkpoint e hknown hcheckpoint hrefused =>
    constructor
    · rintro (h | ⟨e', h⟩)
      · cases h
      · have hsame := (written_eq_self hplanned).1 (Prod.mk.inj h).2
        refine ⟨fun before update after hsplit _ hunknown => ?_, fun _ _ _ => Or.inr hsame⟩
        exact absurd (hknown update (by simp [hsplit])) hunknown
    · intro h
      have hunchanging := (h.checkpoint hknown checkpoint hcheckpoint).resolve_left fun haccept => by
        rw [hrefused] at haccept
        cases haccept
      rw [(written_eq_self hplanned).2 hunchanging]
      exact Or.inr ⟨e, rfl⟩

end

end Purra.RunMemory
