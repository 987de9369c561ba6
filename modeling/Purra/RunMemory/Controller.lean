import Purra.RunMemory.Atomicity

/-!
# A controller and its repository

`AgentRunController` of `purra/run_controller.py` holds the snapshot of a live Run.  Each of
its methods computes the next snapshot, commits it (`persist`), and only then holds it.  Its
caller may be canceled meanwhile, and the sink of the events may raise when all is stored.
-/

namespace Purra.RunMemory

open Purra.Action RunStateMachine

/-- A live controller and its repository. -/
structure Controlled where
  snapshot : RunSnapshot
  tables : RunState

/-- The methods that change a Run.  Only `complete` and its variant have a completion. -/
inductive ControllerCall where
  | installPlan (plan : ExecutionPlan)
  | revisePlan (plan : ExecutionPlan) (metadata : Json.Object)
  | reduce (reduction : RunReduction) (completion : Completion)

/-- What a call raises. -/
inductive CallError where
  | error (e : PyError)
  /-- `asyncio.CancelledError`. -/
  | canceled
  deriving DecidableEq, Repr

/-- How a cancellation meets a commit: the repository has not written yet, and never will, or its
receipt wins. -/
inductive Interruption where
  | unwritten
  | written
  deriving DecidableEq, Repr

/-- Who calls, whether that task is canceled, and the sink, which answers each event after those it
was given in the call. -/
structure Caller where
  writer : Writer := {}
  interruption : Option Interruption := none
  emit : List AgentEvent → AgentEvent → Except CallError Unit := fun _ _ => .ok ()

/-- An error of the code that computes and stores. -/
def check {α : Type} (x : Except PyError α) : Action Controlled CallError α :=
  Action.ofExcept (x.mapError .error)

/-- `_publish`. -/
def publish (caller : Caller) (emitted : List AgentEvent) :
    List AgentEvent → Except CallError Unit
  | [] => .ok ()
  | event :: rest => do
    caller.emit emitted event
    publish caller (emitted ++ [event]) rest

section

variable (host : Host) (caller : Caller)

/-- `repository.commit`. -/
def send (change : RunCommit) : Action Controlled CallError (List AgentEvent) := fun c =>
  let result := commit host caller.writer c.snapshot.runId.text change c.tables
  (result.1.mapError .error, { c with tables := result.2 })

/-- Send a commit, hold the snapshot that was committed, and publish. -/
def persist (change : Except PyError RunCommit) (after : RunSnapshot) :
    Action Controlled CallError (List AgentEvent) := do
  let change ← check change
  if caller.interruption = some .unwritten then Action.raise .canceled
  else do
    let persisted ← send host caller change
    Action.write fun c => { c with snapshot := after }
    if caller.interruption = some .written then Action.raise .canceled
    else do
      Action.ofExcept (publish caller [] persisted)
      pure persisted

/-- A call of the controller, and the events it published. -/
def perform (call : ControllerCall) : Action Controlled CallError (List AgentEvent) := do
  let c ← Action.read
  match call with
  | .installPlan plan =>
    if c.snapshot.terminal = true then
      Action.raise (.error (.runtimeError "cannot install a plan on a terminal run"))
    else if c.snapshot.steps ≠ [] then
      Action.raise (.error (.runtimeError "run plan has already been installed"))
    else do
      let planned ← check (initializeRun c.snapshot.runId (some plan))
      persist host caller (planCommit planned) planned
  | .revisePlan plan metadata => do
    let revised ← check (revisePlan c.snapshot plan)
    persist host caller (planCommit revised metadata) revised
  | .reduce reduction completion => do
    let transition ← check (c.snapshot.reduce reduction)
    if transition.changed = false then pure []
    else persist host caller (transitionCommit transition completion) transition.after

end

/-! ## One commit -/

/-- The repository has the Run of the controller, with its status and its steps. -/
structure Controlled.InStep (c : Controlled) : Prop where
  planned : c.tables.AllPlanned
  record : ∃ record, c.tables.runs.get? c.snapshot.runId.text = some record ∧
    record.status = c.snapshot.status ∧ record.steps = c.snapshot.steps

/-- A call returned, having published its events, or was broken off by its caller or the sink, and
left the two in step; or it raised and changed nothing. -/
inductive Settled (caller : Caller) (c : Controlled) :
    Except CallError (List AgentEvent) × Controlled → Prop where
  | returned {events : List AgentEvent} {c' : Controlled} (inStep : c'.InStep)
      (published : publish caller [] events = .ok ()) : Settled caller c (.ok events, c')
  | canceled {c' : Controlled} (inStep : c'.InStep)
      (canceled : caller.interruption = some .written) : Settled caller c (.error .canceled, c')
  | unpublished {events : List AgentEvent} {e : CallError} {c' : Controlled} (inStep : c'.InStep)
      (refused : publish caller [] events = .error e) : Settled caller c (.error e, c')
  | refused (e : CallError) : Settled caller c (.error e, c)

theorem Settled.inStep {caller : Caller} {c : Controlled}
    {result : Except CallError (List AgentEvent) × Controlled} (h : Settled caller c result)
    (hc : c.InStep) : result.2.InStep := by
  cases h with
  | returned inStep _ => exact inStep
  | canceled inStep _ => exact inStep
  | unpublished inStep _ => exact inStep
  | refused e => exact hc

/-- The commit takes a record from one snapshot to the next. -/
structure Conveys (state after : RunSnapshot) (change : RunCommit) : Prop where
  runId : after.runId = state.runId
  known : ∀ update ∈ change.stepUpdates, update.stepId ∈ stepIds state.steps
  checkpoint : change.executionCheckpoint = none
  status : change.terminalStatus.getD state.status = after.status
  steps : ∀ record : StoredRun, record.steps = state.steps →
    (record.applied change).steps = after.steps

section

variable {host : Host} {caller : Caller} {c : Controlled} {change : RunCommit}
  {state after : RunSnapshot}

theorem allPlanned_of_moves {s s' : RunState} (h : Relation.ReflTransGen (Write host) s s')
    (hs : s.AllPlanned) : s'.AllPlanned := by
  induction h with
  | refl => exact hs
  | tail _ hw ih => exact hw.allPlanned ih

theorem commit_conveyed (hconveys : Conveys c.snapshot after change) (h : c.InStep) :
    CommitAtomic host caller.writer c.tables c.snapshot.runId.text change := by
  obtain ⟨record, hget, -, hsteps⟩ := h.record
  refine (commit_atomic_iff h.planned change).2 fun _ _ found hfound _ =>
    ⟨fun before update rest hsplit _ hunknown => ?_, fun _ checkpoint hcheckpoint => ?_⟩
  · cases hget.symm.trans ((requireRunWrite_eq_ok host).1 hfound).1
    rw [hsteps] at hunknown
    exact absurd (hconveys.known update (by simp [hsplit])) hunknown
  · simp [hconveys.checkpoint] at hcheckpoint

theorem settled_check {α : Type} {x : Except PyError α}
    {f : α → Action Controlled CallError (List AgentEvent)}
    (h : ∀ a, x = .ok a → Settled caller c (f a c)) : Settled caller c ((check x >>= f) c) := by
  cases x with
  | error e => exact .refused (.error e)
  | ok a => exact h a rfl

theorem persist_settled {built : Except PyError RunCommit}
    (hbuilt : ∀ change, built = .ok change → Conveys c.snapshot after change) (h : c.InStep) :
    Settled caller c (persist host caller built after c) := by
  refine settled_check fun change hchange => ?_
  have hconveys := hbuilt change hchange
  obtain ⟨record, hget, hstatus, hsteps⟩ := h.record
  have hplanned := allPlanned_of_moves
    (commit_moves host caller.writer c.snapshot.runId.text change c.tables) h.planned
  unfold final at hplanned
  split
  · exact .refused _
  rw [bind_apply]
  unfold send
  rcases @commit_conveyed host caller _ _ _ hconveys h with ⟨found, hfound, hcommit⟩ | ⟨e, hcommit⟩
  · cases hget.symm.trans hfound
    rw [hcommit] at hplanned ⊢
    have hstep : Controlled.InStep
        ⟨after, { c.tables with
          runs := c.tables.runs.set c.snapshot.runId.text (record.applied change) }⟩ := by
      refine ⟨hplanned, record.applied change, ?_, ?_, hconveys.steps record hsteps⟩
      · rw [hconveys.runId, Dict.get?_set, if_pos rfl]
      · rw [applied_status, hstatus]
        exact hconveys.status
    -- from here on everything is stored, and what happens can only cut the call short
    simp only [Except.mapError, write_bind_apply]
    split
    · exact .canceled hstep ‹_›
    · rw [bind_apply]
      unfold Action.ofExcept
      cases hpublish : publish caller [] change.events with
      | error e => exact .unpublished hstep hpublish
      | ok u => exact .returned hstep hpublish
  · rw [hcommit]
    exact .refused _

theorem RunCommit.fields_eq {fields : CommitFields} (h : RunCommit.of fields = .ok change) :
    change.toCommitFields = fields := by
  unfold RunCommit.of at h
  split at h
  · cases h
  · cases h
    rfl

theorem conveys_plan {metadata : Json.Object} (hid : after.runId = state.runId)
    (hstatus : after.status = state.status) (h : planCommit after metadata = .ok change) :
    Conveys state after change := by
  obtain ⟨plan, hplan, hchange⟩ := bind_eq_ok h
  obtain ⟨_ | found, hfound, hsome⟩ := bind_eq_ok hplan
  · cases hsome
  cases hsome
  have hfields := RunCommit.fields_eq hchange
  refine ⟨hid, ?_, by rw [hfields], by rw [hfields]; exact hstatus.symm, fun record _ => ?_⟩
  · rw [hfields]
    exact fun _ hupdate => absurd hupdate List.not_mem_nil
  · have hsteps : plan.steps = after.steps := by
      unfold RunSnapshot.executionPlan at hfound
      split at hfound
      · cases hfound
      obtain ⟨_, hof, hfound⟩ := bind_eq_ok hfound
      cases hfound
      exact (ExecutionPlan.of_eq_ok hof).2.1
    rw [applied_steps, ← hsteps]
    unfold StoredRun.replaced
    rw [hfields]
    exact List.map_id _

/-- The update of a step that was changed. -/
def stepUpdate (change : Nat × TaskStep) : TaskStepUpdate :=
  ⟨change.2.id, change.2.status, change.2.resultSummary, change.2.error⟩

/-- The updates write what the changes write: each step is changed at one place. -/
theorem map_reportedStep {reopens : Bool} {changes : List (Nat × TaskStep)}
    (hsound : SoundChanges reopens state.steps changes) :
    state.steps.map (reportedStep (changes.map stepUpdate)) = setAll state.steps changes := by
  refine List.ext_getElem? fun i => ?_
  rw [List.getElem?_map]
  cases hget : state.steps[i]? with
  | none =>
    simpa [eq_comm] using hget
  | some step =>
    have hlt := (List.getElem?_eq_some_iff.1 hget).1
    unfold reportedStep
    rw [Option.map_some, List.find?_map]
    generalize hfind : changes.find? _ = found
    cases found with
    | none =>
      rw [getElem?_setAll_of_forall_ne, hget]
      · rfl
      · intro a ha
        obtain ⟨step', hget', hrestates, -⟩ := hsound.moves i a ha
        cases hget.symm.trans hget'
        exact absurd (decide_eq_true hrestates.id_eq) (List.find?_eq_none.1 hfind _ ha)
    | some change =>
      obtain ⟨j, a⟩ := change
      have hmem := List.mem_of_find?_eq_some hfind
      obtain ⟨step', hget', hrestates, -⟩ := hsound.moves j a hmem
      have hid := List.find?_some hfind
      cases eq_of_id_eq state.valid.ids_nodup (List.mem_of_getElem? hget')
        (List.mem_of_getElem? hget) (hrestates.id_eq.symm.trans (of_decide_eq_true hid))
      have hnodup : state.steps.Nodup := List.Nodup.of_map _ state.valid.ids_nodup
      cases (List.getElem?_inj hlt hnodup).1 (hget.trans hget'.symm)
      rw [getElem?_setAll_of_mem hmem (fun b hb => ?_) hlt]
      · exact congrArg some hrestates.symm
      · exact (Prod.mk.inj (List.inj_on_of_nodup_map hsound.once hb hmem rfl)).2

theorem conveys_transition {reduction : RunReduction} {t : RunTransition} {completion : Completion}
    (h : state.reduce reduction = .ok t) (hchanged : t.changed ≠ false)
    (hcommit : transitionCommit t completion = .ok change) : Conveys state t.after change := by
  rcases reduce_cases h with rfl | ⟨-, changes, status, response, error, hsound, -, hchanges⟩
  · simp [RunTransition.changed] at hchanged
  obtain ⟨hbefore, hafter, hupdates⟩ := withStepChanges_eq_ok hchanges
  have hfields : change.toCommitFields = transitionFields t completion := by
    unfold transitionCommit at hcommit
    split at hcommit
    · cases hcommit
    · exact RunCommit.fields_eq hcommit
  have hstepUpdates : change.stepUpdates = changes.map stepUpdate := by
    rw [hfields]
    exact hupdates
  refine ⟨by rw [hafter], ?_, by rw [hfields]; rfl, ?_, fun record hsteps => ?_⟩
  · rw [hstepUpdates]
    intro update hupdate
    obtain ⟨change, hmem, rfl⟩ := List.mem_map.1 hupdate
    obtain ⟨step, hget, hrestates, -⟩ := hsound.moves change.1 change.2 hmem
    show change.2.id ∈ _
    rw [hrestates.id_eq]
    exact List.mem_map_of_mem (List.mem_of_getElem? hget)
  · rw [hfields, transitionFields, hbefore]
    by_cases hstatus : t.after.status = state.status
    · simp [hstatus]
    · simp [hstatus]
  · rw [applied_steps, replaced_of_none (by rw [hfields]; rfl), hstepUpdates, hsteps,
      map_reportedStep hsound, hafter]

/-! ## Every call -/

theorem perform_settled (call : ControllerCall) (h : c.InStep) :
    Settled caller c (perform host caller call c) := by
  unfold perform
  rw [read_bind_apply]
  cases call with
  | installPlan plan =>
    dsimp only
    split
    · exact .refused _
    rename_i hterminal
    split
    · exact .refused _
    refine settled_check fun planned hplanned => ?_
    obtain ⟨_, -, hplanned⟩ := bind_eq_ok hplanned
    have hfields := RunSnapshot.of_eq_ok.1 hplanned
    refine persist_settled (fun change => conveys_plan (by rw [hfields]) ?_) h
    rw [hfields]
    unfold RunSnapshot.terminal at hterminal
    cases hstatus : c.snapshot.status <;> simp_all [RunStatus.terminal]
  | revisePlan plan metadata =>
    refine settled_check fun revised hrevised => ?_
    have hfields := (revisePlan_eq_ok c.snapshot plan hrevised).2
    exact persist_settled (fun change => conveys_plan (by rw [hfields]; rfl) (by rw [hfields]; rfl)) h
  | reduce reduction completion =>
    refine settled_check fun t ht => ?_
    split
    · exact .returned h rfl
    · exact persist_settled (fun change => conveys_transition ht (by assumption)) h

end

/-- **A controller and its repository stay in step**, over every run of the controller's calls, by
any callers; and what is called then returns when its events are published, or is broken off by
its caller or the sink after they were stored, or raises and changes nothing. -/
theorem controller_in_step (host : Host) {start : Controlled} (h : start.InStep)
    (run : List (Caller × ControllerCall)) :
    let c := exec (fun c event => (perform host event.1 event.2).final c) start run
    c.InStep ∧ ∀ caller call, Settled caller c (perform host caller call c) := by
  have hrun := exec_induction_of_all (I := Controlled.InStep) (fun c event hc =>
    (@perform_settled host event.1 c event.2 hc).inStep hc) run h
  exact ⟨hrun, fun caller call => perform_settled call hrun⟩

/-- The controller of the Run that gathers. -/
def gatheringController : Controlled where
  snapshot := RunSample.gathering
  tables := { runs := Dict.empty.set "run" {
    params := {}
    steps := RunSample.gathering.steps
    executionPlan := some RunSample.gatherThenDraft } }

theorem controller_in_step_gathering :
    (exec (fun c event => (perform sampleHost event.1 event.2).final c) gatheringController
      [({ interruption := some .written }, .reduce (.toolCallsStarted ["search"]) {}),
        ({}, .reduce (.complete "") {})]).InStep := by
  refine (controller_in_step sampleHost ⟨?_, _, rfl, by decide +kernel, rfl⟩ _).1
  refine allPlanned_set (s := {}) (fun _ _ h => by cases h) ?_ rfl
  show stepRows _ = stepRows _
  decide +kernel

end Purra.RunMemory
