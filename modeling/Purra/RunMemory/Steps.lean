import Purra.RunMemory.Persistence

/-!
# Every step is a sequence of writes

The methods of the output repository, and `step_writes`: from a state in which every
stream is stored under its own id, a call of any method writes to what is there or opens
one stream.

The one method that prepares first and writes later is the cancellation of several child
Runs.  What it prepared for a Run still holds when its turn comes (`Cancellation.Ready`):
the streams it will abort are open, or the Run has ended and the commit is refused.
-/

namespace Purra.RunMemory

open Contracts Output Purra.Action

/-- The streams that the drafts abort are open streams of the Run, each named once. -/
structure AbortsReady (s : RunState) (runId : String) (aborts : List AgentOutputEventDraft) :
    Prop where
  nodup : (aborts.map (·.outputStreamId)).Nodup
  opened : ∀ draft ∈ aborts, ∃ id stream, draft.outputStreamId = some id ∧
    s.streams.get? id = some stream ∧ stream.status = .opened ∧ stream.spec.runId = runId

/-- The Run has ended. -/
def RunState.Ended (s : RunState) (runId : String) : Prop :=
  ∃ record, s.runs.get? runId = some record ∧ record.status ≠ .running

section

variable (host : Host)

/-! ## Streams -/

theorem beginRunLifecycle_moves (writer : Writer) (now : Int) (params : RunCreateParams)
    (event : AgentEvent) (s : RunState) :
    MovesFrom (Write host) s (beginRunLifecycle host writer now params event) :=
  movesFrom_bind (begin_moves host writer params event s) fun _ s' _ =>
    movesFrom_bind (appendEvent_moves host writer _ _ _ s') fun _ _ _ => movesFrom_pure _

variable {writer : Writer} {s s' : RunState} {id runId : String} {stream : StoredStream}

variable {draft : AgentOutputEventDraft}

/-- A stream that was found open is closed once its last event is appended. -/
theorem close_moves {reading : Nat} {mode : AppendMode} {stream' : StoredStream}
    (hstream : s.streams.get? id = some stream) (hopen : stream.status = .opened)
    (hspec : stream'.spec = stream.spec) (hclosed : stream'.status ≠ .opened) :
    MovesFrom (Write host) s (do
      let event ← appendEvent host writer reading draft mode
      Action.write (·.setStream id stream')
      pure event) := by
  refine movesFrom_bind (appendEvent_moves host writer reading draft mode s) fun event s' h => ?_
  have hkept := appendEvent_streams host writer reading draft mode s
  unfold final at hkept
  rw [h] at hkept
  have hstream' : s'.streams.get? id = some stream := by
    rw [hkept]
    exact hstream
  exact movesFrom_write_bind (.closed hstream' hopen hspec hclosed) .refl

theorem commitStream_moves (writer : Writer) (now : Int) (id : String)
    (finishReason : ModelFinishReason) (s : RunState) :
    MovesFrom (Write host) s (commitStream host writer now id finishReason) := by
  refine movesFrom_read_bind (movesFrom_ofExcept_bind fun stream hstream => ?_)
  have hget := (requireStream_eq_ok host).1 hstream
  refine movesFrom_ite (fun _ => movesFrom_ofExcept _) fun _ => movesFrom_ite
    (fun _ => movesFrom_raise _) fun hopen => ?_
  exact close_moves host hget (not_not.1 hopen) rfl (by simp)

theorem abortStream_moves (writer : Writer) (now : Int) (id errorCode : String) (s : RunState) :
    MovesFrom (Write host) s (abortStream host writer now id errorCode) := by
  refine movesFrom_ite (fun _ => movesFrom_raise _) fun _ =>
    movesFrom_read_bind (movesFrom_ofExcept_bind fun stream hstream => ?_)
  have hget := (requireStream_eq_ok host).1 hstream
  refine movesFrom_ite (fun _ => movesFrom_ofExcept _) fun _ => movesFrom_ite
    (fun _ => movesFrom_raise _) fun hopen => ?_
  exact close_moves host hget (not_not.1 hopen) rfl (by simp)

theorem publishStreamContent_moves (promotion : Promotion) (writer : Writer) (now : Int)
    (id : String) (s : RunState) :
    MovesFrom (Write host) s (publishStreamContent host promotion writer now id) := by
  refine movesFrom_read_bind (movesFrom_ofExcept_bind fun drafts _ => ?_)
  cases drafts with
  | none => exact movesFrom_pure _
  | some drafts =>
    exact movesFrom_bind (appendEvent_moves host writer _ _ _ s) fun _ s' _ =>
      movesFrom_bind (appendEvent_moves host writer _ _ _ s') fun _ _ _ => movesFrom_pure _

theorem boundStream_eq_none {spec : OutputStreamSpec}
    (h : boundStream s spec = .ok none) : s.streams.get? spec.outputStreamId = none := by
  unfold boundStream at h
  cases hget : s.streams.get? spec.outputStreamId with
  | none => rfl
  | some stream =>
    rw [hget] at h
    cases h

theorem openStream_step (writer : Writer) (spec : OutputStreamSpec) (s : RunState) :
    Step host s ((openStream host writer spec).final s) := by
  unfold openStream
  rw [final_read_bind, final_ofExcept_bind]
  cases requireRunWrite host writer 0 s spec.runId with
  | error e => exact .writes .refl
  | ok run =>
    dsimp only
    rw [final_ofExcept_bind]
    cases hbound : boundStream s spec with
    | error e => exact .writes .refl
    | ok bound =>
      cases bound with
      | some existing =>
        dsimp only
        split
        · exact .writes .refl
        split
        · exact .writes .refl
        · exact .writes .refl
      | none =>
        dsimp only
        split
        · exact .writes .refl
        rw [final_ofExcept_bind]
        cases checkPlanningScope s spec with
        | error e => exact .writes .refl
        | ok u => exact .opened spec (boundStream_eq_none hbound)

/-! ## Lifecycle commits -/

/-- The stream a terminal commit leaves behind. -/
def StoredStream.terminalized (stream : StoredStream) : StoredStream :=
  { stream with
    status := .aborted
    finishReason := none
    errorCode := some terminalStreamAbortErrorCode }

theorem closeAborted_apply (hid : draft.outputStreamId = some id)
    (hstream : s.streams.get? id = some stream) :
    closeAborted host draft s = (.ok (), s.setStream id stream.terminalized) := by
  unfold closeAborted
  rw [hid, Option.getD_some, read_bind_apply, (requireStream_eq_ok host).2 hstream]
  rfl

/-- Closing one stream leaves the others ready. -/
theorem AbortsReady.tail
    {rest : List AgentOutputEventDraft} (h : AbortsReady s runId (draft :: rest))
    (hid : draft.outputStreamId = some id) (stream : StoredStream) :
    AbortsReady (s.setStream id stream) runId rest := by
  have hnd := h.nodup
  rw [List.map_cons, List.nodup_cons] at hnd
  refine ⟨hnd.2, fun other hother => ?_⟩
  obtain ⟨id', stream', hid', hget, hopen, hrun⟩ := h.opened other (List.mem_cons_of_mem _ hother)
  refine ⟨id', stream', hid', ?_, hopen, hrun⟩
  have hne : id' ≠ id := by
    rintro rfl
    exact hnd.1 (List.mem_map.2 ⟨other, hother, hid'.trans hid.symm⟩)
  rw [RunState.setStream, Dict.get?_set, if_neg hne]
  exact hget

variable {aborts related : List AgentOutputEventDraft}

/-- The streams of the aborts are closed, one after the other. -/
theorem closeAborts_moves (h : AbortsReady s runId aborts) :
    MovesFrom (Write host) s (aborts.forM (closeAborted host)) := by
  induction aborts generalizing s with
  | nil => exact movesFrom_pure ()
  | cons draft rest ih =>
    obtain ⟨id, stream, hid, hget, hopen, _⟩ := h.opened draft (List.mem_cons_self ..)
    have happly := closeAborted_apply host hid hget
    have hhead : MovesFrom (Write host) s (closeAborted host draft) := by
      unfold MovesFrom final
      rw [happly]
      exact .single (.closed hget hopen rfl (by simp [StoredStream.terminalized]))
    refine movesFrom_bind hhead fun _ s' heq => ih ?_
    rw [happly] at heq
    cases heq
    exact h.tail hid _

variable {commit : RunCommit} {record : StoredRun}

/-- A terminal commit that went through leaves the Run ended. -/
theorem applyCommit_status {record' : StoredRun} {status : RunStatus}
    (h : applyCommit host commit record = (.ok (), record'))
    (hstatus : commit.terminalStatus = some status) : record'.status = status := by
  unfold applyCommit at h
  rw [read_bind_eq_ok] at h
  split at h
  · cases h
  rw [write_bind_eq_ok] at h
  obtain ⟨_, _, _, h⟩ := Action.bind_eq_ok.1 h
  obtain ⟨_, refreshed, _, h⟩ := Action.bind_eq_ok.1 h
  rw [write_bind_eq_ok] at h
  obtain ⟨_, installed, hinstall, h⟩ := Action.bind_eq_ok.1 h
  cases h
  have hkeep : Keeps StoredRun.status (installCheckpoint host commit) := by
    unfold installCheckpoint
    cases commit.executionCheckpoint with
    | none => exact keeps_pure ()
    | some checkpoint =>
      exact keeps_read_bind fun _ => keeps_ofExcept_bind fun _ => keeps_write fun _ => rfl
  have hfinal := hkeep (refreshed.terminated commit)
  unfold final at hfinal
  rw [hinstall] at hfinal
  refine hfinal.trans ?_
  unfold StoredRun.terminated
  rw [hstatus]

theorem applyCommit_running {record' : StoredRun}
    (h : applyCommit host commit record = (.ok (), record')) : record.status = .running := by
  unfold applyCommit at h
  rw [read_bind_eq_ok] at h
  split at h
  · cases h
  · rename_i hrunning
    exact not_not.1 hrunning

variable {α : Type}

theorem onRun_eq_ok {m : Action StoredRun PyError α}
    {a : α} (h : onRun host runId m s = (.ok a, s')) : ∃ record record',
      s.runs.get? runId = some record ∧ m record = (.ok a, record') ∧
        s' = { s with runs := s.runs.set runId record' } := by
  unfold onRun at h
  cases hrun : s.runs.get? runId with
  | none =>
    rw [hrun] at h
    cases h
  | some record =>
    rw [hrun] at h
    have hpair := Prod.mk.inj h
    exact ⟨record, (m record).2, rfl, Prod.ext hpair.1 rfl, hpair.2.symm⟩

/-- A prepared commit that can still be applied: the streams to abort are open, or the Run has
ended, and the commit will be refused. -/
def Prepared.Ready (s : RunState) (runId : String) : Prepared → Prop
  | .replay _ => True
  | .fresh plan => s.Ended runId ∨ AbortsReady s runId plan.aborts

theorem onRun_streams (runId : String) (m : Action StoredRun PyError α) :
    Keeps RunState.streams (onRun host runId m) := by
  intro s
  unfold final onRun
  cases s.runs.get? runId with
  | none => rfl
  | some record => rfl

/-- The commit of a Run that has ended is refused. -/
theorem not_committed_of_ended
    (h : s.Ended runId) : onRun host runId (applyCommit host commit) s ≠ (.ok (), s') := by
  intro heq
  obtain ⟨record, record', hget, hcommit, -⟩ := onRun_eq_ok host heq
  obtain ⟨ended, hended, hstatus⟩ := h
  rw [hget] at hended
  cases hended
  exact hstatus (applyCommit_running host hcommit)

theorem AbortsReady.of_streams (h : AbortsReady s runId aborts)
    (hstreams : s'.streams = s.streams) : AbortsReady s' runId aborts := by
  refine ⟨h.nodup, fun draft hdraft => ?_⟩
  rw [hstreams]
  exact h.opened draft hdraft

variable {control : Bool}

variable {events : List AgentOutputEvent}

/-- The three stages of a lifecycle commit that went through. -/
theorem applyFresh_stages {plan : LifecyclePlan}
    (h : applyLifecycle host writer runId commit control (.fresh plan) s = (.ok events, s')) :
    ∃ s₁ s₂, onRun host runId (applyCommit host commit) s = (.ok (), s₁) ∧
      appendAll host writer (lifecycleMode plan.final control) (plan.drafts.length + 1)
        plan.drafts s₁ = (.ok events, s₂) ∧
      plan.aborts.forM (closeAborted host) s₂ = (.ok (), s') := by
  obtain ⟨_, s₁, hcommit, h⟩ := Action.bind_eq_ok.1 h
  obtain ⟨_, s₂, happend, h⟩ := Action.bind_eq_ok.1 h
  obtain ⟨_, s₃, hclose, h⟩ := Action.bind_eq_ok.1 h
  cases h
  exact ⟨s₁, s₂, hcommit, happend, hclose⟩

theorem committed_streams (h : onRun host runId (applyCommit host commit) s = (.ok (), s')) :
    s'.streams = s.streams := by
  have hkept := onRun_streams host runId (applyCommit host commit) s
  unfold final at hkept
  rwa [h] at hkept

theorem appendAll_eq_streams {mode : AgentOutputEventDraft → AppendMode}
    {reading : Nat} {drafts : List AgentOutputEventDraft}
    (h : appendAll host writer mode reading drafts s = (.ok events, s')) :
    s'.streams = s.streams := by
  have hkept := appendAll_streams host writer mode reading drafts s
  unfold final at hkept
  rwa [h] at hkept

variable {prepared : Prepared}

theorem applyLifecycle_moves (h : prepared.Ready s runId) :
    MovesFrom (Write host) s (applyLifecycle host writer runId commit control prepared) := by
  cases prepared with
  | replay events => exact movesFrom_pure _
  | fresh plan =>
    refine movesFrom_bind (onRun_moves host fun record _ => applyCommit_follows host commit record)
      fun _ s₁ hcommit => ?_
    have hready : AbortsReady s runId plan.aborts :=
      h.resolve_left fun hended => not_committed_of_ended host hended hcommit
    refine movesFrom_bind (appendAll_moves host writer _ _ _ s₁) fun _ s₂ happend => ?_
    have hstreams : s₂.streams = s.streams :=
      (appendAll_eq_streams host happend).trans (committed_streams host hcommit)
    exact movesFrom_bind (closeAborts_moves host (hready.of_streams hstreams))
      fun _ _ _ => movesFrom_pure _

/-! ## What is prepared can be applied -/

theorem mem_openStreams :
    stream ∈ openStreams s runId ↔
      stream ∈ s.streams.values ∧ stream.spec.runId = runId ∧ stream.status = .opened := by
  unfold openStreams
  rw [List.mem_filter, List.mem_mergeSort]
  simp

theorem streamIds_nodup (hkeyed : s.Keyed) :
    (s.streams.values.map (·.spec.outputStreamId)).Nodup := by
  have hkeys : s.streams.values.map (·.spec.outputStreamId) = s.streams.keys := by
    unfold Dict.values Dict.keys
    rw [List.map_map]
    refine List.map_congr_left fun p hp => ?_
    exact hkeyed p.1 p.2 (Dict.mem_entries_iff.1 hp)
  rw [hkeys]
  exact s.streams.nodup

theorem openStreams_nodup (hkeyed : s.Keyed) (runId : String) :
    ((openStreams s runId).map (·.spec.outputStreamId)).Nodup := by
  unfold openStreams
  refine List.Nodup.sublist (List.Sublist.map _ List.filter_sublist) ?_
  exact ((List.mergeSort_perm _ _).map _).nodup_iff.2 (streamIds_nodup hkeyed)

theorem terminalAbortDrafts_ready (hkeyed : s.Keyed) (runId : String)
    (status : Option RunStatus) (now : Int) :
    AbortsReady s runId (terminalAbortDrafts s runId status now) := by
  cases status with
  | none => exact ⟨List.nodup_nil, fun _ h => absurd h List.not_mem_nil⟩
  | some status =>
    constructor
    · have hnd := openStreams_nodup hkeyed runId
      have heq : ((terminalAbortDrafts s runId (some status) now).map (·.outputStreamId)) =
          ((openStreams s runId).map (·.spec.outputStreamId)).map some := by
        simp [terminalAbortDrafts, terminalStreamAbortDraft, streamDraft, List.map_map,
          Function.comp_def]
      rw [heq]
      exact hnd.map (Option.some_injective _)
    · intro draft hdraft
      obtain ⟨stream, hmem, rfl⟩ := List.mem_map.1 hdraft
      obtain ⟨hvalue, hrun, hopen⟩ := mem_openStreams.1 hmem
      obtain ⟨id, hget⟩ := Dict.mem_values_iff.1 hvalue
      refine ⟨id, stream, ?_, hget, hopen, hrun⟩
      rw [← hkeyed id stream hget]
      rfl

/-- What a new lifecycle commit was checked for. -/
structure LifecyclePlan.Checked (writer : Writer) (s : RunState) (runId : String)
    (record : StoredRun) (commit : RunCommit) (draft : RunLifecycleOutputDraft RunStatus)
    (related final : List AgentOutputEventDraft) (control : Bool)
    (operations : List AgentOutputEventDraft) (plan : LifecyclePlan) : Prop where
  operations_eq : operationAborts host s runId (commit.terminalStatus.getD .running)
    draft.occurredAt = .ok operations
  aborts_eq : plan.aborts = terminalAbortDrafts s runId commit.terminalStatus draft.occurredAt
  final_eq : plan.final = final
  drafts_eq : plan.drafts = atomicDrafts operations related
    (validatedDraft runId draft.turnId commit draft.occurredAt) final plan.aborts
    (lifecycleDraft runId draft.turnId draft.sourceEventKey draft.payload draft.occurredAt)
  new : anyExisting host s plan.drafts.dropLast = .ok false
  valid : validateAll host writer s final control 1 plan.drafts = .ok ()
  budget : requireProviderOutputBudget host s runId record (totalCost host plan.drafts) = .ok ()

theorem planLifecycle_checked {draft : RunLifecycleOutputDraft RunStatus}
    {final : List AgentOutputEventDraft} {plan : LifecyclePlan}
    (h : planLifecycle host writer s runId record commit draft
      (validatedDraft runId draft.turnId commit draft.occurredAt) related final
      (lifecycleDraft runId draft.turnId draft.sourceEventKey draft.payload draft.occurredAt)
      control = .ok plan) :
    ∃ operations, plan.Checked host writer s runId record commit draft related final control
      operations := by
  obtain ⟨operations, hoperations, h⟩ := bind_eq_ok h
  obtain ⟨partly, hpartly, h⟩ := bind_eq_ok h
  obtain ⟨_, hnew, h⟩ := bind_eq_ok h
  obtain ⟨_, hvalid, h⟩ := bind_eq_ok h
  obtain ⟨_, hbudget, h⟩ := bind_eq_ok h
  cases h
  rw [Bool.eq_false_iff.2 (rejectIf_eq_ok.1 hnew)] at hpartly
  exact ⟨operations, hoperations, rfl, rfl, rfl, hpartly, hvalid, hbudget⟩

/-- What a lifecycle commit was checked for before it was found to be new. -/
structure Prepares (writer : Writer) (s : RunState) (runId : String) (commit : RunCommit)
    (draft : RunLifecycleOutputDraft RunStatus) (control : Bool)
    (final : List AgentOutputEventDraft) (record : StoredRun)
    (existing : Option AgentOutputEvent) : Prop where
  lifecycle : validateRunCommitLifecycle commit = .ok ()
  final_eq : finalDrafts host s runId commit draft.occurredAt = .ok final
  run : requireRunWrite host writer 0 s runId control = .ok record
  existing_eq : existingEvent host s (lifecycleDraft runId draft.turnId draft.sourceEventKey
    draft.payload draft.occurredAt) = .ok existing

/-- A prepared commit is a replay, or a plan that was checked. -/
theorem prepareRunLifecycle_cases {draft : RunLifecycleOutputDraft RunStatus}
    (h : prepareRunLifecycle host writer s runId commit draft related control = .ok prepared) :
    ∃ final record,
      (∃ existing events, prepared = .replay events ∧
        Prepares host writer s runId commit draft control final record (some existing) ∧
        replayLifecycle host s runId commit record
          (validatedDraft runId draft.turnId commit draft.occurredAt) related final existing =
            .ok events) ∨
      ∃ plan operations, prepared = .fresh plan ∧
        Prepares host writer s runId commit draft control final record none ∧
        plan.Checked host writer s runId record commit draft related final control operations := by
  obtain ⟨_, hlifecycle, h⟩ := bind_eq_ok h
  obtain ⟨final, hfinal, h⟩ := bind_eq_ok h
  obtain ⟨_, _, h⟩ := bind_eq_ok h
  obtain ⟨record, hrun, h⟩ := bind_eq_ok h
  obtain ⟨existing, hexisting, h⟩ := bind_eq_ok h
  refine ⟨final, record, ?_⟩
  cases existing with
  | some event =>
    obtain ⟨events, hreplay, rfl⟩ := map_eq_ok h
    exact Or.inl ⟨event, events, rfl, ⟨hlifecycle, hfinal, hrun, hexisting⟩, hreplay⟩
  | none =>
    obtain ⟨plan, hplan, rfl⟩ := map_eq_ok h
    obtain ⟨operations, hchecked⟩ := planLifecycle_checked host hplan
    exact Or.inr ⟨plan, operations, rfl, ⟨hlifecycle, hfinal, hrun, hexisting⟩, hchecked⟩

theorem prepareRunLifecycle_ready {draft : RunLifecycleOutputDraft RunStatus} (hkeyed : s.Keyed)
    (h : prepareRunLifecycle host writer s runId commit draft related control = .ok prepared) :
    prepared.Ready s runId := by
  obtain ⟨final, record, ⟨existing, events, rfl, -, -⟩ | ⟨plan, operations, rfl, -, hchecked⟩⟩ :=
    prepareRunLifecycle_cases host h
  · trivial
  · refine Or.inr ?_
    rw [hchecked.aborts_eq]
    exact terminalAbortDrafts_ready hkeyed runId _ _

theorem commitRunLifecycle_moves (hkeyed : s.Keyed) (writer : Writer)
    (runId : String) (commit : RunCommit) (draft : RunLifecycleOutputDraft RunStatus)
    (related : List AgentOutputEventDraft) :
    MovesFrom (Write host) s (commitRunLifecycle host writer runId commit draft related) :=
  movesFrom_read_bind (movesFrom_ofExcept_bind fun _ hprepared =>
    applyLifecycle_moves host (prepareRunLifecycle_ready host hkeyed hprepared))

/-! ## Canceling child Runs -/

theorem RunCommit.eq_of_of {c : CommitFields} (h : RunCommit.of c = .ok commit) :
    commit.toCommitFields = c := by
  by_cases hv : c.Valid
  · rw [RunCommit.of_eq_ok hv] at h
    cases h
    rfl
  · obtain ⟨message, herror⟩ := RunCommit.of_error hv
    rw [herror] at h
    cases h

/-- A cancellation that can still be applied. -/
structure Cancellation.Ready (s : RunState) (cancellation : Cancellation) : Prop where
  prepared : cancellation.prepared.Ready s cancellation.runId
  terminal : cancellation.commit.terminalStatus = some .canceled

theorem cancellationCommit_terminal {reason : String}
    (h : cancellationCommit runId record reason = .ok commit) :
    commit.terminalStatus = some .canceled := by
  obtain ⟨_, _, h⟩ := bind_eq_ok h
  obtain ⟨_, _, h⟩ := bind_eq_ok h
  rw [RunCommit.eq_of_of h]

theorem prepareCancellation_ready {now : Int} {reason : String}
    {treeRun : TreeRun} {cancellation : Cancellation} (hkeyed : s.Keyed)
    (h : prepareCancellation host writer now reason s treeRun = .ok (some cancellation)) :
    cancellation.Ready s := by
  unfold prepareCancellation at h
  split at h
  · split at h
    · cases h
    obtain ⟨commit, hcommit, h⟩ := bind_eq_ok h
    obtain ⟨prepared, hprepared, h⟩ := bind_eq_ok h
    cases h
    exact ⟨prepareRunLifecycle_ready host hkeyed hprepared, cancellationCommit_terminal hcommit⟩
  · cases h

/-- Closing the streams of one Run leaves those of the others. -/
theorem closeAborts_other
    (hready : AbortsReady s runId aborts) (h : aborts.forM (closeAborted host) s = (.ok (), s'))
    (hget : s.streams.get? id = some stream) (hother : stream.spec.runId ≠ runId) :
    s'.streams.get? id = some stream := by
  induction aborts generalizing s with
  | nil =>
    cases h
    exact hget
  | cons draft rest ih =>
    obtain ⟨id', closing, hid', hget', _, hrun⟩ := hready.opened draft (List.mem_cons_self ..)
    obtain ⟨_, s₁, hhead, hrest⟩ := Action.bind_eq_ok.1 h
    rw [closeAborted_apply host hid' hget'] at hhead
    cases hhead
    refine ih (hready.tail hid' _) hrest ?_
    unfold RunState.setStream
    rw [Dict.get?_set_of_ne]
    · exact hget
    · rintro rfl
      rw [hget'] at hget
      cases hget
      exact hother hrun

theorem RunState.Ended.of_persists (h : s.Ended runId)
    (hruns : RunsPersist s s') : s'.Ended runId := by
  obtain ⟨record, hget, hstatus⟩ := h
  obtain ⟨record', hget', hpersists⟩ := hruns runId record hget
  refine ⟨record', hget', ?_⟩
  rw [StoredRun.status_eq_of_outcome (hpersists.settled hstatus)]
  exact hstatus

/-- A Run whose terminal commit was written has ended. -/
theorem ended_of_committed {status : RunStatus}
    (h : onRun host runId (applyCommit host commit) s = (.ok (), s'))
    (hstatus : commit.terminalStatus = some status) : s'.Ended runId := by
  obtain ⟨record, record', _, hcommit, rfl⟩ := onRun_eq_ok host h
  refine ⟨record', Dict.get?_set_self .., ?_⟩
  rw [applyCommit_status host hcommit hstatus]
  rintro rfl
  exact commit.valid.not_reopened hstatus

theorem moves_of_eq {m : Action RunState PyError α} {a : α}
    (hmoves : MovesFrom (Write host) s m) (h : m s = (.ok a, s')) :
    Relation.ReflTransGen (Write host) s s' := by
  unfold MovesFrom final at hmoves
  rwa [h] at hmoves

/-- A cancellation that was applied leaves the others applicable. -/
theorem Cancellation.Ready.after {applied other : Cancellation} (hready : applied.Ready s)
    (h : applyLifecycle host writer applied.runId applied.commit true applied.prepared s =
      (.ok events, s')) (hother : other.Ready s) : other.Ready s' := by
  refine ⟨?_, hother.terminal⟩
  have hmoves := moves_of_eq host (applyLifecycle_moves host hready.prepared) h
  have hruns := runsPersist_of_moves hmoves
  obtain ⟨runId, commit, prepared⟩ := applied
  obtain ⟨otherId, otherCommit, otherPrepared⟩ := other
  cases otherPrepared with
  | replay _ => trivial
  | fresh otherPlan =>
    rcases hother.prepared with hended | haborts
    · exact Or.inl (hended.of_persists hruns)
    cases prepared with
    | replay _ =>
      cases h
      exact Or.inr haborts
    | fresh plan =>
      obtain ⟨s₁, s₂, hcommit, happend, hclose⟩ := applyFresh_stages host h
      have hplan : AbortsReady s runId plan.aborts :=
        hready.prepared.resolve_left fun hended => not_committed_of_ended host hended hcommit
      have hstreams : s₂.streams = s.streams :=
        (appendAll_eq_streams host happend).trans (committed_streams host hcommit)
      have hplan₂ := hplan.of_streams hstreams
      by_cases hsame : otherId = runId
      · subst hsame
        have hended := ended_of_committed host hcommit hready.terminal
        have hafter := (runsPersist_of_moves (moves_of_eq host
          (appendAll_moves host writer _ _ _ s₁) happend)).trans
          (runsPersist_of_moves (moves_of_eq host (closeAborts_moves host hplan₂) hclose))
        exact Or.inl (hended.of_persists hafter)
      · refine Or.inr ⟨haborts.nodup, fun draft hdraft => ?_⟩
        obtain ⟨id, stream, hid, hget, hopen, hrun⟩ := haborts.opened draft hdraft
        refine ⟨id, stream, hid, ?_, hopen, hrun⟩
        refine closeAborts_other host hplan₂ hclose ?_ ?_
        · rw [hstreams]
          exact hget
        · rw [hrun]
          exact hsame

theorem cancellations_moves {cancellations : List Cancellation}
    (h : ∀ cancellation ∈ cancellations, cancellation.Ready s) :
    MovesFrom (Write host) s (cancellations.forM fun cancellation => do
      let _ ← applyLifecycle host writer cancellation.runId cancellation.commit true
        cancellation.prepared
      pure ()) := by
  induction cancellations generalizing s with
  | nil => exact movesFrom_pure ()
  | cons applied rest ih =>
    have hready := h applied (List.mem_cons_self ..)
    refine movesFrom_bind (movesFrom_bind (applyLifecycle_moves host hready.prepared)
      fun _ _ _ => movesFrom_pure ()) fun _ s' heq => ih fun other hother => ?_
    obtain ⟨events, _, happly, hpure⟩ := Action.bind_eq_ok.1 heq
    cases hpure
    exact hready.after host happly (h other (List.mem_cons_of_mem _ hother))

theorem cancelChildren_moves (hkeyed : s.Keyed) (writer : Writer) (now : Int)
    (treeRuns : List TreeRun) (reason : String) :
    MovesFrom (Write host) s (cancelChildren host writer now treeRuns reason) := by
  refine movesFrom_read_bind (movesFrom_ofExcept_bind fun prepared hprepared => ?_)
  refine cancellations_moves host fun cancellation hmem => ?_
  obtain ⟨found, hfound, rfl⟩ := List.mem_filterMap.1 hmem
  obtain ⟨treeRun, _, heq⟩ := mem_of_mapM_eq_ok hprepared hfound
  exact prepareCancellation_ready host hkeyed heq

/-! ## Steps -/

/-- **A step is a sequence of writes, or opens one stream.** -/
theorem step_writes (hkeyed : s.Keyed) (call : Writer × Operation) :
    Step host s (step host s call) := by
  obtain ⟨writer, operation⟩ := call
  unfold step
  cases operation with
  | begin params event =>
    simp only [Operation.run, final_map]
    exact .writes (begin_moves host writer params event s)
  | beginRunLifecycle now params event =>
    simp only [Operation.run, final_map]
    exact .writes (beginRunLifecycle_moves host writer now params event s)
  | commit runId change =>
    simp only [Operation.run, final_map]
    exact .writes (commit_moves host writer runId change s)
  | appendRunEvent runId event => exact .writes (appendRunEvent_moves host writer runId event s)
  | reserveModelAttempt runId invocationId =>
    simp only [Operation.run, final_map]
    exact .writes (reserveModelAttempt_moves host writer runId invocationId s)
  | openStream spec =>
    simp only [Operation.run, final_map]
    exact openStream_step host writer spec s
  | appendEvent draft =>
    simp only [Operation.run, final_map]
    exact .writes (appendEvent_moves host writer 0 draft {} s)
  | appendBatch drafts =>
    simp only [Operation.run, final_map]
    exact .writes (appendEvents_moves host writer drafts s)
  | commitRunLifecycle runId change draft related =>
    simp only [Operation.run, final_map]
    exact .writes (commitRunLifecycle_moves host hkeyed writer runId change draft related)
  | commitStream now id finishReason =>
    simp only [Operation.run, final_map]
    exact .writes (commitStream_moves host writer now id finishReason s)
  | abortStream now id errorCode =>
    simp only [Operation.run, final_map]
    exact .writes (abortStream_moves host writer now id errorCode s)
  | publishAsCommentary now id =>
    simp only [Operation.run, final_map]
    exact .writes (publishStreamContent_moves host commentaryPromotion writer now id s)
  | publishAsFinal now id =>
    simp only [Operation.run, final_map]
    exact .writes (publishStreamContent_moves host finalPromotion writer now id s)
  | cancelChildren now treeRuns reason =>
    exact .writes (cancelChildren_moves host hkeyed writer now treeRuns reason)

theorem keyed_step (hkeyed : s.Keyed) (call : Writer × Operation) :
    (step host s call).Keyed := by
  have hstep := step_writes host hkeyed call
  generalize step host s call = s' at hstep ⊢
  cases hstep with
  | writes h => exact keyed_of_moves h hkeyed
  | opened spec hnew => exact keyed_withStream hkeyed spec

theorem keyed_init : ({} : RunState).Keyed := by
  intro id stream h
  cases h

/-- A state some run of the methods reaches from empty tables. -/
def RunState.Reachable (s : RunState) : Prop :=
  ∃ run : List (Writer × Operation), s = exec (step host) {} run

theorem RunState.Reachable.keyed (h : s.Reachable host) : s.Keyed := by
  obtain ⟨run, rfl⟩ := h
  exact exec_induction_of_all (I := RunState.Keyed) (fun _ call hs => keyed_step host hs call) run
    keyed_init

/-- **The invariant rule.**  What every write keeps, and opening a stream keeps, holds in every
reachable state. -/
theorem RunState.Reachable.induction {I : RunState → Prop} (hinit : I {})
    (hwrite : ∀ s s', I s → Write host s s' → I s')
    (hopen : ∀ s spec, I s → s.streams.get? spec.outputStreamId = none → I (s.withStream spec))
    (h : s.Reachable host) : I s := by
  obtain ⟨run, rfl⟩ := h
  have hboth : (exec (step host) {} run).Keyed ∧ I (exec (step host) {} run) := by
    refine exec_induction_of_all (I := fun s => s.Keyed ∧ I s)
      (fun s call hs => ⟨keyed_step host hs.1 call, ?_⟩) run ⟨keyed_init, hinit⟩
    have hstep := step_writes host hs.1 call
    generalize step host s call = s' at hstep ⊢
    cases hstep with
    | writes hmoves =>
      have hI := hs.2
      clear hs
      induction hmoves with
      | refl => exact hI
      | tail _ hw ih => exact hwrite _ _ ih hw
    | opened spec hnew => exact hopen s spec hs.2 hnew
  exact hboth.2

end

end Purra.RunMemory
