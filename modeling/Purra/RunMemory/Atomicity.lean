import Purra.RunMemory.Commits
import Purra.RunMemory.Prepared
import Purra.RunState.History

/-!
# Commits are all or nothing

`commit` checks the Run, and then writes the parts of a record with checks in between.
It leaves a failed commit without a trace exactly when `CommitFits`.

`commitRunLifecycle` first prepares: it checks every event it will append, on the state it
finds.  Then it writes the record, appends the events and closes the streams.  What can
still fail is the commit to the record, and an event that was checked before the record
and the events in front of it were written (`TurnAccepted`): one that takes the key of
another, a planning event whose Run ended or whose operation moved on, or any event when
the lease of the writer has lapsed.  `LifecycleFits` says when this does no harm.

`commits_atomic` has these conditions; `commit_torn` is a commit that fails half way.
-/

namespace Purra.RunMemory

open Contracts Output Purra.Action

/-! ## Records of reachable states -/

/-- Every record has the steps of its plan. -/
def RunState.AllPlanned (s : RunState) : Prop :=
  ∀ runId record, s.runs.get? runId = some record → record.Planned

theorem allPlanned_set {s s' : RunState} {runId : String} {record : StoredRun} (h : s.AllPlanned)
    (hrecord : record.Planned) (hs' : s'.runs = s.runs.set runId record) : s'.AllPlanned := by
  intro other found hget
  rw [hs', Dict.get?_set] at hget
  split at hget
  · cases hget
    exact hrecord
  · exact h other found hget

section

variable {host : Host} {s s' : RunState}

theorem Write.allPlanned (hw : Write host s s') (h : s.AllPlanned) : s'.AllPlanned := by
  cases hw with
  | counted => exact h
  | @began runId params event hnew hscope =>
    have hrecord : StoredRun.Planned { params, events := [event] } := rfl
    exact allPlanned_set h hrecord rfl
  | recorded hrun hfollows => exact allPlanned_set h (hfollows.planned (h _ _ hrun)) rfl
  | @reserved _ record invocation hrun hbudget =>
    have hrecord : (record.withAttempt invocation).Planned := h _ record hrun
    exact allPlanned_set h hrecord rfl
  | @appended draft run hrun hnew =>
    have hrecord : (run.charged (providerOutputCost host draft)).Planned := h _ run hrun
    exact allPlanned_set h hrecord rfl
  | closed => exact h

theorem RunState.Reachable.allPlanned (h : s.Reachable host) : s.AllPlanned :=
  h.induction (I := RunState.AllPlanned) host (fun _ _ hget => by cases hget)
    (fun _ _ hs hw => hw.allPlanned hs) fun _ _ hs _ => hs

/-! ## Commits -/

/-- The state with the record of a Run replaced. -/
def RunState.withRun (s : RunState) (runId : String) (record : StoredRun) : RunState :=
  { s with runs := s.runs.set runId record }

theorem RunState.withRun_self {runId : String} {record : StoredRun}
    (h : s.runs.get? runId = some record) : s.withRun runId record = s := by
  unfold withRun
  rw [Dict.set_of_get? h]

theorem RunState.withRun_inj {runId : String} {record record' : StoredRun}
    (h : s.withRun runId record = s.withRun runId record') : record = record' := by
  have hget := congrArg (fun t => t.runs.get? runId) h
  unfold withRun at hget
  simpa using hget

theorem onRun_apply {runId : String} {record : StoredRun} (h : s.runs.get? runId = some record)
    {α : Type} (m : Action StoredRun PyError α) :
    onRun host runId m s = ((m record).1, s.withRun runId (m record).2) := by
  unfold onRun RunState.withRun
  rw [h]

end

section

variable (host : Host) (writer : Writer) (s : RunState) (runId : String)

/-- `commit` writes the whole commit, or raises and leaves the state as it was. -/
def CommitAtomic (change : RunCommit) : Prop :=
  (∃ record, s.runs.get? runId = some record ∧ commit host writer runId change s =
      (.ok change.events, s.withRun runId (record.applied change))) ∨
    ∃ e, commit host writer runId change s = (.error e, s)

/-- The condition on a commit that passes the checks in front of it. -/
def CommitCallFits (change : RunCommit) : Prop :=
  validateRunCommitLifecycle change = .ok () → checkCheckpointRun runId change = .ok () →
    ∀ record, requireRunWrite host writer 0 s runId = .ok record → record.status = .running →
      CommitFits host record change

variable {host writer s runId}

/-- A commit to a record, lifted to the tables. -/
theorem onRun_atomic_iff {record : StoredRun} (hget : s.runs.get? runId = some record)
    (change : RunCommit) :
    (onRun host runId (applyCommit host change) s =
          (.ok (), s.withRun runId (record.applied change)) ∨
        ∃ e, onRun host runId (applyCommit host change) s = (.error e, s)) ↔
      (applyCommit host change record = (.ok (), record.applied change) ∨
        ∃ e, applyCommit host change record = (.error e, record)) := by
  rw [onRun_apply hget]
  have hself : s = s.withRun runId record := (s.withRun_self hget).symm
  refine or_congr ?_ (exists_congr fun e => ?_)
  · constructor
    · intro h
      exact Prod.ext (Prod.mk.inj h).1 (RunState.withRun_inj (Prod.mk.inj h).2)
    · intro h
      rw [h]
  · constructor
    · intro h
      refine Prod.ext (Prod.mk.inj h).1 (RunState.withRun_inj (s := s) ((Prod.mk.inj h).2.trans ?_))
      exact hself
    · intro h
      rw [h]
      exact Prod.ext rfl hself.symm

/-- A commit that is refused by a check in front of it. -/
theorem commitAtomic_of_refused {change : RunCommit} {e : PyError}
    (h : commit host writer runId change s = (.error e, s)) :
    CommitAtomic host writer s runId change := Or.inr ⟨e, h⟩

theorem commit_atomic_iff (hplanned : s.AllPlanned) (change : RunCommit) :
    CommitAtomic host writer s runId change ↔ CommitCallFits host writer s runId change := by
  unfold CommitCallFits
  cases hvalid : validateRunCommitLifecycle change with
  | error e =>
    refine iff_of_true (commitAtomic_of_refused (e := e) ?_) fun h => by cases h
    unfold RunMemory.commit
    rw [hvalid]
    rfl
  | ok u =>
  cases hcheck : checkCheckpointRun runId change with
  | error e =>
    refine iff_of_true (commitAtomic_of_refused (e := e) ?_) fun _ h => by cases h
    unfold RunMemory.commit
    rw [hvalid, hcheck]
    rfl
  | ok u =>
  have hcommit : commit host writer runId change s = (do
      let s ← Action.read
      let _ ← Action.ofExcept (requireRunWrite host writer 0 s runId)
      onRun host runId (applyCommit host change)
      pure change.events) s := by
    unfold RunMemory.commit
    rw [hvalid, hcheck]
    rfl
  cases hrun : requireRunWrite host writer 0 s runId with
  | error e =>
    refine iff_of_true (commitAtomic_of_refused (e := e) ?_) fun _ _ _ h => by cases h
    rw [hcommit, read_bind_apply, hrun]
    rfl
  | ok record =>
  have hget := ((requireRunWrite_eq_ok host).1 hrun).1
  rw [read_bind_apply, hrun, ofExcept_ok_bind_apply, bind_apply] at hcommit
  by_cases hrunning : record.status = .running
  · -- the checks have passed, and what the call does is what the commit does to the record
    have hiff := (@onRun_atomic_iff host s runId record hget change).trans
      (applyCommit_atomic_iff host hrunning (hplanned runId record hget) change)
    have hcall : CommitAtomic host writer s runId change ↔
        onRun host runId (applyCommit host change) s =
            (.ok (), s.withRun runId (record.applied change)) ∨
          ∃ e, onRun host runId (applyCommit host change) s = (.error e, s) := by
      unfold CommitAtomic
      rw [hcommit]
      generalize onRun host runId (applyCommit host change) s = result
      obtain ⟨outcome, s'⟩ := result
      cases outcome with
      | ok u => simp [hget]
      | error e => simp
    rw [hcall, hiff]
    constructor
    · rintro h _ _ found hfound _
      cases hfound
      exact h
    · exact fun h => h rfl rfl record rfl hrunning
  · refine iff_of_true (commitAtomic_of_refused
      (e := violation "terminal run cannot accept another commit") ?_) ?_
    · rw [hcommit, onRun_apply hget, applyCommit_ended host hrunning, s.withRun_self hget]
    · rintro _ _ found hfound h
      cases hfound
      exact absurd h hrunning

/-! ## Lifecycle commits -/

variable (host s runId) in
/-- The drafts a new lifecycle commit appends, as the state before it gives them. -/
def LifecycleDrafts (change : RunCommit) (draft : RunLifecycleOutputDraft RunStatus)
    (related drafts : List AgentOutputEventDraft) : Prop :=
  ∃ operations final,
    operationAborts host s runId (change.terminalStatus.getD .running) draft.occurredAt =
        .ok operations ∧
      finalDrafts host s runId change draft.occurredAt = .ok final ∧
      drafts = atomicDrafts operations related
        (validatedDraft runId draft.turnId change draft.occurredAt) final
        (terminalAbortDrafts s runId change.terminalStatus draft.occurredAt)
        (lifecycleDraft runId draft.turnId draft.sourceEventKey draft.payload draft.occurredAt)

variable (host) in
/-- The record takes the commit: every update names one of its steps, and the checkpoint is
accepted. -/
def CommitGoes (record : StoredRun) (change : RunCommit) : Prop :=
  (∀ update ∈ change.stepUpdates, update.stepId ∈ stepIds record.steps) ∧
    ∀ checkpoint ∈ change.executionCheckpoint,
      acceptCheckpoint host.py host.loads record.executionCheckpoint checkpoint = .ok ()

/-- The Run of a commit, when the commit ends it. -/
def EndedBy (runId : String) (change : RunCommit) (id : String) : Prop :=
  id = runId ∧ change.terminalStatus.getD .running ≠ .running

variable (host writer s runId) in
/-- Every draft of a commit is accepted at its turn, behind the commit to the record; or the commit
writes nothing new, and a draft is refused before anything was appended. -/
def DraftsFit (record : StoredRun) (change : RunCommit) (drafts : List AgentOutputEventDraft) :
    Prop :=
  (∀ before appended after, drafts = before ++ appended :: after →
    TurnAccepted host writer s (EndedBy runId change) (drafts.length + 1 + before.length) before
      appended) ∨
  record.applied change = record ∧ ∃ before appended after, drafts = before ++ appended :: after ∧
    newDrafts s before = [] ∧ ¬ TurnAccepted host writer s (EndedBy runId change)
      (drafts.length + 1 + before.length) before appended

variable (host writer s runId) in
/-- The condition on a lifecycle commit that is new, and passes its checks: the commit to the record
is all or nothing, and when the record takes it, its drafts fit. -/
def LifecycleFits (change : RunCommit) (draft : RunLifecycleOutputDraft RunStatus)
    (related : List AgentOutputEventDraft) : Prop :=
  ∀ plan, prepareRunLifecycle host writer s runId change draft related false = .ok (.fresh plan) →
    ∀ record, s.runs.get? runId = some record → record.status = .running →
      CommitFits host record change ∧
        (CommitGoes host record change → DraftsFit host writer s runId record change plan.drafts)

/-- A stream as a lifecycle commit leaves it. -/
def closedWith (runId : String) (change : RunCommit) (stream : StoredStream) : StoredStream :=
  if change.terminalStatus ≠ none ∧ stream.spec.runId = runId ∧ stream.status = .opened then
    stream.terminalized
  else stream

variable (s runId) in
/-- A whole lifecycle commit: the commit to the record, the new events at the end of the journals
of their Runs, and the open streams of a Run that ends. -/
structure LifecycleApplied (s' : RunState) (change : RunCommit)
    (drafts : List AgentOutputEventDraft) : Prop where
  record : ∃ record cost, s.runs.get? runId = some record ∧ record.status = .running ∧
    s'.runs.get? runId = some ((record.applied change).charged cost)
  others : ∀ other record, other ≠ runId → s.runs.get? other = some record →
    ∃ cost, s'.runs.get? other = some (record.charged cost)
  journal : ∀ other, ∃ appended, s'.eventsOf other = s.eventsOf other ++ appended ∧
    appended.map (·.toAgentOutputEventDraft) =
      (newDrafts s drafts).filter fun d => d.runId = other
  streams : ∀ id, s'.streams.get? id = (s.streams.get? id).map (closedWith runId change)

variable (host writer s runId) in
/-- `commitRunLifecycle` writes the whole commit, finds it in the journal, or raises; in the last
two cases the state is as it was. -/
def LifecycleAtomic (change : RunCommit) (draft : RunLifecycleOutputDraft RunStatus)
    (related : List AgentOutputEventDraft) : Prop :=
  (∃ events s', commitRunLifecycle host writer runId change draft related s = (.ok events, s') ∧
      s.eventsBySourceKey.get? draft.sourceEventKey = none ∧
      ∃ drafts, LifecycleDrafts host s runId change draft related drafts ∧
        LifecycleApplied s runId s' change drafts) ∨
    (∃ events, commitRunLifecycle host writer runId change draft related s = (.ok events, s) ∧
      (s.eventsBySourceKey.get? draft.sourceEventKey).isSome = true) ∨
    ∃ e, commitRunLifecycle host writer runId change draft related s = (.error e, s)

/-! ## What a prepared commit was checked for -/

theorem anyExisting_eq_false {drafts : List AgentOutputEventDraft}
    (h : anyExisting host s drafts = .ok false) :
    ∀ appended ∈ drafts, s.eventsBySourceKey.get? appended.sourceEventKey = none := by
  induction drafts with
  | nil => exact fun _ hd => absurd hd List.not_mem_nil
  | cons first rest ih =>
    obtain ⟨existing, hexisting, h⟩ := bind_eq_ok h
    cases existing with
    | some event => cases h
    | none => exact List.forall_mem_cons.2 ⟨(existingEvent_eq_none host).1 hexisting, ih h⟩

theorem validateAll_eq_ok {final drafts : List AgentOutputEventDraft} {control : Bool}
    {reading : Nat} (h : validateAll host writer s final control reading drafts = .ok ()) :
    ∀ appended ∈ drafts, ∃ i run, validateNewEvent host writer i s appended
      (final.any appended.pyEq) control = .ok run := by
  induction drafts generalizing reading with
  | nil => exact fun _ hd => absurd hd List.not_mem_nil
  | cons first rest ih =>
    obtain ⟨run, hrun, h⟩ := bind_eq_ok h
    exact List.forall_mem_cons.2 ⟨⟨reading, run, hrun⟩, ih h⟩

variable {record : StoredRun} {change : RunCommit} {draft : RunLifecycleOutputDraft RunStatus}
  {related final operations : List AgentOutputEventDraft} {control : Bool} {plan : LifecyclePlan}

theorem LifecyclePlan.Checked.lifecycleDrafts
    (h : plan.Checked host writer s runId record change draft related final control operations)
    (hprepares : Prepares host writer s runId change draft control final record none) :
    LifecycleDrafts host s runId change draft related plan.drafts :=
  ⟨operations, final, h.operations_eq, hprepares.final_eq, by rw [h.drafts_eq, h.aborts_eq]⟩

/-- The keys of a new lifecycle commit are all free. -/
theorem LifecyclePlan.Checked.free
    (h : plan.Checked host writer s runId record change draft related final control operations)
    (hprepares : Prepares host writer s runId change draft control final record none)
    {appended : AgentOutputEventDraft} (hmem : appended ∈ plan.drafts) :
    s.eventsBySourceKey.get? appended.sourceEventKey = none := by
  have hsplit : plan.drafts = plan.drafts.dropLast ++ [lifecycleDraft runId draft.turnId
      draft.sourceEventKey draft.payload draft.occurredAt] := by
    rw [h.drafts_eq]
    unfold atomicDrafts
    rw [List.dropLast_concat]
  rw [hsplit, List.mem_append, List.mem_singleton] at hmem
  rcases hmem with hmem | rfl
  · exact anyExisting_eq_false h.new appended hmem
  · exact (existingEvent_eq_none host).1 hprepares.existing_eq

/-- The appends of a commit find the tables as they were, but for the Run it has ended. -/
theorem resumes_withRun (hget : s.runs.get? runId = some record)
    (hrunning : record.status = .running) :
    Resumes s (s.withRun runId (record.applied change)) (EndedBy runId change) := by
  refine ⟨rfl, fun _ => rfl, rfl, fun other run hother => ?_⟩
  unfold RunState.withRun EndedBy
  rw [Dict.get?_set]
  by_cases hid : other = runId
  · subst hid
    rw [hget] at hother
    cases hother
    rw [if_pos rfl]
    refine ⟨_, rfl, applied_params record change, ?_⟩
    rw [applied_status, hrunning]
    simp
  · rw [if_neg hid]
    exact ⟨run, hother, rfl, by simp [hid]⟩

/-- After the commit to the record, a draft goes through at its turn exactly when it is accepted
then. -/
theorem LifecyclePlan.Checked.turn_iff
    (h : plan.Checked host writer s runId record change draft related final false operations)
    (hprepares : Prepares host writer s runId change draft false final record none)
    (hrunning : record.status = .running) (before : List AgentOutputEventDraft)
    (appended : AgentOutputEventDraft) (after : List AgentOutputEventDraft)
    (hsplit : plan.drafts = before ++ appended :: after) (now : RunState)
    (hnow : Extended (s.withRun runId (record.applied change)) now (newDrafts s before))
    (reading : Nat) :
    (∃ event next, appendEvent host writer reading appended
        (lifecycleMode plan.final false appended) now = (.ok event, next)) ↔
      TurnAccepted host writer s (EndedBy runId change) reading before appended := by
  have hmem : appended ∈ plan.drafts := by simp [hsplit]
  have hget := ((requireRunWrite_eq_ok host).1 hprepares.run).1
  have hvalid := validateAll_eq_ok h.valid appended hmem
  rw [h.final_eq]
  exact appendEvent_turn_iff host (resumes_withRun hget hrunning) rfl rfl
    (Or.inr ⟨(existingEvent_eq_none host).2 (h.free hprepares hmem), hvalid⟩) hnow

/-! ## Closing streams -/

/-- The streams of the aborts are closed, and nothing else is touched. -/
theorem closeAborts_apply {aborts : List AgentOutputEventDraft} (h : AbortsReady s runId aborts) :
    ∃ streams, aborts.forM (closeAborted host) s = (.ok (), { s with streams }) ∧
      ∀ id, streams.get? id = (s.streams.get? id).map fun stream =>
        if some id ∈ aborts.map (·.outputStreamId) then stream.terminalized else stream := by
  induction aborts generalizing s with
  | nil => exact ⟨s.streams, rfl, fun id => by simp⟩
  | cons abort rest ih =>
    obtain ⟨id, stream, hid, hget, -, -⟩ := h.opened abort (List.mem_cons_self ..)
    obtain ⟨streams, hrest, hstreams⟩ := ih (h.tail hid stream.terminalized)
    have hnew : some id ∉ rest.map (·.outputStreamId) := by
      have hnodup := h.nodup
      rw [List.map_cons, List.nodup_cons, hid] at hnodup
      exact hnodup.1
    refine ⟨streams, ?_, fun other => ?_⟩
    · show (closeAborted host abort >>= fun _ => rest.forM (closeAborted host)) s = _
      rw [bind_apply, closeAborted_apply host hid hget]
      exact hrest
    · rw [hstreams other]
      unfold RunState.setStream
      rw [Dict.get?_set, List.map_cons, hid]
      by_cases hother : other = id
      · subst hother
        rw [if_pos rfl, hget]
        simp [hnew]
      · rw [if_neg hother]
        simp [hother]

/-- A stream is named by the aborts of a commit when it is one that the commit closes. -/
theorem mem_aborts_iff (hkeyed : s.Keyed) {id : String} {stream : StoredStream}
    (hget : s.streams.get? id = some stream) (occurredAt : Int) :
    some id ∈ (terminalAbortDrafts s runId change.terminalStatus occurredAt).map
        (·.outputStreamId) ↔
      change.terminalStatus ≠ none ∧ stream.spec.runId = runId ∧ stream.status = .opened := by
  constructor
  · intro h
    obtain ⟨abort, habort, hid⟩ := List.mem_map.1 h
    obtain ⟨terminal, found, hstatus, hfound, rfl⟩ := mem_terminalAbortDrafts habort
    obtain ⟨hvalue, hrun, hopen⟩ := mem_openStreams.1 hfound
    obtain ⟨key, hkey⟩ := Dict.mem_values_iff.1 hvalue
    have hsame : key = id := by
      rw [← hkeyed key found hkey]
      exact Option.some.inj hid
    subst hsame
    rw [hget] at hkey
    cases hkey
    rw [hstatus]
    exact ⟨Option.some_ne_none _, hrun, hopen⟩
  · rintro ⟨hterminal, hrun, hopen⟩
    cases hstatus : change.terminalStatus with
    | none => exact absurd hstatus hterminal
    | some terminal =>
      refine List.mem_map.2 ⟨terminalStreamAbortDraft stream.spec terminal occurredAt, ?_, ?_⟩
      · exact List.mem_map_of_mem
          (mem_openStreams.2 ⟨Dict.mem_values_iff.2 ⟨id, hget⟩, hrun, hopen⟩)
      · rw [← hkeyed id stream hget]
        rfl

theorem terminalAborts_apply (hkeyed : s.Keyed) {now : RunState} (hnow : now.streams = s.streams)
    (occurredAt : Int) : ∃ streams,
      (terminalAbortDrafts s runId change.terminalStatus occurredAt).forM (closeAborted host) now =
          (.ok (), { now with streams }) ∧
        ∀ id, streams.get? id = (s.streams.get? id).map (closedWith runId change) := by
  have hready := (terminalAbortDrafts_ready hkeyed runId change.terminalStatus occurredAt).of_streams
    hnow
  obtain ⟨streams, happly, hstreams⟩ := @closeAborts_apply host _ _ _ hready
  refine ⟨streams, happly, fun id => ?_⟩
  rw [hstreams id, hnow]
  cases hget : s.streams.get? id with
  | none => rfl
  | some stream =>
    rw [Option.map_some, Option.map_some]
    unfold closedWith
    simp only [mem_aborts_iff hkeyed hget]

/-! ## The whole commit -/

/-- A checked commit is applied as a whole, once the record has taken it and the drafts have been
appended. -/
theorem LifecyclePlan.Checked.applied
    (h : plan.Checked host writer s runId record change draft related final false operations)
    (hprepares : Prepares host writer s runId change draft false final record none)
    (hkeyed : s.Keyed) (hrunning : record.status = .running)
    (hrecord : applyCommit host change record = (.ok (), record.applied change))
    {events : List AgentOutputEvent} {now : RunState}
    (happend : appendAll host writer (lifecycleMode plan.final false) (plan.drafts.length + 1)
      plan.drafts (s.withRun runId (record.applied change)) = (.ok events, now))
    (hextended : Extended (s.withRun runId (record.applied change)) now (newDrafts s plan.drafts)) :
    ∃ s', applyLifecycle host writer runId change false (.fresh plan) s = (.ok events, s') ∧
      LifecycleApplied s runId s' change plan.drafts := by
  have hget := ((requireRunWrite_eq_ok host).1 hprepares.run).1
  obtain ⟨streams, hclose, hstreams⟩ := @terminalAborts_apply host s runId change
    hkeyed now hextended.streams draft.occurredAt
  refine ⟨{ now with streams }, ?_, ?_⟩
  · unfold applyLifecycle
    dsimp only
    rw [bind_apply, onRun_apply hget, hrecord]
    dsimp only
    rw [bind_apply, happend]
    dsimp only
    rw [bind_apply, h.aborts_eq, hclose]
    rfl
  · refine ⟨?_, fun other found hne hfound => ?_, fun other => ?_, hstreams⟩
    · obtain ⟨cost, hcost⟩ := hextended.runs runId (record.applied change) (Dict.get?_set_self ..)
      exact ⟨record, cost, hget, hrunning, hcost⟩
    · refine hextended.runs other found ?_
      unfold RunState.withRun
      rw [Dict.get?_set_of_ne hne]
      exact hfound
    · obtain ⟨appended, happended⟩ := hextended.events other
      refine ⟨appended, happended.symm, ?_⟩
      have hdrafts := hextended.drafts other
      unfold RunState.draftsOf at hdrafts
      rw [← happended, List.map_append] at hdrafts
      exact List.append_cancel_left hdrafts

/-- A commit that was prepared as a new one, and raised: it is all or nothing when it changed
nothing. -/
theorem lifecycleAtomic_of_error {s' : RunState} {e : PyError}
    (hcall : commitRunLifecycle host writer runId change draft related s = (.error e, s')) :
    LifecycleAtomic host writer s runId change draft related ↔ s' = s := by
  unfold LifecycleAtomic
  rw [hcall]
  constructor
  · rintro (⟨_, _, hok, -⟩ | ⟨_, hok, -⟩ | ⟨_, herror⟩)
    · cases hok
    · cases hok
    · exact (Prod.mk.inj herror).2
  · exact fun hsame => Or.inr (Or.inr ⟨e, by rw [hsame]⟩)

/-- A new commit that its record refuses, which ends the call. -/
theorem lifecycleAtomic_of_refused {record' : StoredRun} {e : PyError}
    (hget : s.runs.get? runId = some record) (hrunning : record.status = .running)
    (hplanned : record.Planned)
    (hcall : commitRunLifecycle host writer runId change draft related s =
      applyLifecycle host writer runId change false (.fresh plan) s)
    (happly : applyCommit host change record = (.error e, record'))
    (hnot : ¬ CommitGoes host record change) :
    LifecycleAtomic host writer s runId change draft related ↔
      CommitFits host record change ∧
        (CommitGoes host record change → DraftsFit host writer s runId record change plan.drafts) := by
  have hraised : commitRunLifecycle host writer runId change draft related s =
      (.error e, s.withRun runId record') := by
    rw [hcall]
    unfold applyLifecycle
    dsimp only
    rw [bind_apply, onRun_apply hget, happly]
  rw [lifecycleAtomic_of_error hraised, and_iff_left fun hgoes => absurd hgoes hnot,
    ← applyCommit_atomic_iff host hrunning hplanned change, happly]
  constructor
  · intro hsame
    have hrecord : record' = record :=
      RunState.withRun_inj (hsame.trans (s.withRun_self hget).symm)
    exact Or.inr ⟨e, by rw [hrecord]⟩
  · rintro (hok | ⟨_, herror⟩)
    · cases hok
    · rw [(Prod.mk.inj herror).2, s.withRun_self hget]

/-- A new commit that passed its checks. -/
theorem LifecyclePlan.Checked.atomic_iff
    (h : plan.Checked host writer s runId record change draft related final false operations)
    (hprepares : Prepares host writer s runId change draft false final record none)
    (hkeyed : s.Keyed) (hplanned : s.AllPlanned) (hrunning : record.status = .running)
    (hcall : commitRunLifecycle host writer runId change draft related s =
      applyLifecycle host writer runId change false (.fresh plan) s) :
    LifecycleAtomic host writer s runId change draft related ↔
      CommitFits host record change ∧
        (CommitGoes host record change → DraftsFit host writer s runId record change plan.drafts) := by
  have hget := ((requireRunWrite_eq_ok host).1 hprepares.run).1
  have hnew : s.eventsBySourceKey.get? draft.sourceEventKey = none :=
    (existingEvent_eq_none host).1 hprepares.existing_eq
  have hfits := applyCommit_atomic_iff host hrunning (hplanned runId record hget) change
  have hcases := applyCommit_cases host hrunning (hplanned runId record hget) change
  have hrefused := fun {e : PyError} {record' : StoredRun} =>
    @lifecycleAtomic_of_refused host writer s runId record change draft related plan record' e hget
      hrunning (hplanned runId record hget) hcall
  generalize happly : applyCommit host change record = result at hcases hfits hrefused
  cases hcases with
  | stopped hsplit hbefore hunknown =>
    exact hrefused rfl fun hgoes => hunknown (hgoes.1 _ (by simp [hsplit]))
  | refused hknown hcheckpoint hrejected =>
    refine hrefused rfl fun hgoes => ?_
    have haccept := hgoes.2 _ hcheckpoint
    rw [hrejected] at haccept
    cases haccept
  | applied hknown haccept =>
    have hgoes : CommitGoes host record change := ⟨hknown, haccept⟩
    rw [and_iff_right (hfits.1 (Or.inl rfl)), imp_iff_right hgoes]
    unfold DraftsFit
    rcases @appendAll_turns host writer (plan.drafts.length + 1)
        (s.withRun runId (record.applied change)) plan.drafts (lifecycleMode plan.final false) _
        (fun before appended after hsplit now hnow =>
          h.turn_iff hprepares hrunning before appended after hsplit now hnow
            (plan.drafts.length + 1 + before.length)) with
      ⟨⟨events, now, happend, hextended, -⟩, hall⟩ |
      ⟨e, now, stop, happend, hextended, hsame, ⟨before, appended, after, hsplit, hnot⟩, hstop⟩
    · obtain ⟨s', hdone, happlied⟩ := h.applied hprepares hkeyed hrunning happly happend hextended
      exact iff_of_true (Or.inl ⟨events, s', hcall.trans hdone, hnew, plan.drafts,
        h.lifecycleDrafts hprepares, happlied⟩) (Or.inl hall)
    · -- the record was written, and then a draft was refused
      have hraised : commitRunLifecycle host writer runId change draft related s =
          (.error e, now) := by
        rw [hcall]
        unfold applyLifecycle
        dsimp only
        rw [bind_apply, onRun_apply hget, happly]
        dsimp only
        rw [bind_apply, happend]
      rw [lifecycleAtomic_of_error hraised,
        or_iff_right fun hall => hnot (hall before appended after hsplit)]
      have hstop' : (∃ before appended after, plan.drafts = before ++ appended :: after ∧
          newDrafts s before = [] ∧ ¬ TurnAccepted host writer s (EndedBy runId change)
            (plan.drafts.length + 1 + before.length) before appended) ↔ newDrafts s stop = [] := hstop
      rw [hstop']
      constructor
      · intro hback
        have hnil : newDrafts s stop = [] := hextended.eq_nil fun _ => by rw [hback]; rfl
        have hwritten : s.withRun runId (record.applied change) = s := (hsame hnil).symm.trans hback
        exact ⟨RunState.withRun_inj (hwritten.trans (s.withRun_self hget).symm), hnil⟩
      · rintro ⟨hrecord, hnil⟩
        rw [hsame hnil, hrecord, s.withRun_self hget]

/-- **A lifecycle commit is all or nothing exactly when it fits.** -/
theorem lifecycle_atomic_iff (hkeyed : s.Keyed) (hplanned : s.AllPlanned) :
    LifecycleAtomic host writer s runId change draft related ↔
      LifecycleFits host writer s runId change draft related := by
  have hcall : commitRunLifecycle host writer runId change draft related s =
      (Action.ofExcept (prepareRunLifecycle host writer s runId change draft related false) >>=
        applyLifecycle host writer runId change false) s := rfl
  unfold LifecycleFits
  cases hprepared : prepareRunLifecycle host writer s runId change draft related false with
  | error e =>
    refine iff_of_true (Or.inr (Or.inr ⟨e, ?_⟩)) fun _ h => by cases h
    rw [hcall, hprepared]
    rfl
  | ok prepared =>
    rw [hprepared, ofExcept_ok_bind_apply] at hcall
    obtain ⟨final, record, ⟨existing, events, rfl, hprepares, -⟩ |
      ⟨plan, operations, rfl, hprepares, hchecked⟩⟩ := prepareRunLifecycle_cases host hprepared
    · refine iff_of_true (Or.inr (Or.inl ⟨events, hcall, ?_⟩)) fun _ h => by cases h
      have hstored := hprepares.existing_eq
      by_contra hnone
      rw [Option.not_isSome_iff_eq_none] at hnone
      rw [(existingEvent_eq_none host).2 hnone] at hstored
      cases hstored
    · have hget := ((requireRunWrite_eq_ok host).1 hprepares.run).1
      by_cases hrunning : record.status = .running
      · rw [hchecked.atomic_iff hprepares hkeyed hplanned hrunning hcall]
        constructor
        · rintro h _ ⟨⟩ found hfound _
          rw [hget] at hfound
          cases hfound
          exact h
        · exact fun h => h plan rfl record hget hrunning
      · refine iff_of_true (Or.inr (Or.inr
          ⟨violation "terminal run cannot accept another commit", ?_⟩)) ?_
        · rw [hcall]
          unfold applyLifecycle
          dsimp only
          rw [bind_apply, onRun_apply hget, applyCommit_ended host hrunning, s.withRun_self hget]
        · rintro _ - found hfound h
          rw [hget] at hfound
          cases hfound
          exact absurd h hrunning

end

/-- **Commits are all or nothing exactly when they fit**, in every reachable state. -/
theorem commits_atomic (host : Host) (run : List (Writer × Operation)) (writer : Writer)
    (runId : String) (change : RunCommit) :
    let s := exec (step host) {} run
    (CommitAtomic host writer s runId change ↔ CommitCallFits host writer s runId change) ∧
      ∀ draft related, LifecycleAtomic host writer s runId change draft related ↔
        LifecycleFits host writer s runId change draft related := by
  intro s
  have hreachable : s.Reachable host := ⟨run, rfl⟩
  exact ⟨commit_atomic_iff hreachable.allPlanned change,
    fun _ _ => lifecycle_atomic_iff hreachable.keyed hreachable.allPlanned⟩

/-! ## Commits that are torn -/

/-- A Run that has just begun. -/
def begunRun : List (Writer × Operation) :=
  [({}, .beginRunLifecycle 0 { requestedRunId := some "run" } { type := CoreEventType.runStarted })]

/-- The same Run, with a plan of two steps. -/
def plannedRun : List (Writer × Operation) :=
  begunRun ++ [(({} : Writer), .commit "run"
    ⟨{ replacePlan := some RunSample.gatherThenDraft },
      CommitFields.refusal_eq_none.1 (by decide +kernel)⟩)]

/-- An update of a step of the plan, and one of a step that is not there. -/
def strayCommit : RunCommit :=
  ⟨{ stepUpdates := [⟨.lit "gather" RunSample.gather_text, .done, none, none⟩,
      ⟨.lit "missing", .running, none, none⟩] },
    CommitFields.refusal_eq_none.1 (by decide +kernel)⟩

/-- A commit that ends a Run. -/
def doneCommit : RunCommit :=
  ⟨{ terminalStatus := some .done
     finalResponse := some "answer"
     events := [{ type := CoreEventType.terminal .done }] },
    CommitFields.refusal_eq_none.1 (by decide +kernel)⟩

/-- The canonical event of that commit. -/
def doneDraft : RunLifecycleOutputDraft RunStatus where
  sourceEventKey := "run:run:done"
  status := .done
  payload := []
  occurredAt := 5

/-- The first update is written, and then the second one is refused; and a Run is ended, and then
the end of its operation is refused, which the commit appends twice with different contents. -/
theorem commit_torn :
    ¬ CommitAtomic sampleHost {} (exec (step sampleHost) {} plannedRun) "run" strayCommit ∧
      ¬ LifecycleAtomic sampleHost {} (exec (step sampleHost) {} planningRun) "run" doneCommit
        doneDraft [planFinished] := by
  constructor
  · have hfails : (commit sampleHost {} "run" strayCommit
        (exec (step sampleHost) {} plannedRun)).1.isOk = false := by decide +kernel
    have hbefore : ((exec (step sampleHost) {} plannedRun).runs.get? "run").map
        (·.steps.map (·.status)) = some [.pending, .pending] := by decide +kernel
    have hafter : ((commit sampleHost {} "run" strayCommit
        (exec (step sampleHost) {} plannedRun)).2.runs.get? "run").map
          (·.steps.map (·.status)) = some [.done, .pending] := by decide +kernel
    rintro (⟨record, -, h⟩ | ⟨e, h⟩)
    · rw [h] at hfails
      cases hfails
    · rw [h, hbefore] at hafter
      cases hafter
  · have hfails : (commitRunLifecycle sampleHost {} "run" doneCommit doneDraft [planFinished]
        (exec (step sampleHost) {} planningRun)).1.isOk = false := by decide +kernel
    have hbefore : ((exec (step sampleHost) {} planningRun).runs.get? "run").map (·.status) =
        some .running := by decide +kernel
    have hafter : ((commitRunLifecycle sampleHost {} "run" doneCommit doneDraft [planFinished]
        (exec (step sampleHost) {} planningRun)).2.runs.get? "run").map (·.status) =
          some .done := by decide +kernel
    rintro (⟨events, s', h, -⟩ | ⟨events, h, -⟩ | ⟨e, h⟩)
    · rw [h] at hfails
      cases hfails
    · rw [h] at hfails
      cases hfails
    · rw [h, hbefore] at hafter
      cases hafter

end Purra.RunMemory
