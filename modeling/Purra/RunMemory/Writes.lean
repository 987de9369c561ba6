import Purra.RunMemory.Lifecycle

/-!
# What the repositories write

`Operation` names the methods of the two in-memory repositories that write, and `step`
runs one of them for a caller.

Whatever a method does, and whichever way it ends, it leaves its state through a few
kinds of writes: a counter, a new Run, a commit to the record of a Run, a reserved
attempt, an event at the end of the journal, a stream that closes.  `Write` lists them,
each with what the code has checked by then, and `step_writes` says that every step is a
sequence of them, or opens one stream.  The invariants of the later modules are proved
write by write.
-/

namespace Purra.RunMemory

open Contracts Output

/-! ## Operations -/

/-- The methods that write. -/
inductive Operation where
  | begin (params : RunCreateParams) (startedEvent : AgentEvent)
  | beginRunLifecycle (now : Int) (params : RunCreateParams) (startedEvent : AgentEvent)
  | commit (runId : String) (change : RunCommit)
  | appendRunEvent (runId : String) (event : AgentEvent)
  | reserveModelAttempt (runId invocationId : String)
  | openStream (spec : OutputStreamSpec)
  | appendEvent (draft : AgentOutputEventDraft)
  | appendBatch (drafts : List AgentOutputEventDraft)
  | commitRunLifecycle (runId : String) (change : RunCommit)
      (draft : RunLifecycleOutputDraft RunStatus) (related : List AgentOutputEventDraft)
  | commitStream (now : Int) (outputStreamId : String) (finishReason : ModelFinishReason)
  | abortStream (now : Int) (outputStreamId errorCode : String)
  | publishAsCommentary (now : Int) (outputStreamId : String)
  | publishAsFinal (now : Int) (outputStreamId : String)
  | cancelChildren (now : Int) (treeRuns : List TreeRun) (reason : String)

section

variable (host : Host)

/-- One call of a method, its result left aside. -/
def Operation.run (writer : Writer) : Operation → Action RunState PyError Unit
  | .begin params startedEvent => (fun _ => ()) <$> RunMemory.begin host writer params startedEvent
  | .beginRunLifecycle now params startedEvent =>
    (fun _ => ()) <$> RunMemory.beginRunLifecycle host writer now params startedEvent
  | .commit runId change => (fun _ => ()) <$> RunMemory.commit host writer runId change
  | .appendRunEvent runId event => RunMemory.appendRunEvent host writer runId event
  | .reserveModelAttempt runId invocationId =>
    (fun _ => ()) <$> RunMemory.reserveModelAttempt host writer runId invocationId
  | .openStream spec => (fun _ => ()) <$> RunMemory.openStream host writer spec
  | .appendEvent draft => (fun _ => ()) <$> RunMemory.appendEvent host writer 0 draft
  | .appendBatch drafts => (fun _ => ()) <$> appendEvents host writer drafts
  | .commitRunLifecycle runId change draft related =>
    (fun _ => ()) <$> RunMemory.commitRunLifecycle host writer runId change draft related
  | .commitStream now outputStreamId finishReason =>
    (fun _ => ()) <$> RunMemory.commitStream host writer now outputStreamId finishReason
  | .abortStream now outputStreamId errorCode =>
    (fun _ => ()) <$> RunMemory.abortStream host writer now outputStreamId errorCode
  | .publishAsCommentary now outputStreamId =>
    (fun _ => ()) <$> publishStreamContent host commentaryPromotion writer now outputStreamId
  | .publishAsFinal now outputStreamId =>
    (fun _ => ()) <$> publishStreamContent host finalPromotion writer now outputStreamId
  | .cancelChildren now treeRuns reason => RunMemory.cancelChildren host writer now treeRuns reason

/-- The state a call leaves, whether it returns or raises. -/
def step (s : RunState) (call : Writer × Operation) : RunState := (call.2.run host call.1).final s

/-! ## Writes -/

/-- The fields of a record that a terminal Run keeps. -/
structure Outcome where
  status : RunStatus
  steps : List TaskStep
  executionPlan : Option ExecutionPlan
  finalResponse : Option String
  validatedResult : Option String
  error : Option String
  executionCheckpoint : Option StoredCheckpoint

/-- What a record says about its Run. -/
def StoredRun.outcome (record : StoredRun) : Outcome :=
  ⟨record.status, record.steps, record.executionPlan, record.finalResponse,
    record.validatedResult, record.error, record.executionCheckpoint⟩

/-- The checkpoint of a record does not move back, and is not lost. -/
def StoredRun.Advances (record record' : StoredRun) : Prop :=
  ∀ checkpoint ∈ record.executionCheckpoint, ∃ checkpoint' ∈ record'.executionCheckpoint,
    checkpoint.fields.nextRound ≤ checkpoint'.fields.nextRound

/-- The steps of a record are those of its plan, but for what was reported of them; without a plan
there are none. -/
def StoredRun.Planned (record : StoredRun) : Prop :=
  stepRows record.steps = (record.executionPlan.map fun plan => stepRows plan.steps).getD []

/-- What a commit may do to a record: it keeps the parameters and the budgets, and a record that is
terminal says what it said. -/
structure StoredRun.Follows (record record' : StoredRun) : Prop where
  params : record'.params = record.params
  attempts : record'.modelAttemptIds = record.modelAttemptIds
  outputEvents : record'.providerOutputEvents = record.providerOutputEvents
  outputBytes : record'.providerOutputBytes = record.providerOutputBytes
  settled : record.status ≠ .running → record'.outcome = record.outcome
  advances : record.Advances record'
  planned : record.Planned → record'.Planned

/-- The record with one more attempt. -/
def StoredRun.withAttempt (record : StoredRun) (invocation : String) : StoredRun :=
  { record with modelAttemptIds := record.modelAttemptIds ++ [invocation] }

/-- The scope a new Run was given. -/
def RunState.Scoped (s : RunState) (runId : String) (params : RunCreateParams) : Prop :=
  ∃ rootRunId, params.rootRunId = some rootRunId ∧
    (rootRunId = runId ∨
      ∃ root, s.runs.get? rootRunId = some root ∧ root.scopeId rootRunId = rootRunId)

/-- One write to the tables. -/
inductive Write : RunState → RunState → Prop where
  | counted (s : RunState) : Write s { s with runCount := s.runCount + 1 }
  | began {s : RunState} {runId : String} {params : RunCreateParams} (event : AgentEvent)
      (hnew : s.runs.get? runId = none) (hscope : s.Scoped runId params) :
      Write s { s with runs := s.runs.set runId { params, events := [event] } }
  | recorded {s : RunState} {runId : String} {record record' : StoredRun}
      (hrun : s.runs.get? runId = some record) (hfollows : record.Follows record') :
      Write s { s with runs := s.runs.set runId record' }
  | reserved {s : RunState} {runId : String} {record : StoredRun} (invocation : String)
      (hrun : s.runs.get? runId = some record)
      (hbudget : requireAttemptBudget host s runId record = .ok ()) :
      Write s { s with runs := s.runs.set runId (record.withAttempt invocation) }
  | appended {s : RunState} {draft : AgentOutputEventDraft} {run : StoredRun}
      (hrun : s.runs.get? draft.runId = some run)
      (hnew : s.eventsBySourceKey.get? draft.sourceEventKey = none) :
      Write s (s.appended host draft run)
  | closed {s : RunState} {outputStreamId : String} {stream stream' : StoredStream}
      (hstream : s.streams.get? outputStreamId = some stream) (hopen : stream.status = .opened)
      (hspec : stream'.spec = stream.spec) (hclosed : stream'.status ≠ .opened) :
      Write s (s.setStream outputStreamId stream')

/-- The state after `open_stream` has opened a stream. -/
def RunState.withStream (s : RunState) (spec : OutputStreamSpec) : RunState :=
  { s with
    streams := s.streams.set spec.outputStreamId { spec }
    streamByInvocation := s.streamByInvocation.set spec.invocationId spec.outputStreamId }

/-- What one step does: it writes to what is there, or opens one stream. -/
inductive Step : RunState → RunState → Prop where
  | writes {s s' : RunState} (h : Relation.ReflTransGen (Write host) s s') : Step s s'
  | opened {s : RunState} (spec : OutputStreamSpec)
      (hnew : s.streams.get? spec.outputStreamId = none) : Step s (s.withStream spec)

end

/-! ## Commits to a record -/

/-- What the writes of a commit keep of a record. -/
structure StoredRun.Keeping (record record' : StoredRun) : Prop where
  params : record'.params = record.params
  attempts : record'.modelAttemptIds = record.modelAttemptIds
  outputEvents : record'.providerOutputEvents = record.providerOutputEvents
  outputBytes : record'.providerOutputBytes = record.providerOutputBytes
  advances : record.Advances record'
  planned : record.Planned → record'.Planned

namespace StoredRun

theorem Advances.refl (record : StoredRun) : record.Advances record :=
  fun checkpoint h => ⟨checkpoint, h, Nat.le_refl _⟩

theorem Advances.of_eq {record record' : StoredRun}
    (h : record'.executionCheckpoint = record.executionCheckpoint) : record.Advances record' := by
  intro checkpoint hc
  rw [← h] at hc
  exact ⟨checkpoint, hc, Nat.le_refl _⟩

theorem Advances.trans {a b c : StoredRun} (h : a.Advances b) (h' : b.Advances c) :
    a.Advances c := by
  intro checkpoint hc
  obtain ⟨second, hs, hle⟩ := h checkpoint hc
  obtain ⟨third, ht, hle'⟩ := h' second hs
  exact ⟨third, ht, hle.trans hle'⟩

theorem Keeping.refl (record : StoredRun) : record.Keeping record :=
  ⟨rfl, rfl, rfl, rfl, .refl record, fun h => h⟩

theorem Keeping.trans {a b c : StoredRun} (h : a.Keeping b) (h' : b.Keeping c) : a.Keeping c :=
  ⟨h'.params.trans h.params, h'.attempts.trans h.attempts, h'.outputEvents.trans h.outputEvents,
    h'.outputBytes.trans h.outputBytes, h.advances.trans h'.advances,
    fun hp => h'.planned (h.planned hp)⟩

theorem Keeping.of_moves {a b : StoredRun} (h : Relation.ReflTransGen Keeping a b) :
    a.Keeping b := by
  induction h with
  | refl => exact .refl a
  | tail _ h ih => exact ih.trans h

theorem Follows.refl (record : StoredRun) : record.Follows record :=
  ⟨rfl, rfl, rfl, rfl, fun _ => rfl, .refl record, fun h => h⟩

theorem Keeping.follows {record record' : StoredRun} (h : record.Keeping record')
    (hrunning : record.status = .running) : record.Follows record' :=
  ⟨h.params, h.attempts, h.outputEvents, h.outputBytes, fun hne => absurd hrunning hne,
    h.advances, h.planned⟩

end StoredRun

section

variable (host : Host)

open Purra.Action

/-- A write that leaves the budgets and the checkpoint alone. -/
theorem keeping_of_eq {record record' : StoredRun} (hparams : record'.params = record.params)
    (hattempts : record'.modelAttemptIds = record.modelAttemptIds)
    (hevents : record'.providerOutputEvents = record.providerOutputEvents)
    (hbytes : record'.providerOutputBytes = record.providerOutputBytes)
    (hcheckpoint : record'.executionCheckpoint = record.executionCheckpoint)
    (hplanned : record.Planned → record'.Planned) : record.Keeping record' :=
  ⟨hparams, hattempts, hevents, hbytes, .of_eq hcheckpoint, hplanned⟩

/-- An update changes what is reported of a step, not its place in the plan. -/
theorem stepRows_updated {steps : List TaskStep} {update : TaskStepUpdate} {index : Nat}
    {step : TaskStep} (h : steps[index]? = some step) :
    stepRows (steps.set index (updated update step)) = stepRows steps := by
  refine List.ext_getElem? fun i => ?_
  unfold stepRows
  rw [List.getElem?_map, List.getElem?_map, List.getElem?_set]
  split
  · rename_i hi
    subst hi
    split
    · rw [h]
      rfl
    · rename_i hout
      rw [List.getElem?_eq_none (not_lt.1 hout)]
  · rfl

theorem keeping_replaced (record : StoredRun) (commit : RunCommit) :
    record.Keeping (record.replaced commit) := by
  unfold StoredRun.replaced
  cases commit.replacePlan with
  | none => exact .refl record
  | some plan => exact keeping_of_eq rfl rfl rfl rfl rfl fun _ => rfl

theorem keeping_terminated (record : StoredRun) (commit : RunCommit) :
    record.Keeping (record.terminated commit) := by
  unfold StoredRun.terminated
  cases commit.terminalStatus with
  | none => exact .refl record
  | some status => exact keeping_of_eq rfl rfl rfl rfl rfl fun h => h

theorem applyUpdate_keeping (update : TaskStepUpdate) (record : StoredRun) :
    MovesFrom StoredRun.Keeping record (applyUpdate host update) := by
  refine movesFrom_read_bind ?_
  cases hfound : findFirst (fun step => step.id = update.stepId) record.steps with
  | none => exact movesFrom_raise _
  | some found =>
    obtain ⟨index, step⟩ := found
    have hrows : stepRows (record.steps.set index (updated update step)) = stepRows record.steps :=
      stepRows_updated (findFirst_eq_some.1 hfound).1
    exact movesFrom_write (keeping_of_eq rfl rfl rfl rfl rfl hrows.trans)

theorem refreshPlan_keeping (commit : RunCommit) (record : StoredRun) :
    MovesFrom StoredRun.Keeping record (refreshPlan commit) := by
  refine movesFrom_read_bind ?_
  cases record.executionPlan with
  | none => exact movesFrom_pure ()
  | some plan =>
    refine movesFrom_ite (fun _ => movesFrom_pure ()) fun _ =>
      movesFrom_ofExcept_bind fun refreshed hof => ?_
    refine movesFrom_write (keeping_of_eq rfl rfl rfl rfl rfl fun _ => ?_)
    show stepRows record.steps = stepRows refreshed.steps
    rw [(ExecutionPlan.of_eq_ok hof).2.1]

theorem installCheckpoint_keeping (commit : RunCommit) (record : StoredRun) :
    MovesFrom StoredRun.Keeping record (installCheckpoint host commit) := by
  unfold installCheckpoint
  cases commit.executionCheckpoint with
  | none => exact movesFrom_pure ()
  | some checkpoint =>
    refine movesFrom_read_bind (movesFrom_ofExcept_bind fun _ haccept => ?_)
    refine movesFrom_write
      ⟨rfl, rfl, rfl, rfl, fun current hcurrent => ⟨checkpoint, rfl, ?_⟩, fun h => h⟩
    rw [Option.mem_def] at hcurrent
    rw [hcurrent] at haccept
    exact acceptCheckpoint_nextRound host.py host.loads haccept

/-- A commit that fails on the way has still kept the budgets, and the round it was at. -/
theorem applyCommit_follows (commit : RunCommit) (record : StoredRun) :
    record.Follows ((applyCommit host commit).final record) := by
  unfold applyCommit
  rw [final_read_bind]
  by_cases hrunning : record.status = .running
  · rw [if_neg (not_not.2 hrunning)]
    refine StoredRun.Keeping.follows (.of_moves ?_) hrunning
    refine movesFrom_write_bind (keeping_replaced record commit) ?_
    refine movesFrom_bind (movesFrom_forM fun update _ record _ =>
      applyUpdate_keeping host update record) fun _ record _ => ?_
    refine movesFrom_bind (refreshPlan_keeping commit record) fun _ record _ => ?_
    refine movesFrom_write_bind (keeping_terminated record commit) ?_
    refine movesFrom_bind (installCheckpoint_keeping host commit _) fun _ record _ => ?_
    exact movesFrom_write (keeping_of_eq rfl rfl rfl rfl rfl fun h => h)
  · rw [if_pos hrunning]
    exact .refl record

/-! ## The methods of the run repository -/

variable {s : RunState}

/-- A change of one record, when it is one a commit may make. -/
theorem onRun_moves {runId : String} {α : Type} {m : Action StoredRun PyError α}
    (h : ∀ record, s.runs.get? runId = some record → record.Follows (m.final record)) :
    MovesFrom (Write host) s (onRun host runId m) := by
  unfold MovesFrom final onRun
  cases hrun : s.runs.get? runId with
  | none => exact .refl
  | some record => exact .single (.recorded hrun (h record hrun))

theorem commit_moves (writer : Writer) (runId : String) (change : RunCommit) (s : RunState) :
    MovesFrom (Write host) s (commit host writer runId change) := by
  refine movesFrom_ofExcept_bind fun _ _ => movesFrom_ofExcept_bind fun _ _ =>
    movesFrom_read_bind (movesFrom_ofExcept_bind fun _ _ => ?_)
  exact movesFrom_bind (onRun_moves host fun record _ => applyCommit_follows host change record)
    fun _ _ _ => movesFrom_pure _

theorem appendRunEvent_moves (writer : Writer) (runId : String) (event : AgentEvent)
    (s : RunState) : MovesFrom (Write host) s (appendRunEvent host writer runId event) := by
  refine movesFrom_read_bind (movesFrom_ofExcept_bind fun _ _ => onRun_moves host fun record _ => ?_)
  exact ⟨rfl, rfl, rfl, rfl, fun _ => rfl, .of_eq rfl, fun h => h⟩

theorem reserveModelAttempt_moves (writer : Writer) (runId invocationId : String) (s : RunState) :
    MovesFrom (Write host) s (reserveModelAttempt host writer runId invocationId) := by
  refine movesFrom_ofExcept_bind fun invocation _ =>
    movesFrom_read_bind (movesFrom_ofExcept_bind fun run hrun => ?_)
  have hget := ((requireRunWrite_eq_ok host).1 hrun).1
  refine movesFrom_ite (fun _ => movesFrom_pure _) fun _ =>
    movesFrom_ofExcept_bind fun _ hbudget => ?_
  refine movesFrom_bind ?_ fun _ _ _ => movesFrom_pure _
  unfold MovesFrom final onRun
  rw [hget]
  exact .single (.reserved invocation hget hbudget)

theorem chooseRunId_moves (params : RunCreateParams) (s : RunState) :
    MovesFrom (Write host) s (chooseRunId params) := by
  unfold chooseRunId
  cases params.requestedRunId with
  | some runId => exact movesFrom_pure _
  | none => exact movesFrom_write_bind (.counted s) .refl

/-- The scope that `_scoped_run_params` gives a new Run. -/
theorem scopedRunParams_eq_ok {writer : Writer} {runId : String}
    {params scopedParams : RunCreateParams}
    (h : scopedRunParams host writer s runId params = .ok scopedParams) :
    s.Scoped runId scopedParams := by
  obtain ⟨_, hcheck, h⟩ := bind_eq_ok h
  cases h
  refine ⟨_, rfl, ?_⟩
  by_cases hroot : params.rootRunId.getD runId = runId
  · exact Or.inl hroot
  · unfold checkScope at hcheck
    rw [if_pos hroot] at hcheck
    obtain ⟨root, hget, hcheck⟩ := bind_eq_ok hcheck
    obtain ⟨_, hown, _⟩ := bind_eq_ok hcheck
    exact Or.inr ⟨root, (requireRun_eq_ok host).1 hget, not_not.1 (rejectIf_eq_ok.1 hown)⟩

theorem begin_moves (writer : Writer) (params : RunCreateParams) (event : AgentEvent)
    (s : RunState) : MovesFrom (Write host) s (begin host writer params event) := by
  refine movesFrom_bind (chooseRunId_moves host params s) fun runId s _ => movesFrom_read_bind ?_
  refine movesFrom_ite (fun _ => movesFrom_raise _) fun hnew => movesFrom_ofExcept_bind
    fun scopedParams hscope => ?_
  refine movesFrom_write_bind (.began _ ?_ (scopedRunParams_eq_ok host hscope)) .refl
  simpa using hnew

/-! ## Appending -/

/-- What `_append_event` did: it refused, it found the event, or it checked a new one and wrote it. -/
inductive Appending (writer : Writer) (reading : Nat) (draft : AgentOutputEventDraft)
    (mode : AppendMode) (s : RunState) : Except PyError AgentOutputEvent × RunState → Prop where
  | refused (e : PyError) : Appending writer reading draft mode s (.error e, s)
  | found (event : AgentOutputEvent) (h : existingEvent host s draft = .ok (some event)) :
      Appending writer reading draft mode s (.ok event, s)
  | wrote (run : StoredRun) (hnew : existingEvent host s draft = .ok none)
      (hcheck : checkNewEvent host writer reading s draft mode = .ok run) :
      Appending writer reading draft mode s (.ok (s.stamped draft run), s.appended host draft run)

theorem appendEvent_cases (writer : Writer) (reading : Nat) (draft : AgentOutputEventDraft)
    (mode : AppendMode) (s : RunState) :
    Appending host writer reading draft mode s (appendEvent host writer reading draft mode s) := by
  unfold appendEvent
  split
  · exact .refused _
  · rename_i event h
    exact .found event h
  · rename_i hnew
    split
    · exact .refused _
    · rename_i run hcheck
      exact .wrote run hnew hcheck

theorem existingEvent_eq_none {draft : AgentOutputEventDraft} :
    existingEvent host s draft = .ok none ↔
      s.eventsBySourceKey.get? draft.sourceEventKey = none := by
  unfold existingEvent
  cases s.eventsBySourceKey.get? draft.sourceEventKey with
  | none => exact iff_of_true rfl rfl
  | some event =>
    refine iff_of_false (fun h => ?_) (fun h => by cases h)
    dsimp only at h
    split at h
    · cases h
    · cases h

/-- A new event was checked against the Run it belongs to. -/
theorem checkNewEvent_run {writer : Writer} {reading : Nat}
    {draft : AgentOutputEventDraft} {mode : AppendMode} {run : StoredRun}
    (h : checkNewEvent host writer reading s draft mode = .ok run) :
    validateNewEvent host writer reading s draft mode.allowCommitted mode.controlCancellation =
        .ok run ∧
      (mode.budgetPrechecked = false →
        requireProviderOutputBudget host s draft.runId run (providerOutputCost host draft) =
          .ok ()) := by
  obtain ⟨found, hvalid, h⟩ := bind_eq_ok h
  split at h
  · rename_i hpre
    cases h
    exact ⟨hvalid, fun hnot => by rw [hpre] at hnot; cases hnot⟩
  · obtain ⟨_, hbudget, h⟩ := bind_eq_ok h
    cases h
    exact ⟨hvalid, fun _ => hbudget⟩

theorem validateNewEvent_run {writer : Writer} {reading : Nat}
    {draft : AgentOutputEventDraft} {allow control : Bool} {run : StoredRun}
    (h : validateNewEvent host writer reading s draft allow control = .ok run) :
    s.runs.get? draft.runId = some run := by
  obtain ⟨found, hrun, h⟩ := bind_eq_ok h
  obtain ⟨_, _, h⟩ := bind_eq_ok h
  obtain ⟨_, _, h⟩ := bind_eq_ok h
  obtain ⟨_, _, h⟩ := bind_eq_ok h
  cases h
  exact ((requireRunWrite_eq_ok host).1 hrun).1

theorem appendEvent_moves (writer : Writer) (reading : Nat) (draft : AgentOutputEventDraft)
    (mode : AppendMode) (s : RunState) :
    MovesFrom (Write host) s (appendEvent host writer reading draft mode) := by
  unfold MovesFrom final
  have hcases := appendEvent_cases host writer reading draft mode s
  generalize appendEvent host writer reading draft mode s = result at hcases ⊢
  cases hcases with
  | refused e => exact .refl
  | found event h => exact .refl
  | wrote run hnew hcheck =>
    exact .single (.appended (validateNewEvent_run host (checkNewEvent_run host hcheck).1)
      ((existingEvent_eq_none host).1 hnew))

theorem appendEvent_streams (writer : Writer) (reading : Nat) (draft : AgentOutputEventDraft)
    (mode : AppendMode) : Keeps RunState.streams (appendEvent host writer reading draft mode) := by
  intro s
  unfold final
  have hcases := appendEvent_cases host writer reading draft mode s
  generalize appendEvent host writer reading draft mode s = result at hcases ⊢
  cases hcases with
  | refused e => rfl
  | found event h => rfl
  | wrote run hnew hcheck => rfl

theorem appendAll_moves (writer : Writer) (mode : AgentOutputEventDraft → AppendMode)
    (reading : Nat) (drafts : List AgentOutputEventDraft) (s : RunState) :
    MovesFrom (Write host) s (appendAll host writer mode reading drafts) := by
  induction drafts generalizing reading s with
  | nil => exact movesFrom_pure _
  | cons draft rest ih =>
    exact movesFrom_bind (appendEvent_moves host writer reading draft (mode draft) s)
      fun _ s' _ => movesFrom_bind (ih (reading + 1) s') fun _ _ _ => movesFrom_pure _

theorem appendAll_streams (writer : Writer) (mode : AgentOutputEventDraft → AppendMode)
    (reading : Nat) (drafts : List AgentOutputEventDraft) :
    Keeps RunState.streams (appendAll host writer mode reading drafts) := by
  induction drafts generalizing reading with
  | nil => exact keeps_pure _
  | cons draft rest ih =>
    exact keeps_bind (appendEvent_streams host writer reading draft (mode draft))
      fun _ => keeps_bind (ih (reading + 1)) fun _ => keeps_pure _

theorem appendEvents_moves (writer : Writer) (drafts : List AgentOutputEventDraft) (s : RunState) :
    MovesFrom (Write host) s (appendEvents host writer drafts) := by
  cases drafts with
  | nil => exact movesFrom_pure _
  | cons first rest =>
    exact movesFrom_read_bind (movesFrom_ofExcept_bind fun _ _ =>
      appendAll_moves host writer _ _ _ s)

end

end Purra.RunMemory
