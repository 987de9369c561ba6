import Purra.Checkpoints.InputUpdate
import Purra.Output.Planning
import Purra.RunState.Machine

/-!
# The records of the run repositories

What `purra/adapters/memory.py` stores (`purra/adapter_records.py`,
`purra/adapter_state.py`), and the commits it is given (`purra/ports/run_lifecycle.py`):

* `StoredRun`, `StoredStream`, `RunState` — the tables of the two repositories.
* `RunCommit` — one write of the controller.  `RunCommit.of` is its constructor, and what
  it lets through is `CommitFields.Valid`, which a `RunCommit` carries.
* `Host` — the parts of the platform the code calls: `json`, `hashlib`, `datetime`.
* `Writer` — who calls: the lease the calling task is bound to, and the Run tree that
  judges it.  The tree reads its clock anew for every event, so `authority k` is its
  judgement at the `k`-th reading.
-/

namespace Purra.RunMemory

open Contracts Output

/-! ## The platform and the caller -/

/-- What the repositories use of Python's library. -/
structure Host where
  py : Builtins
  /-- `json.loads`. -/
  loads : String → Except PyError Json
  /-- The number of bytes `json.dumps` makes of a payload. -/
  payloadBytes : Json.Object → Nat
  /-- `datetime.isoformat`. -/
  isoformat : Int → String
  /-- `round((later - earlier).total_seconds() * 1000)`. -/
  elapsedMs : Int → Int → Int
  /-- `hashlib.sha256(text.encode()).hexdigest()`. -/
  sha256 : String → String

/-- `AgentRunLeaseClaim`. -/
structure LeaseClaim where
  runId : String
  ownerId : String
  epoch : Nat
  deriving DecidableEq, Repr

/-- The calling task: the lease it is bound to, and `run_tree_authority`. -/
structure Writer where
  authority : Option (Nat → String → Option (String × Nat) → Except PyError Unit) := none
  lease : Option LeaseClaim := none

/-- `current_agent_run_lease`. -/
def Writer.claim (writer : Writer) (runId : String) : Option (String × Nat) :=
  match writer.lease with
  | none => none
  | some lease => if lease.runId = runId then some (lease.ownerId, lease.epoch) else none

/-! ## Contracts -/

/-- The limits of `RuntimeLimits` that the repositories enforce. -/
structure RuntimeLimits where
  maxModelInvocationAttempts : Nat := 64
  maxProviderOutputEvents : Nat := 10000
  maxProviderOutputBytes : Nat := 8388608
  attempts_pos : 0 < maxModelInvocationAttempts := by decide
  events_pos : 0 < maxProviderOutputEvents := by decide
  bytes_pos : 0 < maxProviderOutputBytes := by decide

/-- The limits a Run gets by default. -/
def RuntimeLimits.defaults : RuntimeLimits := {}

/-- The identity of a Run in `RunCreateParams`, and its limits. -/
structure RunCreateParams where
  requestedRunId : Option String := none
  turnId : Option String := none
  rootRunId : Option String := none
  agentId : Option String := none
  parentRunId : Option String := none
  leaseOwnerId : Option String := none
  leaseEpoch : Option Nat := none
  runtimeLimits : RuntimeLimits := .defaults

/-- `CoreEventType`, as far as a commit depends on it. -/
def CoreEventType.runStarted : String := "run.started"

/-- `RUN_TODOS_UPDATED`. -/
def CoreEventType.runTodosUpdated : String := "run.todos_updated"

/-- `RUN_TODO_UPDATED`. -/
def CoreEventType.runTodoUpdated : String := "run.todo_updated"

/-- The event that ends a Run with a status. -/
def CoreEventType.terminal : RunStatus → String
  | .running => ""
  | .done => "run.completed"
  | .blocked => "run.blocked"
  | .failed => "run.failed"
  | .canceled => "run.canceled"

/-- `TERMINAL_RUN_EVENT_TYPES`. -/
def terminalRunEventTypes : List String :=
  [RunStatus.done, .blocked, .failed, .canceled].map CoreEventType.terminal

/-- `RunStatus.value`. -/
def statusValue : RunStatus → String
  | .running => "running"
  | .done => "done"
  | .blocked => "blocked"
  | .failed => "failed"
  | .canceled => "canceled"

/-- `AgentEvent`. -/
structure AgentEvent where
  type : String
  payload : Json.Object := []
  runId : Option String := none

/-- `ModelFinishReason`. -/
inductive ModelFinishReason where
  | stop | length | toolCalls | filtered | other
  deriving DecidableEq, Repr

/-- `.value`. -/
def ModelFinishReason.value : ModelFinishReason → String
  | .stop => "stop"
  | .length => "length"
  | .toolCalls => "tool_calls"
  | .filtered => "filtered"
  | .other => "other"

/-- `OutputTextReference`. -/
structure OutputTextReference where
  runId : String
  outputStreamId : String
  invocationId : String
  contentDigest : String
  deriving DecidableEq, Repr

/-- `OutputTextReference.for_text`. -/
def OutputTextReference.forText (host : Host) (runId outputStreamId invocationId text : String) :
    OutputTextReference :=
  ⟨runId, outputStreamId, invocationId, "sha256:" ++ host.sha256 text⟩

/-! ## Commits -/

/-- The fields of `RunCommit`. -/
structure CommitFields where
  replacePlan : Option ExecutionPlan := none
  stepUpdates : List TaskStepUpdate := []
  terminalStatus : Option RunStatus := none
  finalResponse : Option String := none
  validatedResult : Option String := none
  error : Option String := none
  executionCheckpoint : Option StoredCheckpoint := none
  events : List AgentEvent := []
  finalOutput : Option OutputTextReference := none

/-- What `RunCommit.__post_init__` lets through. -/
structure CommitFields.Valid (c : CommitFields) : Prop where
  updates_nodup : (c.stepUpdates.map (·.stepId)).Nodup
  plan_alone : c.replacePlan.isSome = true → c.stepUpdates = []
  not_reopened : c.terminalStatus ≠ some .running
  failed_error : c.terminalStatus = some .failed → strip (c.error.getD "") ≠ ""
  error_failed : c.terminalStatus ≠ some .failed → c.error = none
  response_done : c.terminalStatus ≠ some .done → c.finalResponse = none
  result_done : c.terminalStatus ≠ some .done → c.validatedResult = none
  output_done : c.finalOutput ≠ none → c.terminalStatus = some .done ∧ c.finalResponse ≠ none
  output_result : c.finalOutput ≠ none → c.validatedResult ≠ none →
    c.validatedResult = c.finalResponse
  terminal_checkpoint : c.terminalStatus ≠ none → c.executionCheckpoint.isSome = false

/-- `RunCommit`. -/
structure RunCommit extends CommitFields where
  valid : toCommitFields.Valid

/-- The first check of `RunCommit.__post_init__` that fails. -/
def CommitFields.refusal (c : CommitFields) : Option String :=
  if ¬ (c.stepUpdates.map (·.stepId)).Nodup then some "run commit step updates must be unique"
  else if c.replacePlan.isSome = true ∧ c.stepUpdates ≠ [] then
    some "run commit cannot replace an execution plan and update steps"
  else if c.terminalStatus = some .running then some "run commit cannot reopen a run"
  else if c.terminalStatus = some .failed ∧ strip (c.error.getD "") = "" then
    some "failed run commit requires a non-empty error"
  else if c.terminalStatus ≠ some .failed ∧ c.error ≠ none then
    some "run commit error is only valid for failed runs"
  else if c.terminalStatus ≠ some .done ∧ c.finalResponse ≠ none then
    some "run commit final_response is only valid for completed runs"
  else if c.terminalStatus ≠ some .done ∧ c.validatedResult ≠ none then
    some "run commit validated_result is only valid for completed runs"
  else if c.finalOutput ≠ none ∧ (c.terminalStatus ≠ some .done ∨ c.finalResponse = none) then
    some "final output publication requires a completed response"
  else if c.finalOutput ≠ none ∧ c.validatedResult ≠ none ∧
      c.validatedResult ≠ c.finalResponse then
    some "verbatim publication must equal the validated result"
  else if c.terminalStatus ≠ none ∧ c.executionCheckpoint.isSome = true then
    some "terminal run commit cannot install an execution checkpoint"
  else none

theorem refuse_eq_none {c : Prop} [Decidable c] {message : String} {rest : Option String} :
    (if c then some message else rest) = none ↔ ¬ c ∧ rest = none := by
  by_cases h : c
  · simp [h]
  · simp [h]

theorem CommitFields.refusal_eq_none {c : CommitFields} : c.refusal = none ↔ c.Valid := by
  constructor
  · intro h
    simp only [refusal, refuse_eq_none, not_and, not_not, not_or] at h
    obtain ⟨hids, hplan, hopen, hfailed, herror, hresponse, hresult, hdone, hsame, hcheck, -⟩ := h
    exact ⟨hids, hplan, hopen, hfailed, herror, hresponse, hresult, hdone, hsame,
      fun h => Bool.eq_false_iff.2 (hcheck h)⟩
  · intro h
    unfold refusal
    rw [if_neg (not_not.2 h.updates_nodup), if_neg fun hn => hn.2 (h.plan_alone hn.1),
      if_neg h.not_reopened, if_neg fun hn => h.failed_error hn.1 hn.2,
      if_neg fun hn => hn.2 (h.error_failed hn.1), if_neg fun hn => hn.2 (h.response_done hn.1),
      if_neg fun hn => hn.2 (h.result_done hn.1),
      if_neg fun hn => hn.2.elim (fun hne => hne (h.output_done hn.1).1) (h.output_done hn.1).2,
      if_neg fun hn => hn.2.2 (h.output_result hn.1 hn.2.1),
      if_neg fun hn => Bool.eq_false_iff.1 (h.terminal_checkpoint hn.1) hn.2]

/-- `RunCommit.__post_init__`. -/
def RunCommit.of (c : CommitFields) : Except PyError RunCommit :=
  match h : c.refusal with
  | some message => .error (.valueError message)
  | none => .ok ⟨c, CommitFields.refusal_eq_none.1 h⟩

theorem RunCommit.of_error {c : CommitFields} (h : ¬ c.Valid) :
    ∃ message, RunCommit.of c = .error (.valueError message) := by
  unfold RunCommit.of
  split
  · exact ⟨_, rfl⟩
  · rename_i hnone
    exact absurd (CommitFields.refusal_eq_none.1 hnone) h

theorem RunCommit.of_eq_ok {c : CommitFields} (h : c.Valid) : RunCommit.of c = .ok ⟨c, h⟩ := by
  have hnone := CommitFields.refusal_eq_none.2 h
  unfold RunCommit.of
  split
  · rename_i message hsome
    rw [hnone] at hsome
    cases hsome
  · rfl

/-- `validate_run_commit_lifecycle`. -/
def validateRunCommitLifecycle (commit : RunCommit) : Except PyError Unit :=
  if commit.events.any (fun event => event.type = CoreEventType.runStarted) = true then
    .error (.valueError "run.started is only valid for repository.begin")
  else
    let terminal := commit.events.filter fun event => event.type ∈ terminalRunEventTypes
    match commit.terminalStatus with
    | none =>
      rejectIf (terminal ≠ [])
        (.valueError "non-terminal run commit cannot include terminal events")
    | some status =>
      match terminal with
      | [event] =>
        rejectIf (event.type ≠ CoreEventType.terminal status)
          (.valueError ("terminal status " ++ statusValue status ++ " requires " ++
            CoreEventType.terminal status ++ ", got " ++ event.type))
      | _ => .error (.valueError ("terminal run commit requires exactly one " ++
          CoreEventType.terminal status ++ " event"))

/-! ## Tables -/

/-- `StoredRun`. -/
structure StoredRun where
  params : RunCreateParams
  status : RunStatus := .running
  steps : List TaskStep := []
  executionPlan : Option ExecutionPlan := none
  finalResponse : Option String := none
  validatedResult : Option String := none
  error : Option String := none
  events : List AgentEvent := []
  modelAttemptIds : List String := []
  providerOutputEvents : Nat := 0
  providerOutputBytes : Nat := 0
  executionCheckpoint : Option StoredCheckpoint := none
  checkpointAttemptCount : Nat := 0

/-- `StoredStream.status`. -/
inductive StreamStatus where
  | opened | committed | aborted
  deriving DecidableEq, Repr

/-- `StoredStream`. -/
structure StoredStream where
  spec : OutputStreamSpec
  status : StreamStatus := .opened
  finishReason : Option ModelFinishReason := none
  errorCode : Option String := none
  deriving DecidableEq

/-- `RunState`. -/
structure RunState where
  runs : Dict String StoredRun := .empty
  streams : Dict String StoredStream := .empty
  streamByInvocation : Dict String String := .empty
  sequences : Dict String Nat := .empty
  rootSequences : Dict String Nat := .empty
  runCount : Nat := 0
  outputEvents : Dict String (List AgentOutputEvent) := .empty
  rootOutputEvents : Dict String (List AgentOutputEvent) := .empty
  eventsBySourceKey : Dict String AgentOutputEvent := .empty

/-- `_run_scope_id`. -/
def StoredRun.scopeId (run : StoredRun) (runId : String) : String := run.params.rootRunId.getD runId

namespace RunState

/-- `state.output_events.get(run_id, ())`. -/
def eventsOf (s : RunState) (runId : String) : List AgentOutputEvent :=
  (s.outputEvents.get? runId).getD []

/-- `state.root_output_events.get(root_run_id, ())`. -/
def rootEventsOf (s : RunState) (rootRunId : String) : List AgentOutputEvent :=
  (s.rootOutputEvents.get? rootRunId).getD []

/-- The drafts of the events of a Run. -/
def draftsOf (s : RunState) (runId : String) : List AgentOutputEventDraft :=
  (s.eventsOf runId).map (·.toAgentOutputEventDraft)

/-- The Runs of `_scope_runs`. -/
def scopeRuns (s : RunState) (rootRunId : String) : List StoredRun :=
  (s.runs.entries.filter fun p => p.2.scopeId p.1 = rootRunId).map Prod.snd

end RunState

/-! ## Access -/

section Access

variable (host : Host)

/-- The error of `_require_run`. -/
def runNotFound (runId : String) : PyError :=
  .contractViolation ("run " ++ host.py.repr (.str runId) ++ " does not exist") "run_not_found" []

/-- `_require_run`. -/
def requireRun (s : RunState) (runId : String) : Except PyError StoredRun :=
  match s.runs.get? runId with
  | some run => .ok run
  | none => .error (runNotFound host runId)

/-- `_require_stream`. -/
def requireStream (s : RunState) (outputStreamId : String) : Except PyError StoredStream :=
  match s.streams.get? outputStreamId with
  | some stream => .ok stream
  | none => .error (violation
      ("output stream " ++ host.py.repr (.str outputStreamId) ++ " does not exist"))

/-- The question `_require_run_write` puts to the Run tree. -/
def checkClaim (writer : Writer) (reading : Nat) (runId : String) (run : StoredRun)
    (controlCancellation : Bool) : Except PyError Unit :=
  match writer.authority with
  | none => .ok ()
  | some authority =>
    if controlCancellation = false ∧ run.params.rootRunId ≠ some runId ∧
        run.params.leaseEpoch ≠ none then
      authority reading runId (writer.claim runId)
    else .ok ()

/-- `_require_run_write`. -/
def requireRunWrite (writer : Writer) (reading : Nat) (s : RunState) (runId : String)
    (controlCancellation : Bool := false) : Except PyError StoredRun := do
  let run ← requireRun host s runId
  checkClaim writer reading runId run controlCancellation
  .ok run

theorem requireRun_eq_ok {s : RunState} {runId : String} {run : StoredRun} :
    requireRun host s runId = .ok run ↔ s.runs.get? runId = some run := by
  unfold requireRun
  cases s.runs.get? runId with
  | none => exact iff_of_false (fun h => by cases h) (fun h => by cases h)
  | some r =>
    rw [Except.ok.injEq, Option.some.injEq]

theorem requireStream_eq_ok {s : RunState} {id : String} {stream : StoredStream} :
    requireStream host s id = .ok stream ↔ s.streams.get? id = some stream := by
  unfold requireStream
  cases s.streams.get? id with
  | none => exact iff_of_false (fun h => by cases h) (fun h => by cases h)
  | some r =>
    rw [Except.ok.injEq, Option.some.injEq]

theorem requireRunWrite_eq_ok {writer : Writer} {reading : Nat} {s : RunState} {runId : String}
    {control : Bool} {run : StoredRun} :
    requireRunWrite host writer reading s runId control = .ok run ↔
      s.runs.get? runId = some run ∧ checkClaim writer reading runId run control = .ok () := by
  unfold requireRunWrite
  constructor
  · intro h
    obtain ⟨r, hr, h⟩ := bind_eq_ok h
    obtain ⟨_, hclaim, h⟩ := bind_eq_ok h
    cases h
    exact ⟨(requireRun_eq_ok host).1 hr, hclaim⟩
  · rintro ⟨hr, hclaim⟩
    rw [(requireRun_eq_ok host).2 hr, ok_bind, hclaim]
    rfl

end Access

end Purra.RunMemory
