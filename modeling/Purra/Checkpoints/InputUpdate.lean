import Purra.Checkpoints.Evidence

/-!
# Replacing a checkpoint

The checkpoint a Run has stored, of either kind, and the rules by which a new one may
take its place (`purra/adapters/memory.py`, `purra/interaction.py`): it may not lie
behind, and at the same round it must be the same, or the answer to an input request, or
the results of child runs, or the tool-ready form of the round.

`json.loads` is the parameter `loads`.
-/

namespace Purra.Contracts

/-- A checkpoint of either kind. -/
inductive StoredCheckpoint where
  | modelReady (checkpoint : AgentExecutionCheckpoint)
  | toolReady (checkpoint : AgentToolExecutionCheckpoint)

namespace StoredCheckpoint

/-- The fields both kinds have. -/
def fields : StoredCheckpoint → CheckpointFields
  | modelReady checkpoint => checkpoint.toCheckpointFields
  | toolReady checkpoint => checkpoint.toCheckpointFields

end StoredCheckpoint

/-! ## `==` -/

/-- `==` on messages. -/
def AgentMessage.pyEq (a b : AgentMessage) : Bool :=
  a.role = b.role && Json.pyEq a.content b.content && a.reasoning = b.reasoning &&
    a.toolCalls = b.toolCalls && a.toolCallId = b.toolCallId && a.origin = b.origin &&
    Json.objectEq a.attributes b.attributes && Json.objectEq a.hostMetadata b.hostMetadata &&
    Json.objectEq a.providerData b.providerData

/-- `==` on lists of messages. -/
def messagesEq : List AgentMessage → List AgentMessage → Bool
  | [], [] => true
  | a :: as, b :: bs => a.pyEq b && messagesEq as bs
  | _, _ => false

/-- `==` on the fields of a checkpoint. -/
def CheckpointFields.pyEq (a b : CheckpointFields) : Bool :=
  a.runId = b.runId && a.nextRound = b.nextRound && messagesEq a.messages b.messages &&
    a.roundLimit = b.roundLimit && Json.objectEq a.executionStateDomain b.executionStateDomain &&
    Json.objectEq a.evidenceState b.evidenceState && a.recoveryAttempts = b.recoveryAttempts &&
    a.logicalRoundNumber = b.logicalRoundNumber && a.progressRounds = b.progressRounds &&
    a.toolInputRecoveryEpoch = b.toolInputRecoveryEpoch && a.flags = b.flags &&
    a.lastToolOutcome = b.lastToolOutcome &&
    a.pendingToolInputRetries = b.pendingToolInputRetries &&
    a.executionProfile = b.executionProfile && a.inputRevision = b.inputRevision &&
    Json.objectEq a.planningState b.planningState &&
    Json.pyEq a.pendingRecoveryErrorCode b.pendingRecoveryErrorCode &&
    Json.pyEq a.failedToolRecoveryErrorCode b.failedToolRecoveryErrorCode

/-- `==` on checkpoints: those of different kinds differ. -/
def StoredCheckpoint.pyEq : StoredCheckpoint → StoredCheckpoint → Bool
  | .modelReady a, .modelReady b => a.toCheckpointFields.pyEq b.toCheckpointFields
  | .toolReady a, .toolReady b =>
    a.toCheckpointFields.pyEq b.toCheckpointFields && a.assistant.pyEq b.assistant &&
      a.invocationId = b.invocationId && a.modelBudgetKey = b.modelBudgetKey &&
      a.allowedToolNames = b.allowedToolNames
  | _, _ => false

/-! ## Answers and results of child runs -/

/-- `value[key]` of an object. -/
def item? (value : Json) (key : String) : Option Json :=
  match value with
  | .obj fields => Json.field? fields key
  | _ => none

/-- What `for item in value` goes over. -/
def elements? : Json → Option (List Json)
  | .arr items => some items
  | .str text => some (text.toList.map fun c => .str (String.singleton c))
  | .obj fields => some (fields.map fun p => .str p.1)
  | _ => none

/-- A value that can be put into a set. -/
def isHashable : Json → Bool
  | .arr _ => false
  | .obj _ => false
  | _ => true

/-- `set(values)`, when every value can be in one. -/
def setOf? (values : List Json) : Option (List Json) :=
  if values.all isHashable then
    some (values.foldl (fun s v => if s.any (Json.pyEq v) then s else s ++ [v]) [])
  else none

/-- `==` on sets. -/
def sameSet (a b : List Json) : Bool :=
  a.all (fun v => b.any (Json.pyEq v)) && b.all fun v => a.any (Json.pyEq v)

/-- `{row["runId"] for row in results}`. -/
def runIds? (results : Json) : Option (List Json) := do
  let rows ← elements? results
  let ids ← rows.mapM fun row => item? row "runId"
  setOf? ids

/-- A pending result of child runs and the settled one that takes its place: it is about the same
runs and keeps the results that were there. -/
def settlesChildRuns (old new : Json) : Option Unit := do
  let pending ← item? old "pendingRunIds"
  let pendingIds ← elements? pending
  let oldResults ← item? old "results"
  let oldIds ← runIds? oldResults
  let expected ← setOf? (pendingIds ++ oldIds)
  let oldState ← item? old "state"
  let newState ← item? new "state"
  let newPending ← item? new "pendingRunIds"
  let newResults ← item? new "results"
  let newIds ← runIds? newResults
  let oldRows ← elements? oldResults
  let newRows ← elements? newResults
  if Json.pyEq oldState (.str "pending") && Json.truthy pending &&
      (Json.pyEq newState (.str "ready") || Json.pyEq newState (.str "blocked")) &&
      !Json.truthy newPending && sameSet newIds expected &&
      newRows.length = expected.length && oldRows.all (fun row => newRows.any (Json.pyEq row)) then
    some ()
  else none

section InputUpdate

variable (py : Builtins) (loads : String → Except PyError Json)

/-- `json.loads(content)` of a message, when it can be read. -/
def contentOf (message : AgentMessage) : Option Json :=
  match message.content with
  | .str text => (loads text).toOption
  | _ => none

/-- The loop of `is_input_checkpoint_update` over the messages, with the evidence it resolves and
whether a message changed; `none` when the update is refused. -/
def settleMessages (calls : List RequiredText) :
    List (AgentMessage × AgentMessage) → RunEvidenceStore × Bool →
      Except PyError (Option (RunEvidenceStore × Bool))
  | [], state => .ok (some state)
  | (before, after) :: rest, (evidence, changed) =>
    if before.pyEq after then settleMessages calls rest (evidence, changed)
    else match before.role, before.toolCallId with
      | .tool, some callId =>
        if callId ∉ calls then .ok none
        else do
          let restated ← AgentMessage.of { before.toMessageFields with content := after.content }
          if restated.pyEq after = false then .ok none
          else match contentOf loads before, contentOf loads after, after.content with
            | some old, some new, .str content =>
              match settlesChildRuns old new with
              | none => .ok none
              | some () =>
                match resolveChildRuns callId.text content evidence with
                | (.ok (), resolved) => settleMessages calls rest (resolved, true)
                | (.error _, _) => .ok none
            | _, _, _ => .ok none
      | _, _ => .ok none

/-- The ids of the calls whose results stand for child runs. -/
def childRunCalls (messages : List AgentMessage) : List RequiredText :=
  messages.flatMap fun message =>
    (message.toolCalls.filter fun call => call.name.text ∈ childRunTools).map (·.id)

/-- `is_input_checkpoint_update`. -/
def isInputCheckpointUpdate : StoredCheckpoint → StoredCheckpoint → Except PyError Bool
  | .modelReady current, .modelReady updated =>
    if updated.inputRevision ≠ current.inputRevision + 1 then .ok false
    else
      let expected : CheckpointFields := { current.toCheckpointFields with
        inputRevision := updated.inputRevision
        messages := updated.messages }
      if updated.messages.length = current.messages.length + 1 then
        match updated.messages.getLast? with
        | none => .ok false
        | some message =>
          .ok (messagesEq updated.messages.dropLast current.messages && message.role = .user &&
            Json.truthy (Json.get message.attributes "inputRequestId") &&
            expected.pyEq updated.toCheckpointFields)
      else if updated.messages.length ≠ current.messages.length then .ok false
      else do
        let evidence ← RunEvidenceStore.fromCheckpointMapping py current.evidenceState
        let settled ← settleMessages loads (childRunCalls current.messages)
          (current.messages.zip updated.messages) (evidence, false)
        match settled with
        | none => .ok false
        | some (evidence, changed) =>
          .ok (changed && CheckpointFields.pyEq
            { expected with evidenceState := evidence.checkpointMapping }
            updated.toCheckpointFields)
  | _, _ => .ok false

/-- The tool-ready form of the round a model-ready checkpoint begins. -/
def extendsToToolReady : StoredCheckpoint → StoredCheckpoint → Bool
  | .modelReady current, .toolReady updated =>
    messagesEq (updated.messages.take current.messages.length) current.messages
  | _, _ => false

/-- The checks of `_apply_commit` on a checkpoint that takes the place of another one. -/
def acceptCheckpoint (current : Option StoredCheckpoint) (checkpoint : StoredCheckpoint) :
    Except PyError Unit :=
  match current with
  | none => .ok ()
  | some current =>
    if checkpoint.fields.nextRound < current.fields.nextRound then
      .error (.contractViolation "Agent execution checkpoint cannot move backwards"
        "agent_execution_checkpoint_conflict" [])
    else if checkpoint.fields.nextRound = current.fields.nextRound ∧
        checkpoint.pyEq current = false then do
      let answered ← isInputCheckpointUpdate py loads current checkpoint
      if answered = false ∧ extendsToToolReady current checkpoint = false then
        .error (.contractViolation "Agent execution checkpoint content conflicts"
          "agent_execution_checkpoint_conflict" [])
      else .ok ()
    else .ok ()

/-- A checkpoint that is accepted does not lie behind. -/
theorem acceptCheckpoint_nextRound {current checkpoint : StoredCheckpoint}
    (h : acceptCheckpoint py loads (some current) checkpoint = .ok ()) :
    current.fields.nextRound ≤ checkpoint.fields.nextRound := by
  simp only [acceptCheckpoint] at h
  split at h
  · cases h
  · rename_i hbehind
    exact not_lt.1 hbehind

end InputUpdate

end Purra.Contracts
