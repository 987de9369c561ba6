import Purra.Checkpoints.Messages

/-!
# Execution checkpoints

The model-ready and the tool-ready checkpoint of `purra/agent_execution_checkpoint.py`:
their constructors' checks, the mapping each is stored as, and the decoder of each.

* `AgentExecutionCheckpoint.of`, `AgentToolExecutionCheckpoint.of` — the constructors;
  what they let through is a field of the record, so an invalid checkpoint cannot be
  built, and building one again from its own fields gives it back (`of_self`).
* `fromMapping_toMapping` — a checkpoint read back from its mapping.
-/

namespace Purra.Contracts

/-! ## Enumerations -/

/-- The execution profile of a checkpoint. -/
inductive ExecutionProfile where
  | reactive | auto | planned
  deriving DecidableEq, Repr

/-- The text of a profile. -/
def ExecutionProfile.value : ExecutionProfile → String
  | .reactive => "reactive"
  | .auto => "auto"
  | .planned => "planned"

/-- `self.execution_profile not in {"reactive", "auto", "planned"}`. -/
def ExecutionProfile.of (text : String) : Except PyError ExecutionProfile :=
  match [ExecutionProfile.reactive, .auto, .planned].find? fun p => p.value = text with
  | some profile => .ok profile
  | none => .error (.valueError "Invalid checkpoint execution profile")

/-- `ToolBatchOutcome`'s values. -/
def outcomeValue : ToolBatchOutcome → String
  | .progressed => "progressed"
  | .completed => "completed"
  | .declined => "declined"
  | .canceled => "canceled"
  | .rejected => "rejected"
  | .failed => "failed"

/-- `ToolBatchOutcome(text)`. -/
def outcomeOf : String → Except PyError ToolBatchOutcome :=
  memberOf [.progressed, .completed, .declined, .canceled, .rejected, .failed] outcomeValue
    "ToolBatchOutcome"

@[simp] theorem ExecutionProfile.of_value (profile : ExecutionProfile) :
    ExecutionProfile.of profile.value = .ok profile := by
  cases profile <;> rfl

@[simp] theorem outcomeOf_value (outcome : ToolBatchOutcome) :
    outcomeOf (outcomeValue outcome) = .ok outcome := by
  cases outcome <;> rfl

/-! ## The model-ready checkpoint -/

/-- One row of `recovery_attempts`. -/
structure RecoveryAttempts where
  cause : RequiredText
  scope : RequiredText
  attempts : Nat
  deriving DecidableEq, Repr

/-- One row of `pending_tool_input_retries`. -/
structure PendingRetry where
  toolCallId : RequiredText
  toolName : RequiredText
  deriving DecidableEq, Repr

/-- The boolean fields of a checkpoint that its constructor normalises. -/
structure CheckpointFlags where
  logicalRequiredToolCallEnabled : Bool := false
  providerRequiredToolChoiceEnabled : Bool := false
  declinedResponsePending : Bool := false
  responseRepairPending : Bool := false
  publicPresentationPending : Bool := false
  initialPlanningOpen : Bool := true
  finalizationOnly : Bool := false
  dynamicReplanPending : Bool := false
  deriving DecidableEq, Repr

/-- The fields of `AgentExecutionCheckpoint`, but for the constants `schema_version` and `phase`.
The two recovery error codes are not checked. -/
structure CheckpointFields where
  runId : RequiredText
  nextRound : Nat
  messages : List AgentMessage
  roundLimit : Nat
  executionStateDomain : Json.Object := []
  evidenceState : Json.Object := []
  recoveryAttempts : List RecoveryAttempts := []
  logicalRoundNumber : Nat := 0
  progressRounds : Nat := 0
  toolInputRecoveryEpoch : Nat := 0
  flags : CheckpointFlags := {}
  lastToolOutcome : ToolBatchOutcome := .completed
  pendingToolInputRetries : List PendingRetry := []
  executionProfile : ExecutionProfile := .reactive
  inputRevision : Nat := 0
  planningState : Json.Object := []
  pendingRecoveryErrorCode : Json := .null
  failedToolRecoveryErrorCode : Json := .null

/-- What `AgentExecutionCheckpoint.__post_init__` lets through. -/
structure CheckpointFields.Valid (fields : CheckpointFields) : Prop where
  next_pos : 0 < fields.nextRound
  messages_ne : fields.messages ≠ []
  limit_pos : 0 < fields.roundLimit
  attempts_nodup : (fields.recoveryAttempts.map fun row => (row.cause, row.scope)).Nodup
  retries_nodup : (fields.pendingToolInputRetries.map (·.toolCallId)).Nodup

/-- `AgentExecutionCheckpoint`. -/
structure AgentExecutionCheckpoint extends CheckpointFields where
  valid : toCheckpointFields.Valid

/-- The arguments of the constructor, as the decoder passes them. -/
structure CheckpointArguments where
  schemaVersion : Int
  runId : String
  phase : String
  executionProfile : String
  nextRound : Int
  inputRevision : Json
  messages : List AgentMessage
  executionStateDomain : Json.Object
  evidenceState : Json.Object
  recoveryAttempts : List (String × String × Int)
  roundLimit : Int
  logicalRoundNumber : Int
  progressRounds : Int
  toolInputRecoveryEpoch : Int
  flags : CheckpointFlags
  lastToolOutcome : ToolBatchOutcome
  pendingToolInputRetries : List (String × String)
  planningState : Json.Object
  pendingRecoveryErrorCode : Json
  failedToolRecoveryErrorCode : Json

/-- A row of `recovery_attempts`, its texts checked. -/
def attemptRow (row : String × String × Int) :
    Except PyError (RequiredText × RequiredText × Int) := do
  let cause ← RequiredText.of row.1 "checkpoint recovery cause"
  let scope ← RequiredText.of row.2.1 "checkpoint recovery scope"
  .ok (cause, scope, row.2.2)

/-- A row of `pending_tool_input_retries`, its texts checked. -/
def retryRow (row : String × String) : Except PyError PendingRetry := do
  let toolCallId ← RequiredText.of row.1 "checkpoint retry tool call id"
  let toolName ← RequiredText.of row.2 "checkpoint retry tool name"
  .ok ⟨toolCallId, toolName⟩

/-- `int(getattr(self, name))`, which may not be negative; a round limit may not be zero. -/
def counter (name : String) (value : Int) (positive : Bool := false) : Except PyError Nat :=
  if value < 0 ∨ positive = true ∧ value = 0 then
    .error (.valueError ("checkpoint " ++ name ++ " is invalid"))
  else .ok value.toNat

/-- The input revision, which must be an integer. -/
def revisionOf (value : Json) : Except PyError Nat :=
  match value with
  | .int n =>
    if n < 0 then .error (.valueError "checkpoint input revision must be non-negative")
    else .ok n.toNat
  | _ => .error (.valueError "checkpoint input revision must be non-negative")

/-- The checks of `AgentExecutionCheckpoint.__post_init__`, and the fields as it normalises them. -/
def checkpointFields (args : CheckpointArguments) : Except PyError CheckpointFields := do
  let inputRevision ← revisionOf args.inputRevision
  rejectIf (args.schemaVersion ≠ 2) (.valueError "Agent execution checkpoint schema version must be 2")
  rejectIf (args.phase ≠ "model_ready") (.valueError "Agent execution checkpoint phase must be model_ready")
  let executionProfile ← ExecutionProfile.of args.executionProfile
  let runId ← RequiredText.of args.runId "Agent execution checkpoint Run id"
  let nextRound ← positiveInt args.nextRound "Agent execution checkpoint next round"
  rejectIf (args.messages.isEmpty = true)
    (.typeError "Agent execution checkpoint requires Agent messages")
  let attempts ← args.recoveryAttempts.mapM attemptRow
  rejectIf (∃ row ∈ attempts, row.2.2 < 0) (.valueError "checkpoint recovery attempts must be non-negative")
  let recoveryAttempts := attempts.map fun row => ⟨row.1, row.2.1, row.2.2.toNat⟩
  rejectIf (¬ (attempts.map fun row => (row.1, row.2.1)).Nodup)
    (.valueError "checkpoint recovery attempts must be unique")
  let roundLimit ← counter "round_limit" args.roundLimit true
  let logicalRoundNumber ← counter "logical_round_number" args.logicalRoundNumber
  let progressRounds ← counter "progress_rounds" args.progressRounds
  let toolInputRecoveryEpoch ← counter "tool_input_recovery_epoch" args.toolInputRecoveryEpoch
  let pendingToolInputRetries ← args.pendingToolInputRetries.mapM retryRow
  rejectIf (¬ (pendingToolInputRetries.map (·.toolCallId)).Nodup)
    (.valueError "checkpoint retry tool call ids must be unique")
  .ok {
    runId, nextRound, messages := args.messages, roundLimit,
    executionStateDomain := args.executionStateDomain, evidenceState := args.evidenceState,
    recoveryAttempts, logicalRoundNumber, progressRounds, toolInputRecoveryEpoch,
    flags := args.flags, lastToolOutcome := args.lastToolOutcome, pendingToolInputRetries,
    executionProfile, inputRevision, planningState := args.planningState,
    pendingRecoveryErrorCode := args.pendingRecoveryErrorCode,
    failedToolRecoveryErrorCode := args.failedToolRecoveryErrorCode }

theorem counter_pos {name : String} {value : Int} {n : Nat} (h : counter name value true = .ok n) :
    0 < n := by
  unfold counter at h
  split at h
  · cases h
  · rename_i hn
    cases h
    simp only [true_and, not_or] at hn
    omega

/-- What went through the checks is valid. -/
theorem checkpointFields_valid {args : CheckpointArguments} {fields : CheckpointFields}
    (h : checkpointFields args = .ok fields) : fields.Valid := by
  unfold checkpointFields at h
  obtain ⟨inputRevision, -, h⟩ := bind_eq_ok h
  obtain ⟨-, -, h⟩ := bind_eq_ok h
  obtain ⟨-, -, h⟩ := bind_eq_ok h
  obtain ⟨executionProfile, -, h⟩ := bind_eq_ok h
  obtain ⟨runId, -, h⟩ := bind_eq_ok h
  obtain ⟨nextRound, hnext, h⟩ := bind_eq_ok h
  obtain ⟨_, hmessages, h⟩ := bind_eq_ok h
  obtain ⟨attempts, -, h⟩ := bind_eq_ok h
  obtain ⟨-, -, h⟩ := bind_eq_ok h
  obtain ⟨_, hattempts, h⟩ := bind_eq_ok h
  obtain ⟨roundLimit, hlimit, h⟩ := bind_eq_ok h
  obtain ⟨logicalRoundNumber, -, h⟩ := bind_eq_ok h
  obtain ⟨progressRounds, -, h⟩ := bind_eq_ok h
  obtain ⟨toolInputRecoveryEpoch, -, h⟩ := bind_eq_ok h
  obtain ⟨retries, -, h⟩ := bind_eq_ok h
  obtain ⟨_, hretries, h⟩ := bind_eq_ok h
  cases h
  refine ⟨positiveInt_eq_ok hnext, ?_, counter_pos hlimit, ?_,
    not_not.1 (rejectIf_eq_ok.1 hretries)⟩
  · intro hnil
    refine rejectIf_eq_ok.1 hmessages ?_
    rw [show args.messages = [] from hnil]
    rfl
  · rw [List.map_map]
    exact not_not.1 (rejectIf_eq_ok.1 hattempts)

/-- `AgentExecutionCheckpoint.__post_init__`. -/
def AgentExecutionCheckpoint.of (args : CheckpointArguments) :
    Except PyError AgentExecutionCheckpoint :=
  match h : checkpointFields args with
  | .error e => .error e
  | .ok fields => .ok ⟨fields, checkpointFields_valid h⟩

/-- The arguments a checkpoint is built from again. -/
def CheckpointFields.arguments (fields : CheckpointFields) : CheckpointArguments where
  schemaVersion := 2
  runId := fields.runId.text
  phase := "model_ready"
  executionProfile := fields.executionProfile.value
  nextRound := fields.nextRound
  inputRevision := .int fields.inputRevision
  messages := fields.messages
  executionStateDomain := fields.executionStateDomain
  evidenceState := fields.evidenceState
  recoveryAttempts := fields.recoveryAttempts.map fun row =>
    (row.cause.text, row.scope.text, (row.attempts : Int))
  roundLimit := fields.roundLimit
  logicalRoundNumber := fields.logicalRoundNumber
  progressRounds := fields.progressRounds
  toolInputRecoveryEpoch := fields.toolInputRecoveryEpoch
  flags := fields.flags
  lastToolOutcome := fields.lastToolOutcome
  pendingToolInputRetries := fields.pendingToolInputRetries.map fun row =>
    (row.toolCallId.text, row.toolName.text)
  planningState := fields.planningState
  pendingRecoveryErrorCode := fields.pendingRecoveryErrorCode
  failedToolRecoveryErrorCode := fields.failedToolRecoveryErrorCode

theorem counter_nat (name : String) {n : Nat} {positive : Bool} (h : positive = true → 0 < n) :
    counter name (n : Int) positive = .ok n := by
  have hn : ¬ ((n : Int) < 0 ∨ positive = true ∧ (n : Int) = 0) := by
    rintro (hneg | ⟨hp, hz⟩)
    · omega
    · have := h hp
      omega
  unfold counter
  rw [if_neg hn]
  rfl

theorem revisionOf_nat (n : Nat) : revisionOf (.int n) = .ok n := by
  simp only [revisionOf]
  rw [if_neg (by omega)]
  rfl

theorem attemptRow_texts (row : RecoveryAttempts) :
    attemptRow (row.cause.text, row.scope.text, (row.attempts : Int)) =
      .ok (row.cause, row.scope, (row.attempts : Int)) := by
  simp only [attemptRow, RequiredText.of_text, ok_bind]

theorem retryRow_texts (row : PendingRetry) :
    retryRow (row.toolCallId.text, row.toolName.text) = .ok row := by
  simp only [retryRow, RequiredText.of_text, ok_bind]

/-- Valid fields pass the checks unchanged. -/
theorem checkpointFields_arguments {fields : CheckpointFields} (h : fields.Valid) :
    checkpointFields fields.arguments = .ok fields := by
  have hattempts : (fields.arguments.recoveryAttempts).mapM attemptRow =
      .ok (fields.recoveryAttempts.map fun row => (row.cause, row.scope, (row.attempts : Int))) := by
    show (fields.recoveryAttempts.map _).mapM attemptRow = _
    rw [List.mapM_map]
    exact mapM_eq_map fun row _ => attemptRow_texts row
  have hretries : (fields.arguments.pendingToolInputRetries).mapM retryRow =
      .ok fields.pendingToolInputRetries := mapM_map_eq retryRow_texts _
  have hsigned : ¬ ∃ row ∈ fields.recoveryAttempts.map fun row =>
      (row.cause, row.scope, (row.attempts : Int)), row.2.2 < 0 := by
    rintro ⟨row, hrow, hneg⟩
    obtain ⟨original, -, rfl⟩ := List.mem_map.1 hrow
    exact absurd hneg (Int.not_lt.2 (Int.natCast_nonneg _))
  have hkeys : ((fields.recoveryAttempts.map fun row =>
      (row.cause, row.scope, (row.attempts : Int))).map fun row => (row.1, row.2.1)).Nodup := by
    rw [List.map_map]
    exact h.attempts_nodup
  have hversion : ¬ fields.arguments.schemaVersion ≠ 2 := not_not.2 rfl
  have hphase : ¬ fields.arguments.phase ≠ "model_ready" := not_not.2 rfl
  have hempty : ¬ fields.arguments.messages.isEmpty = true := by
    show ¬ fields.messages.isEmpty = true
    simpa using h.messages_ne
  have hfalse : ∀ {n : Nat}, false = true → 0 < n := fun hf => absurd hf Bool.false_ne_true
  unfold checkpointFields
  rw [hattempts, hretries, rejectIf_of_not hversion, rejectIf_of_not hphase,
    rejectIf_of_not hempty]
  simp only [ok_bind]
  rw [rejectIf_of_not hsigned, rejectIf_of_not (not_not.2 hkeys),
    rejectIf_of_not (not_not.2 h.retries_nodup)]
  simp only [CheckpointFields.arguments, revisionOf_nat, ExecutionProfile.of_value,
    RequiredText.of_text, positiveInt_nat h.next_pos, counter_nat _ (fun _ => h.limit_pos),
    counter_nat _ hfalse, ok_bind, List.map_map]
  have hrows : fields.recoveryAttempts.map ((fun row : RequiredText × RequiredText × Int =>
      (⟨row.1, row.2.1, row.2.2.toNat⟩ : RecoveryAttempts)) ∘ fun row =>
        (row.cause, row.scope, (row.attempts : Int))) = fields.recoveryAttempts :=
    List.map_id' _
  rw [hrows]

theorem AgentExecutionCheckpoint.of_eq_ok {args : CheckpointArguments} {fields : CheckpointFields}
    (h : checkpointFields args = .ok fields) :
    AgentExecutionCheckpoint.of args = .ok ⟨fields, checkpointFields_valid h⟩ := by
  unfold AgentExecutionCheckpoint.of
  split
  · rename_i e he
    rw [h] at he
    cases he
  · rename_i fields' hfields
    rw [h] at hfields
    cases hfields
    rfl

/-- Building a checkpoint again from its own fields gives the checkpoint. -/
theorem AgentExecutionCheckpoint.of_self (checkpoint : AgentExecutionCheckpoint) :
    AgentExecutionCheckpoint.of checkpoint.arguments = .ok checkpoint :=
  AgentExecutionCheckpoint.of_eq_ok (checkpointFields_arguments checkpoint.valid)

/-! ## Its mapping -/

/-- `to_mapping`, with the two constants of the class. -/
def CheckpointFields.toMapping (schemaVersion : Int) (phase : String) (fields : CheckpointFields) :
    Json.Object :=
  [("schemaVersion", .int schemaVersion),
    ("runId", .str fields.runId.text),
    ("phase", .str phase),
    ("executionProfile", .str fields.executionProfile.value),
    ("nextRound", .int fields.nextRound),
    ("inputRevision", .int fields.inputRevision),
    ("messages", .arr (fields.messages.map fun message => .obj (messageToMapping message))),
    ("executionStateDomain", .obj fields.executionStateDomain),
    ("evidenceState", .obj fields.evidenceState),
    ("recoveryAttempts", .arr (fields.recoveryAttempts.map fun row =>
      .obj [("cause", .str row.cause.text), ("scope", .str row.scope.text),
        ("attempts", .int row.attempts)])),
    ("roundLimit", .int fields.roundLimit),
    ("logicalRoundNumber", .int fields.logicalRoundNumber),
    ("progressRounds", .int fields.progressRounds),
    ("toolInputRecoveryEpoch", .int fields.toolInputRecoveryEpoch),
    ("logicalRequiredToolCallEnabled", .bool fields.flags.logicalRequiredToolCallEnabled),
    ("providerRequiredToolChoiceEnabled", .bool fields.flags.providerRequiredToolChoiceEnabled),
    ("declinedResponsePending", .bool fields.flags.declinedResponsePending),
    ("responseRepairPending", .bool fields.flags.responseRepairPending),
    ("publicPresentationPending", .bool fields.flags.publicPresentationPending),
    ("lastToolOutcome", .str (outcomeValue fields.lastToolOutcome)),
    ("pendingToolInputRetries", .arr (fields.pendingToolInputRetries.map fun row =>
      .obj [("toolCallId", .str row.toolCallId.text), ("toolName", .str row.toolName.text)])),
    ("initialPlanningOpen", .bool fields.flags.initialPlanningOpen),
    ("finalizationOnly", .bool fields.flags.finalizationOnly),
    ("planningState", .obj fields.planningState),
    ("dynamicReplanPending", .bool fields.flags.dynamicReplanPending),
    ("pendingRecoveryErrorCode", fields.pendingRecoveryErrorCode),
    ("failedToolRecoveryErrorCode", fields.failedToolRecoveryErrorCode)]

/-- The keys of the mapping. -/
def checkpointKeys : List String :=
  ["schemaVersion", "runId", "phase", "executionProfile", "nextRound", "inputRevision", "messages",
    "executionStateDomain", "evidenceState", "recoveryAttempts", "roundLimit",
    "logicalRoundNumber", "progressRounds", "toolInputRecoveryEpoch",
    "logicalRequiredToolCallEnabled", "providerRequiredToolChoiceEnabled",
    "declinedResponsePending", "responseRepairPending", "publicPresentationPending",
    "lastToolOutcome", "pendingToolInputRetries", "initialPlanningOpen", "finalizationOnly",
    "planningState", "dynamicReplanPending", "pendingRecoveryErrorCode",
    "failedToolRecoveryErrorCode"]

theorem CheckpointFields.toMapping_keys (fields : CheckpointFields) (schemaVersion : Int)
    (phase : String) : (fields.toMapping schemaVersion phase).map Prod.fst = checkpointKeys := rfl

/-- `AgentExecutionCheckpoint.to_mapping`. -/
def AgentExecutionCheckpoint.toMapping (checkpoint : AgentExecutionCheckpoint) : Json.Object :=
  checkpoint.toCheckpointFields.toMapping 2 "model_ready"

section Decoding

variable (py : Builtins)

/-- `int(value.get(key) or 0)`. -/
def intOr (value : Json.Object) (key : String) : Except PyError Int :=
  py.int (Json.orElse (Json.get value key) (.int 0))

/-- A row of `recoveryAttempts`. -/
def attemptsOf (item : Json.Object) : Except PyError (String × String × Int) := do
  let attempts ← intOr py item "attempts"
  .ok (textOr py item "cause", textOr py item "scope", attempts)

/-- `AgentExecutionCheckpoint.from_mapping`, up to the call of the constructor. -/
def checkpointArguments (value : Json.Object) : Except PyError CheckpointArguments := do
  let initialPlanningOpen ← match Json.get value "initialPlanningOpen" with
    | .bool flag => .ok flag
    | _ => Except.error (.typeError "checkpoint initialPlanningOpen must be a boolean")
  let rawAttempts ← sequenceOf value "recoveryAttempts"
    "checkpoint recovery attempts must be a sequence"
  let rawMessages ← sequenceOf value "messages" "checkpoint messages must be a sequence"
  let rawRetries ← sequenceOf value "pendingToolInputRetries"
    "checkpoint tool retries must be a sequence"
  let schemaVersion ← intOr py value "schemaVersion"
  let nextRound ← intOr py value "nextRound"
  let messages ← (Json.objects rawMessages).mapM (messageFromMapping py)
  let executionStateDomain ← mappingOf (Json.get value "executionStateDomain")
    "checkpoint execution state"
  let evidenceState ← mappingOf (Json.get value "evidenceState") "checkpoint evidence state"
  let recoveryAttempts ← (Json.objects rawAttempts).mapM (attemptsOf py)
  let roundLimit ← intOr py value "roundLimit"
  let logicalRoundNumber ← intOr py value "logicalRoundNumber"
  let progressRounds ← intOr py value "progressRounds"
  let toolInputRecoveryEpoch ← intOr py value "toolInputRecoveryEpoch"
  let lastToolOutcome ← outcomeOf (textOr py value "lastToolOutcome" "completed")
  let planningState ← mappingOf (Json.get value "planningState") "checkpoint planning state"
  .ok {
    schemaVersion, runId := textOr py value "runId", phase := textOr py value "phase",
    executionProfile := textOr py value "executionProfile", nextRound,
    inputRevision := (Json.field? value "inputRevision").getD (.int 0), messages,
    executionStateDomain, evidenceState, recoveryAttempts, roundLimit, logicalRoundNumber,
    progressRounds, toolInputRecoveryEpoch,
    flags := {
      logicalRequiredToolCallEnabled := Json.truthy (Json.get value "logicalRequiredToolCallEnabled")
      providerRequiredToolChoiceEnabled :=
        Json.truthy (Json.get value "providerRequiredToolChoiceEnabled")
      declinedResponsePending := Json.truthy (Json.get value "declinedResponsePending")
      responseRepairPending := Json.truthy (Json.get value "responseRepairPending")
      publicPresentationPending := Json.truthy (Json.get value "publicPresentationPending")
      initialPlanningOpen
      finalizationOnly := Json.truthy (Json.get value "finalizationOnly")
      dynamicReplanPending := Json.truthy (Json.get value "dynamicReplanPending") },
    lastToolOutcome,
    pendingToolInputRetries := (Json.objects rawRetries).map fun item =>
      (textOr py item "toolCallId", textOr py item "toolName"),
    planningState,
    pendingRecoveryErrorCode := Json.get value "pendingRecoveryErrorCode",
    failedToolRecoveryErrorCode := Json.get value "failedToolRecoveryErrorCode" }

/-- `AgentExecutionCheckpoint.from_mapping`. -/
def AgentExecutionCheckpoint.fromMapping (value : Json.Object) :
    Except PyError AgentExecutionCheckpoint := do
  let args ← checkpointArguments py value
  AgentExecutionCheckpoint.of args

variable {value : Json.Object}

theorem intOr_int {key : String} {n : Int}
    (h : Json.get value key = .int n) : intOr py value key = .ok n := by
  simp only [intOr, h, Json.orElse_int, Builtins.int_int]

theorem textOr_str {key text : String}
    (h : Json.get value key = .str text) : textOr py value key = text := by
  simp only [textOr, h, Json.orElse_str, Builtins.str_str]

theorem mappingOf_get {key label : String} {fields : Json.Object}
    (h : Json.get value key = .obj fields) : mappingOf (Json.get value key) label = .ok fields := by
  rw [h]
  rfl

/-- A row of recovery attempts read back. -/
theorem attemptsOf_row (row : RecoveryAttempts) :
    attemptsOf py [("cause", .str row.cause.text), ("scope", .str row.scope.text),
      ("attempts", .int row.attempts)] = .ok (row.cause.text, row.scope.text, (row.attempts : Int)) := by
  unfold attemptsOf
  rw [intOr_int py rfl, textOr_str py rfl, textOr_str py rfl]
  rfl

theorem outcomeValue_ne (outcome : ToolBatchOutcome) : outcomeValue outcome ≠ "" := by
  cases outcome <;> decide

/-- What the decoder passes to the constructor. -/
theorem checkpointArguments_toMapping (fields : CheckpointFields) :
    checkpointArguments py (fields.toMapping 2 "model_ready") = .ok fields.arguments := by
  have hmessages : (fields.messages.map messageToMapping).mapM (messageFromMapping py) =
      .ok fields.messages := mapM_map_eq (messageFromMapping_toMapping py) _
  have hattempts : (fields.recoveryAttempts.map fun row =>
      ([("cause", .str row.cause.text), ("scope", .str row.scope.text),
        ("attempts", .int row.attempts)] : Json.Object)).mapM (attemptsOf py) =
      .ok fields.arguments.recoveryAttempts := by
    rw [List.mapM_map]
    exact mapM_eq_map fun row _ => attemptsOf_row py row
  have hretries : (fields.pendingToolInputRetries.map fun row =>
      ([("toolCallId", .str row.toolCallId.text), ("toolName", .str row.toolName.text)] :
        Json.Object)).map (fun item => (textOr py item "toolCallId", textOr py item "toolName")) =
      fields.arguments.pendingToolInputRetries := by
    rw [List.map_map]
    refine List.map_congr_left fun row _ => ?_
    exact congrArg₂ Prod.mk (textOr_str py rfl) (textOr_str py rfl)
  let value := fields.toMapping 2 "model_ready"
  have hopen : Json.get value "initialPlanningOpen" = .bool fields.flags.initialPlanningOpen := rfl
  have hrawAttempts : sequenceOf value "recoveryAttempts"
    "checkpoint recovery attempts must be a sequence" = .ok _ := sequenceOf_arr rfl
  have hrawMessages : sequenceOf value "messages" "checkpoint messages must be a sequence" = .ok _ :=
    sequenceOf_arr rfl
  have hrawRetries : sequenceOf value "pendingToolInputRetries"
    "checkpoint tool retries must be a sequence" = .ok _ := sequenceOf_arr rfl
  have hversion : intOr py value "schemaVersion" = .ok 2 := intOr_int py rfl
  have hnext : intOr py value "nextRound" = .ok (fields.nextRound : Int) := intOr_int py rfl
  have hlimit : intOr py value "roundLimit" = .ok (fields.roundLimit : Int) := intOr_int py rfl
  have hlogical : intOr py value "logicalRoundNumber" = .ok (fields.logicalRoundNumber : Int) :=
    intOr_int py rfl
  have hprogress : intOr py value "progressRounds" = .ok (fields.progressRounds : Int) :=
    intOr_int py rfl
  have hepoch : intOr py value "toolInputRecoveryEpoch" =
    .ok (fields.toolInputRecoveryEpoch : Int) := intOr_int py rfl
  have houtcome : textOr py value "lastToolOutcome" "completed" = outcomeValue fields.lastToolOutcome :=
    textOr_of_ne py rfl (outcomeValue_ne _)
  have hdomain : mappingOf (Json.get value "executionStateDomain") "checkpoint execution state" =
    .ok fields.executionStateDomain := mappingOf_get rfl
  have hevidence : mappingOf (Json.get value "evidenceState") "checkpoint evidence state" =
    .ok fields.evidenceState := mappingOf_get rfl
  have hplanning : mappingOf (Json.get value "planningState") "checkpoint planning state" =
    .ok fields.planningState := mappingOf_get rfl
  have hprofile : textOr py value "executionProfile" = fields.executionProfile.value :=
    textOr_str py rfl
  have hrun : textOr py value "runId" = fields.runId.text := textOr_str py rfl
  have hphase : textOr py value "phase" = "model_ready" := textOr_str py rfl
  show checkpointArguments py value = _
  unfold checkpointArguments
  rw [hopen, hrawAttempts, hrawMessages, hrawRetries, hversion, hnext, hlimit, hlogical, hprogress,
    hepoch, houtcome, hdomain, hevidence, hplanning, hprofile, hrun, hphase]
  simp only [ok_bind, Json.objects_map_obj, hmessages, hattempts, hretries, outcomeOf_value]
  rfl

/-- The decoder looks at its own keys only. -/
theorem checkpointArguments_congr {value' : Json.Object}
    (h : ∀ key ∈ checkpointKeys, Json.field? value key = Json.field? value' key) :
    checkpointArguments py value = checkpointArguments py value' := by
  have hget : ∀ key ∈ checkpointKeys, Json.get value key = Json.get value' key := by
    intro key hkey
    unfold Json.get
    rw [h key hkey]
  have hsequence : ∀ key ∈ checkpointKeys, ∀ label,
      sequenceOf value key label = sequenceOf value' key label := by
    intro key hkey label
    unfold sequenceOf
    rw [hget key hkey]
  have hint : ∀ key ∈ checkpointKeys, intOr py value key = intOr py value' key := by
    intro key hkey
    unfold intOr
    rw [hget key hkey]
  have htext : ∀ key ∈ checkpointKeys, ∀ default,
      textOr py value key default = textOr py value' key default := by
    intro key hkey default
    unfold textOr
    rw [hget key hkey]
  unfold checkpointArguments
  simp (disch := decide) only [hget, hsequence, hint, htext, h]

/-- A mapping with further keys is read as the mapping itself. -/
theorem checkpointArguments_append (fields : CheckpointFields) (more : Json.Object) :
    checkpointArguments py (fields.toMapping 2 "model_ready" ++ more) = .ok fields.arguments := by
  rw [← checkpointArguments_toMapping]
  refine checkpointArguments_congr py fun key hkey => ?_
  exact Json.field?_append_of_mem (by rwa [CheckpointFields.toMapping_keys])

/-- **A model-ready checkpoint read back from its mapping** is the checkpoint. -/
theorem AgentExecutionCheckpoint.fromMapping_toMapping (checkpoint : AgentExecutionCheckpoint) :
    AgentExecutionCheckpoint.fromMapping py checkpoint.toMapping = .ok checkpoint := by
  unfold AgentExecutionCheckpoint.fromMapping AgentExecutionCheckpoint.toMapping
  rw [checkpointArguments_toMapping, ok_bind]
  exact AgentExecutionCheckpoint.of_self checkpoint

end Decoding

end Purra.Contracts
