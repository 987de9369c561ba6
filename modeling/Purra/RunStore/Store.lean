import Purra.RunStore.History

/-!
# The TypeScript Run store

`InMemoryRunRepository` (`src/typescript/src/run/store.ts`): Runs of several Roots, each with its
budgets, its invocations and its journal, and the journal a Root shares with its children.

Every method is one turn of the event loop.  It writes as it goes, and what it wrote stays when it
throws.
-/

namespace Purra.RunStore

section

variable (host : Host) (env : Env)

/-! ## Budgets and usage -/

/-- A limit that is not null is passed. -/
def exceeds (limit : Option Int) (used : Int) : Prop := ∃ maximum ∈ limit, maximum < used

instance (limit : Option Int) (used : Int) : Decidable (exceeds limit used) :=
  decidable_of_iff (limit.any fun maximum => maximum < used) (by
    cases limit <;> simp [exceeds])

/-- `byteLength`. -/
def byteLength (payload : Json.Object) : Nat := (host.canonicalJson (.obj payload)).utf8ByteSize

/-- `runtime_budget_exceeded`. -/
def budgetError (message : String) : StoreError := .agent "runtime_budget_exceeded" message

/-- The limits on output, with `bytes` and `events` added to what is used. -/
def checkOutput (snapshot : Snapshot) (bytes events : Nat) : Except StoreError Unit :=
  if exceeds snapshot.budgets.maxOutputBytes (snapshot.usage.outputBytes + bytes : Nat) then
    .error (budgetError "Run output-byte budget is exhausted")
  else if exceeds snapshot.budgets.maxOutputEvents (snapshot.usage.outputEvents + events : Nat) then
    .error (budgetError "Run output-event budget is exhausted")
  else .ok ()

/-- `checkBudget`. -/
def checkBudget (snapshot : Snapshot) (draft : CopiedDraft) : Except StoreError Unit :=
  if draft.kind.metered = true then checkOutput snapshot (byteLength host draft.payload) 1
  else .ok ()

/-- `checkRelatedBudget`. -/
def checkRelatedBudget (snapshot : Snapshot) (drafts : List CopiedDraft) : Except StoreError Unit :=
  let metered := drafts.filter (·.kind.metered)
  checkOutput snapshot (metered.map fun draft => byteLength host draft.payload).sum metered.length

/-- `tokenBudgetKind`. -/
def tokenBudgetKind (snapshot : Snapshot) (inclusive : Bool) : Option String :=
  let budgets := snapshot.budgets
  let usage := snapshot.usage
  let exceeds (maximum : Option Int) (used : Int) : Bool :=
    maximum.any fun maximum => maximum < used ∨ inclusive = true ∧ maximum ≤ used
  if 0 < usage.unreportedUsageAttempts ∧ (budgets.maxInputTokens.isSome ∨
      budgets.maxRunGenerationTokens.isSome ∨ budgets.maxReasoningTokens.isSome) then
    some "provider_usage_unreported"
  else if 0 < usage.unreportedReasoningAttempts ∧ budgets.maxReasoningTokens.isSome then
    some "reasoning_tokens_unreported"
  else if exceeds budgets.maxInputTokens usage.inputTokens then some "input_tokens"
  else if exceeds budgets.maxRunGenerationTokens usage.generationTokens then some "generation_tokens"
  else if exceeds budgets.maxReasoningTokens usage.reasoningTokens then some "reasoning_tokens"
  else none

/-- `requireBudgetForNextInvocation`. -/
def requireBudgetForNextInvocation (snapshot : Snapshot) : Except StoreError Unit :=
  match tokenBudgetKind snapshot true with
  | some kind => .error (budgetError ("Run " ++ kind ++ " budget is exhausted"))
  | none => .ok ()

/-- A usage with what an invocation used. -/
def Usage.charge (used : Usage) : Option TokenUsage → Usage
  | none => { used with unreportedUsageAttempts := used.unreportedUsageAttempts + 1 }
  | some usage =>
    { used with
      inputTokens := used.inputTokens + usage.inputTokens
      generationTokens := used.generationTokens + usage.generationTokens.getD 0
      reasoningTokens := used.reasoningTokens + usage.reasoningTokens.getD 0
      unreportedReasoningAttempts := used.unreportedReasoningAttempts +
        if usage.reasoningTokens = none then 1 else 0 }

/-- A usage with an event of output. -/
def Usage.emit (used : Usage) (bytes : Nat) : Usage :=
  { used with outputBytes := used.outputBytes + bytes, outputEvents := used.outputEvents + 1 }

/-- A usage with one more attempt. -/
def Usage.attempt (used : Usage) : Usage := { used with modelAttempts := used.modelAttempts + 1 }

/-- `updateUsage`. -/
def updateUsage (runId : String) (f : Usage → Usage) : Act Unit :=
  .write fun s => s.setRun runId fun run => { run with snapshot := { run.snapshot with
    version := run.snapshot.version + 1
    updatedAt := host.toISOString env.now
    usage := f run.snapshot.usage } }

/-- `updateUsage` of a Run, and of its Root if that is another. -/
def updateUsages (runId rootId : String) (f : Usage → Usage) : Act Unit := do
  updateUsage host env runId f
  if rootId ≠ runId then updateUsage host env rootId f else pure ()

/-! ## `append` -/

/-- `canonicalJson` of a payload that was handed in. -/
def givenJson : Option (Given Json.Object) → String
  | none => host.canonicalJson (.obj [])
  | some (.json payload) => host.canonicalJson (.obj payload)
  | some (.other text) => text

/-- `requireSameEvent`. -/
def requireSameEvent (existing : Event) (draft : Draft) (runId : String) : Except StoreError Unit :=
  if existing.runId ≠ runId ∨ existing.kind ≠ draft.kind ∨ existing.channel ≠ draft.channel ∨
      existing.visibility ≠ draft.visibility ∨
      host.canonicalJson (.obj existing.payload) ≠ givenJson host draft.payload then
    .error (.agent "output_source_key_conflict" "Output source key has different content")
  else .ok ()

/-- `applyBudget`. -/
def applyBudget (runId rootId : String) (draft : CopiedDraft) : Act Unit := do
  let s ← .read
  .ofExcept (checkBudget host (s.run rootId).snapshot draft)
  if draft.kind.metered = true then
    updateUsages host env runId rootId (·.emit (byteLength host draft.payload))
  else pure ()

/-- An event is pushed on the journals of its Run and its Root. -/
def pushEvent (runId : String) (event : Event) (s : State) : State :=
  let rootRunId := (s.run runId).rootRunId
  let sources := (s.rootSources rootRunId).set event.sourceKey event
  let pushed := { s with
    rootEvents := s.rootEvents.set rootRunId (s.rootJournal rootRunId ++ [event])
    rootEventsBySourceKey := s.rootEventsBySourceKey.set rootRunId sources }
  pushed.setRun runId fun run => { run with
    events := run.events ++ [event]
    bySourceKey := run.bySourceKey.set event.sourceKey event
    snapshot := { run.snapshot with
      version := run.snapshot.version + 1
      updatedAt := event.occurredAt } }

/-- The event that is made of a draft. -/
def eventOf (s : State) (runId : String) (draft : CopiedDraft) : Event :=
  let run := s.run runId
  { draft with
    eventId := env.freshEventId (eventCount s runId true + 1)
    runId
    rootRunId := run.rootRunId
    agentId := run.agentId
    parentRunId := run.parentRunId
    sequence := eventCount s runId + 1
    rootSequence := eventCount s runId true + 1
    occurredAt := host.toISOString env.now }

/-- `append`; `rootId` is the Run whose budget is charged. -/
def append (runId : String) (raw : Draft) (meter : Bool) (rootId : String) : Act Event := do
  match ← sourceEvent runId raw.sourceKey with
  | some existing =>
    .ofExcept (requireSameEvent host existing raw runId)
    pure existing
  | none =>
    let draft ← .ofExcept (copyDraft raw)
    validatePlanningProjection host runId draft
    let s ← .read
    throwIf (¬ isSafeInteger (eventCount s runId + 1 : Nat) ∨
        ¬ isSafeInteger (eventCount s runId true + 1 : Nat))
      (.type "output journal sequence exceeds safe integer range")
    (if meter then applyBudget host env runId rootId draft else pure ())
    let event := eventOf host env s runId draft
    .write (pushEvent runId event)
    pure event

/-- `sourceEvent(run, key) ?? append(...)`. -/
def foundOr (runId key : String) (appended : Act Event) : Act Event := do
  match ← sourceEvent runId key with
  | some existing => pure existing
  | none => appended

/-- An event of the repository itself. -/
def record (runId sourceKey : String) (kind : Kind) (visibility : Visibility)
    (payload : Given Json.Object) : Act Event :=
  append host env runId
    { sourceKey, kind, channel := .lifecycle, visibility, payload := some payload } false runId

/-! ## Runs -/

/-- `#require`. -/
def require (runId : String) : Act StoredRun := do
  let s ← .read
  match s.runs.get? runId with
  | none => refuse "run_not_found" "Run does not exist"
  | some run =>
    if run.rootRunId ∈ s.unloadedRoots then
      refuse "run_scope_not_loaded" "Root journal is not loaded"
    else pure run

/-- `#requireLease`. -/
def requireLease (run : StoredRun) (claim : LeaseClaim) : Act Unit :=
  if run.leaseOwnerId = none ∨ run.leaseEpoch = none then pure ()
  else .ofExcept (env.leaseValidator run.runId claim)

/-- `Date.now() >= Date.parse(deadlineAt)`. -/
def elapsed (run : StoredRun) : Bool :=
  (run.snapshot.deadlineAt.bind host.dateParse).any fun deadline => deadline ≤ env.now

/-- `run_deadline_exceeded`. -/
def deadlineError : StoreError := .agent "run_deadline_exceeded" "Run deadline has elapsed"

/-- `#active`. -/
def active (runId : String) (claim : LeaseClaim) : Act StoredRun := do
  let run ← require runId
  throwIf (run.snapshot.status ≠ .running) (.agent "run_not_active" "Run is already terminal")
  throwIf (elapsed host env run) deadlineError
  requireLease env run claim
  pure run

/-! ### `begin` -/

/-- `RunBeginParams`. -/
structure BeginParams where
  requestedRunId : Option String := none
  rootRunId : Option String := none
  agentId : Option String := none
  parentRunId : Option String := none
  leaseOwnerId : Option String := none
  leaseEpoch : Option Int := none
  preset : Json.Object := []
  deadlineAt : Option String := none
  budgets : Budgets := {}

/-- `nullablePositiveBudget`. -/
def nullablePositiveBudget (value : Option Int) (label : String) : Except StoreError Unit :=
  match value with
  | none => .ok ()
  | some value => do
    let normalized ← nonNegativeInteger value label
    if normalized < 1 then .error (.type (label ++ " must be positive or null")) else pure ()

/-- `normalizeRunBudgets`: what it lets through it does not change. -/
def normalizeRunBudgets (budgets : Budgets) : Except StoreError Unit := do
  nullablePositiveBudget budgets.maxModelAttempts "maxModelAttempts"
  nullablePositiveBudget budgets.maxInputTokens "maxInputTokens"
  nullablePositiveBudget budgets.maxRunGenerationTokens "maxRunGenerationTokens"
  nullablePositiveBudget budgets.maxReasoningTokens "maxReasoningTokens"
  nullablePositiveBudget budgets.maxOutputBytes "maxOutputBytes"
  nullablePositiveBudget budgets.maxOutputEvents "maxOutputEvents"

/-- A text that may be missing. -/
def optionalText (value : Option String) (label : String) : Except StoreError (Option String) :=
  match value with
  | none => .ok none
  | some value => some <$> requiredText value label

/-- The blank Run that `begin` stores, once its fields are checked. -/
def newRun (params : BeginParams) (runId : String) : Except StoreError StoredRun := do
  let rootRunId ← requiredText (params.rootRunId.getD runId) "root Run id"
  let agentId ← requiredText (params.agentId.getD runId) "Agent id"
  let parentRunId ← optionalText params.parentRunId "parent Run id"
  let leaseOwnerId ← optionalText params.leaseOwnerId "lease owner id"
  let leaseEpoch ← params.leaseEpoch.mapM (nonNegativeInteger · "lease epoch")
  if leaseOwnerId.isSome ≠ leaseEpoch.isSome then
    .error (.type "Run lease owner and epoch must be provided together")
  else
    let now := host.toISOString env.now
    let snapshot : Snapshot :=
      { runId, createdAt := now, updatedAt := now, deadlineAt := params.deadlineAt
        budgets := params.budgets, preset := params.preset }
    pure { runId, rootRunId, agentId, parentRunId, leaseOwnerId, leaseEpoch, snapshot }

/-- The lease a Run is begun with. -/
def checkLease (run : StoredRun) : Except StoreError Unit :=
  match run.leaseOwnerId, run.leaseEpoch with
  | some owner, some epoch => env.leaseValidator run.runId ⟨some owner, some (epoch : Int)⟩
  | _, _ => .ok ()

/-- The place of a Run in the tree of its Root. -/
def checkScope (run : StoredRun) : Act Unit :=
  if run.rootRunId = run.runId then
    throwIf run.parentRunId.isSome (.agent "run_scope_conflict" "Root Run cannot have a parent Run")
  else do
    let root ← require run.rootRunId
    throwIf (root.rootRunId ≠ run.rootRunId)
      (.agent "run_scope_conflict" "Run scope root is not a Root Run")
    match run.parentRunId with
    | none => refuse "run_scope_conflict" "Child Run requires a parent Run"
    | some parentRunId => do
      let parent ← require parentRunId
      throwIf (parent.rootRunId ≠ run.rootRunId)
        (.agent "run_scope_conflict" "Parent Run belongs to another Root scope")

/-- The journal of a Root is opened, if it is not. -/
def openJournal (rootRunId : String) (s : State) : State :=
  { s with
    rootEvents := s.rootEvents.set rootRunId (s.rootJournal rootRunId)
    rootEventsBySourceKey := s.rootEventsBySourceKey.set rootRunId (s.rootSources rootRunId) }

/-- A Run is stored; it takes over the deferred journal of its Root. -/
def addRun (run : StoredRun) (s : State) : State :=
  let history := if run.rootRunId = run.runId then none else s.deferredHistories.get? run.rootRunId
  { s with
    runs := s.runs.set run.runId run
    deferredHistories := match history with
      | some history =>
        s.deferredHistories.set run.runId { history with count := 0, loadedRun := some [] }
      | none => s.deferredHistories }

/-- `begin`. -/
def begin (params : BeginParams) : Act (Snapshot × Event) := do
  let runId ← .ofExcept (match params.requestedRunId with
    | none => .ok env.freshRunId
    | some id => requiredText id "requested Run id")
  let s ← .read
  throwIf (runId ∈ s.runs.keys)
    (.agent "run_identity_conflict" "Requested Run id already exists")
  let run ← .ofExcept (newRun host env params runId)
  .ofExcept (checkLease env run)
  checkScope run
  .write (openJournal run.rootRunId)
  .ofExcept (normalizeRunBudgets params.budgets)
  .write (addRun run)
  let event ← record host env runId ("run:" ++ runId ++ ":started") .runStarted .pub
    (.json [("status", .str "running"), ("preset", .obj params.preset)])
  let s ← .read
  pure ((s.run runId).snapshot, event)

/-! ### Invocations -/

/-- `/^[0-9a-f]{64}$/`. -/
def isDigest (value : Option Json) : Bool :=
  (asText value).any fun text => text.toList.length = 64 ∧
    text.toList.all fun c => c.isDigit || ('a' ≤ c && c ≤ 'f')

/-- A text that is not blank and fits in 128 bytes. -/
def isName (value : Option Json) : Bool :=
  (asText value).any fun text => validText text ∧ text.utf8ByteSize ≤ 128

/-- The output contract of a receipt. -/
def validOutputContract (output : Json.Object) : Bool :=
  let mode := asText (Json.field? output "mode")
  asText (Json.field? output "schemaProfile") = some "purra.output-schema/v1" &&
    (mode = some "local" || mode = some "native_required") &&
    isName (Json.field? output "schemaId") && isName (Json.field? output "schemaVersion") &&
    isDigest (Json.field? output "schemaDigest") && isDigest (Json.field? output "contractDigest") &&
    (mode ≠ some "native_required" ||
      (asText (Json.field? output "nativeDialect")).any fun text =>
        validText text ∧ utf16Length text ≤ 128)

/-- The structured task of a receipt. -/
def validStructuredTask (task : StructuredTask) : Bool :=
  validText task.taskId && isSafeInteger task.attempt && 1 ≤ task.attempt &&
    if task.attempt = 1 then task.previousInvocationId = none
    else task.previousInvocationId.any fun text => validText text

/-- `validateStructuredReceipt`. -/
def validateStructuredReceipt (input : ReceiptInput) : Except StoreError Unit :=
  let valid := input.schemaVersion = 3 && match input.outputContract with
    | none => input.structuredTask = none
    | some (.obj output) => input.outputProtocol = none && input.planningScope = none &&
        validOutputContract output && input.structuredTask.all validStructuredTask
    | some _ => false
  if valid then .ok ()
  else .error (.agent "model_invocation_contract_invalid" "Invalid structured invocation receipt")

/-- The planning scope and the protocol of a receipt. -/
def checkPlanningScope (runId : String) (input : ReceiptInput) : Except StoreError Unit :=
  if input.runId ≠ runId ∨ (input.outputProtocol.any fun name => name ≠ planningStreamSchema) ∨
      (input.planningScope.any fun scope => input.outputProtocol ≠ some planningStreamSchema ∨
        scope.runId ≠ runId ∨ ¬ isSafeInteger scope.revision ∨ scope.revision < 0) then
    .error (.agent "planning_scope_conflict" "Invalid invocation planning scope or protocol")
  else .ok ()

/-- An invocation is opened. -/
def openReceipt (runId : String) (receipt : Receipt) (s : State) : State :=
  s.setRun runId fun run => { run with
    openInvocations := if receipt.invocationId ∈ run.openInvocations then run.openInvocations
      else run.openInvocations ++ [receipt.invocationId]
    invocationReceipts := run.invocationReceipts.set receipt.invocationId receipt }

/-- `openInvocation`. -/
def openInvocation (runId : String) (input : ReceiptInput) (claim : LeaseClaim) :
    Act (Snapshot × Receipt × Option Event) := do
  let run ← active host env runId claim
  let root ← require run.rootRunId
  .ofExcept (validateStructuredReceipt input)
  throwIf (input.schemaVersion ≠ 3)
    (.agent "model_invocation_contract_invalid" "Unsupported model invocation receipt schema")
  .ofExcept (checkPlanningScope runId input)
  (match input.planningScope with
    | some scope => requirePlanningOperation runId scope.operationId
    | none => pure ())
  match run.invocationReceipts.get? input.invocationId with
  | some existing => do
    throwIf (host.canonicalJson (.obj existing.toReceiptInput.json) ≠
        host.canonicalJson (.obj input.json))
      (.agent "model_invocation_conflict" "Model invocation key has different authority")
    let event ← sourceEvent runId ("invocation:" ++ existing.invocationId ++ ":started") false
    pure (run.snapshot, existing, event)
  | none => do
    .ofExcept (requireBudgetForNextInvocation root.snapshot)
    throwIf (exceeds root.snapshot.budgets.maxModelAttempts
        (root.snapshot.usage.modelAttempts + 1 : Nat))
      (budgetError "Root Run model-attempt budget is exhausted")
    let receipt : Receipt :=
      { input with
        attempt := run.snapshot.usage.modelAttempts + 1
        openedAt := host.toISOString env.now }
    .write (openReceipt runId receipt)
    updateUsages host env runId root.runId Usage.attempt
    let event ← record host env runId ("invocation:" ++ receipt.invocationId ++ ":started")
      .invocationStarted .priv (.json [("receipt", .obj receipt.json)])
    let s ← .read
    pure ((s.run runId).snapshot, receipt, some event)

/-- An invocation is closed. -/
def closeInvocation (runId invocationId : String) (s : State) : State :=
  s.setRun runId fun run =>
    { run with openInvocations := run.openInvocations.erase invocationId }

/-- A settlement is kept. -/
def keepSettlement (runId : String) (settled : Settled) (s : State) : State :=
  s.setRun runId fun run => { run with
    invocationSettlements := run.invocationSettlements.set settled.input.invocationId settled }

/-- The payload of the event that settles an invocation. -/
def settlementPayload (settlement : Settlement) (status : SettlementStatus)
    (errorCode : Option String) : Json.Object :=
  [("invocationId", .str settlement.invocationId), ("status", .str status.value)] ++
  (match settlement.usage with
    | none => [("usageReported", .bool false)]
    | some usage => [("inputTokens", .int usage.inputTokens),
        ("generationTokens", .int (usage.generationTokens.getD 0)),
        ("reasoningTokens", (usage.reasoningTokens.map Json.int).getD .null)]) ++
  optionalField "errorCode" Json.str errorCode

/-- `settleInvocation`. -/
def settleInvocation (runId : String) (settlement : Settlement) (claim : LeaseClaim) :
    Act (Event × Option String) := do
  let run ← active host env runId claim
  let root ← require run.rootRunId
  match run.invocationSettlements.get? settlement.invocationId with
  | some replay => do
    throwIf (host.canonicalJson replay.input.json ≠ host.canonicalJson settlement.json)
      (.agent "model_invocation_settlement_conflict" "Invocation settlement conflicts")
    pure (replay.event, replay.budgetError)
  | none => do
    throwIf (settlement.invocationId ∉ run.openInvocations)
      (.agent "model_invocation_not_open" "Model invocation is not open")
    .write (closeInvocation runId settlement.invocationId)
    updateUsages host env runId root.runId (·.charge settlement.usage)
    let s ← .read
    let budgetError := (tokenBudgetKind (s.run root.runId).snapshot false).map fun _ =>
      "runtime_budget_exceeded"
    let status := if budgetError = none then settlement.status else .failed
    let kind := match status with
      | .completed => .invocationCompleted
      | .failed => .invocationFailed
    let event ← record host env runId
      ("invocation:" ++ settlement.invocationId ++ ":" ++ status.value) kind .priv
      (.json (settlementPayload settlement status (budgetError.or settlement.errorCode)))
    .write (keepSettlement runId { input := settlement, event, budgetError })
    pure (event, budgetError)

/-! ### Output -/

/-- `appendEvent`. -/
def appendEvent (runId : String) (draft : Draft) (claim : LeaseClaim) : Act Event := do
  let run ← active host env runId claim
  match ← sourceEvent runId draft.sourceKey with
  | some existing => do
    .ofExcept (requireSameEvent host existing draft runId)
    pure existing
  | none => do
    let root ← require run.rootRunId
    append host env runId draft true root.runId

/-- The drafts of a batch that are not in the journal. -/
def pendingDrafts (runId : String) : List CopiedDraft → Act (List CopiedDraft)
  | [] => pure []
  | draft :: drafts => do
    match ← sourceEvent runId draft.sourceKey with
    | some existing => do
      .ofExcept (requireSameEvent host existing draft.draft runId)
      pendingDrafts runId drafts
    | none => do
      let rest ← pendingDrafts runId drafts
      pure (draft :: rest)

/-- Every draft is appended that is not in the journal. -/
def appendDrafts (runId rootId : String) : List CopiedDraft → Act (List Event)
  | [] => pure []
  | draft :: drafts => do
    let event ← foundOr runId draft.sourceKey (append host env runId draft.draft true rootId)
    let rest ← appendDrafts runId rootId drafts
    pure (event :: rest)

/-- `appendBatch`. -/
def appendBatch (runId : String) (drafts : List Draft) (claim : LeaseClaim) :
    Act (List Event) := do
  let run ← active host env runId claim
  if drafts = [] then pure []
  else do
    let copied ← .ofExcept (drafts.mapM copyDraft)
    throwIf (¬ (copied.map (·.sourceKey)).Nodup)
      (.agent "output_batch_conflict" "Output batch source keys must be unique")
    let pending ← pendingDrafts host runId copied
    let root ← require run.rootRunId
    pending.forM (validatePlanningProjection host runId)
    .ofExcept (checkRelatedBudget host root.snapshot pending)
    appendDrafts host env runId root.runId copied

/-! ### Checkpoints -/

/-- `agent_execution_checkpoint_conflict`. -/
def checkpointError (message : String) : StoreError :=
  .agent "agent_execution_checkpoint_conflict" message

/-- How a checkpoint continues the one there is. -/
def checkContinuation (snapshot : Snapshot) (copied : Checkpoint) : Except StoreError Unit :=
  if snapshot.toolExecutionCheckpoint.any fun tool => copied.nextRound ≠ tool.nextRound + 1 then
    .error (checkpointError "Pending tool continuation must advance exactly one round")
  else match snapshot.executionCheckpoint with
    | none => .ok ()
    | some current =>
      if copied.nextRound < current.nextRound then
        .error (checkpointError "Agent execution checkpoint cannot move backwards")
      else if copied.nextRound = current.nextRound ∧
          host.canonicalJson (.obj copied.content) ≠ host.canonicalJson (.obj current.content) ∧
          host.isInputCheckpointUpdate current copied = false then
        .error (checkpointError "Agent execution checkpoint content conflicts")
      else .ok ()

/-- `saveExecutionCheckpoint`. -/
def saveExecutionCheckpoint (runId : String) (checkpoint : Checkpoint) (claim : LeaseClaim) :
    Act (Snapshot × Event) := do
  let run ← active host env runId claim
  let copied ← .ofExcept (host.copyExecutionCheckpoint checkpoint)
  throwIf (copied.runId ≠ runId)
    (checkpointError "Agent execution checkpoint belongs to another Run")
  .ofExcept (checkContinuation host run.snapshot copied)
  let event ← record host env runId
    ("agent-checkpoint:" ++ runId ++ ":" ++ toString copied.nextRound ++ ":" ++
      toString (copied.inputRevision.getD 0))
    .agentExecutionCheckpoint .priv
    (.json [("schemaVersion", .int copied.schemaVersion), ("phase", .str copied.phase),
      ("executionProfile", .str copied.executionProfile), ("nextRound", .int copied.nextRound)])
  .write fun s => s.setRun runId fun run => { run with snapshot := { run.snapshot with
    executionCheckpoint := some copied
    toolExecutionCheckpoint := none } }
  let s ← .read
  pure ((s.run runId).snapshot, event)

/-- `hasSettledToolInvocation`. -/
def hasSettledToolInvocation (runId invocationId : String) : Act Bool := do
  let run ← require runId
  match run.invocationReceipts.get? invocationId, run.invocationSettlements.get? invocationId with
  | some receipt, some settled =>
    if receipt.attempt = run.snapshot.usage.modelAttempts ∧ run.openInvocations = [] ∧
        settled.input.status = .completed ∧ settled.budgetError = none then do
      let root ← require run.rootRunId
      pure (tokenBudgetKind root.snapshot false = none)
    else pure false
  | _, _ => pure false

/-- `saveToolExecutionCheckpoint`. -/
def saveToolExecutionCheckpoint (runId : String) (checkpoint : ToolCheckpoint)
    (claim : LeaseClaim) : Act (Snapshot × Event) := do
  let run ← active host env runId claim
  let copied ← .ofExcept (host.copyToolExecutionCheckpoint checkpoint)
  let settled ← (if copied.runId ≠ runId then pure false
    else hasSettledToolInvocation runId copied.invocationId)
  throwIf (settled = false)
    (checkpointError "Tool checkpoint requires the latest settled invocation")
  throwIf (copied.nextRound < ((run.snapshot.executionCheckpoint.map (·.nextRound)).getD 1) ∨
      run.snapshot.toolExecutionCheckpoint.any fun current =>
        host.canonicalJson (.obj current.content) ≠ host.canonicalJson (.obj copied.content))
    (checkpointError "Tool checkpoint conflicts with the canonical continuation")
  let key := "agent-tool-checkpoint:" ++ runId ++ ":" ++ toString copied.nextRound
  let payload : Json.Object := [("schemaVersion", .int 3), ("phase", .str "tool_ready"),
    ("executionProfile", .str copied.executionProfile), ("nextRound", .int copied.nextRound)]
  let event ← foundOr runId key
    (record host env runId key .agentExecutionCheckpoint .priv (.json payload))
  .write fun s => s.setRun runId fun run => { run with snapshot := { run.snapshot with
    toolExecutionCheckpoint := some copied } }
  let s ← .read
  pure ((s.run runId).snapshot, event)

/-! ### `settleRun` -/

/-- A usage that was read from a payload. -/
def usageOf (usage : Json) : Except StoreError TokenUsage :=
  match usage with
  | .null => .error (.type "Cannot read properties of null")
  | value =>
    let field (key : String) : Option Json := match value with
      | .obj fields => Json.field? fields key
      | _ => none
    let tokens := field "generationTokens"
    let reasoning := field "reasoningTokens"
    .ok {
      inputTokens := host.number (field "inputTokens")
      generationTokens := match tokens with
        | none | some .null => none
        | some value => some (host.number (some value))
      reasoningTokens := match reasoning with
        | none => none
        | some .null => some 0
        | some value => some (host.number (some value)) }

/-- The last usage the Provider reported for an invocation. -/
def observedUsage (history : List Event) (invocationId : String) : Option Json :=
  (history.reverse.find? fun event => event.kind = .modelUsage ∧
    asText (event.field "invocationId") = some invocationId).bind fun event => event.field "usage"

/-- An open invocation of a Run that is settled. -/
def abortInvocation (runId rootId : String) (status : TerminalStatus) (invocationId : String) :
    Act Event := do
  .write (closeInvocation runId invocationId)
  let history ← historyEvents runId
  let observed := observedUsage history invocationId
  let usage ← .ofExcept (observed.mapM (usageOf host))
  updateUsages host env runId rootId (·.charge usage)
  record host env runId ("invocation:" ++ invocationId ++ ":aborted:" ++ status.value)
    .invocationAborted .priv
    (.json ([("invocationId", .str invocationId), ("cause", .str "run_terminal_commit"),
        ("usageReported", .bool observed.isSome)] ++
      match observed with
      | none => []
      | some usage => [("usage", usage), ("usageSource", .str "last_observed")]))

/-- The payload of the event that finishes an operation. -/
def finishedPayload (runId : String) (status : TerminalStatus) (started : Event) :
    Given Json.Object :=
  let outcome := match status with
    | .canceled => "canceled"
    | _ => "failed"
  let shown := match started.field "display" with
    | none | some .null => .obj []
    | some value => value
  let payload (duration : Json) : Json.Object :=
    [("type", .str "operation.finished"),
      ("operationId", .str (display host (started.field "operationId"))), ("runId", .str runId)] ++
    optionalField "invocationId" id (started.field "invocationId") ++
    optionalField "parentOperationId" id (started.field "parentOperationId") ++
    [("status", .str outcome), ("errorCode", .str "run_terminalized"),
      ("finishedAt", .str (host.toISOString env.now)), ("durationMs", duration),
      ("timingSource", .str "recovery_wall_clock"), ("display", shown)]
  match host.dateParse started.occurredAt with
  | some start => .json (payload (.int (max 0 (env.now - start))))
  -- a duration that is not a number
  | none => .other (host.canonicalJson (.obj (payload .null)))

/-- The operation was finished. -/
def isFinished (history : List Event) (operationId : String) : Bool :=
  history.any fun event => event.kind = .operationFinished ∧
    asText (event.field "operationId") = some operationId

/-- An operation of a Run that is settled. -/
def finishOperation (runId : String) (status : TerminalStatus) (started : Event) :
    Act (Option Event) := do
  let operationId := display host (started.field "operationId")
  let history ← historyEvents runId
  if isFinished history operationId then pure none
  else do
    let event ← record host env runId ("operation:" ++ operationId ++ ":operation.finished")
      .operationFinished started.visibility (finishedPayload host env runId status started)
    pure (some event)

/-- A loop that collects what its turns return. -/
def collect {α β : Type} (turn : α → Act β) : List α → Act (List β)
  | [] => pure []
  | a :: rest => do
    let b ← turn a
    let bs ← collect turn rest
    pure (b :: bs)

/-- The options of `settleRun`. -/
structure SettleOptions where
  relatedEvents : List Draft := []
  finalOutput : Option (Given Json) := none
  errorCode : Option String := none

/-- A letter in lower case, as far as a code may hold it. -/
def lower (c : Char) : Char := if c = '\u212a' then 'k' else c.toLower

/-- A character of a code. -/
def isCodeChar (c : Char) : Bool := c.isDigit || c.isLower || c = '_' || c = '.' || c = '-'

/-- `normalizeCode`. -/
def normalizeCode (value : String) : String :=
  let code := (trim value).toList.map lower
  if code ≠ [] ∧ code.length ≤ 128 ∧ code.all isCodeChar ∧
      code.head?.any fun c => c.isDigit || c.isLower then String.ofList code
  else "run_failed"

/-- What `settleRun` asks of a Run that is running. -/
def checkSettle (run : StoredRun) (status : TerminalStatus) (options : SettleOptions) :
    Except StoreError Unit :=
  if status = .completed ∧ options.finalOutput.isNone then
    .error (.type "Completed Run requires finalOutput")
  else if status = .completed ∧ elapsed host env run then .error deadlineError
  else if status = .failed ∧ ¬ options.errorCode.any fun code => validText code then
    .error (.type "Failed Run requires errorCode")
  else .ok ()

/-- The snapshot of a Run that is settled. -/
def settledSnapshot (status : TerminalStatus) (finalOutput : Option Json)
    (errorCode : Option String) (snapshot : Snapshot) : Snapshot :=
  { snapshot with
    status := status.status
    version := snapshot.version + 1
    updatedAt := host.toISOString env.now
    finalOutput := finalOutput.or snapshot.finalOutput
    errorCode := (errorCode.map normalizeCode).or snapshot.errorCode }

/-- What `settleRun` does with a Run that it may settle. -/
def terminate (runId rootId : String) (status : TerminalStatus) (options : SettleOptions)
    (related : List CopiedDraft) : Act (Snapshot × List Event) := do
  let s ← .read
  let aborted ← collect (abortInvocation host env runId rootId status)
    (s.run runId).openInvocations
  let history ← historyEvents runId
  let finished ← collect (finishOperation host env runId status)
    (history.filter (·.kind = .operationStarted))
  let appended ← collect (fun draft : CopiedDraft =>
    append host env runId draft.draft true rootId) related
  let finalOutput ← .ofExcept (options.finalOutput.mapM copyGiven)
  .write fun s => s.setRun runId fun run => { run with
    snapshot := settledSnapshot host env status finalOutput options.errorCode run.snapshot }
  let event ← record host env runId ("run:" ++ runId ++ ":" ++ status.value) status.kind .pub
    (.json ([("status", .str status.value)] ++
      optionalField "errorCode" Json.str (options.errorCode.map normalizeCode)))
  let s ← .read
  pure ((s.run runId).snapshot, aborted ++ finished.filterMap id ++ appended ++ [event])

/-- `settleRun`. -/
def settleRun (runId : String) (status : TerminalStatus) (options : SettleOptions)
    (claim : LeaseClaim) : Act (Snapshot × List Event) := do
  let run ← require runId
  if run.snapshot.status ≠ .running then
    if run.snapshot.status = status.status then pure (run.snapshot, [])
    else refuse "run_terminal_conflict" "Run already has a different terminal status"
  else do
    requireLease env run claim
    .ofExcept (checkSettle host env run status options)
    let related ← .ofExcept (options.relatedEvents.mapM copyDraft)
    let root ← require run.rootRunId
    .ofExcept (checkRelatedBudget host root.snapshot related)
    terminate host env runId root.runId status options related

/-- `cancel`: whether it was accepted, the status and the events. -/
def cancel (runId : String) (claim : LeaseClaim) : Act (Bool × RunStatus × List Event) := do
  let run ← require runId
  if run.snapshot.status ≠ .running then pure (false, run.snapshot.status, [])
  else do
    let (_, events) ← settleRun host env runId .canceled {} claim
    pure (true, .canceled, events)

/-! ### Reading -/

end

end Purra.RunStore
