import Purra.Core.JsonValues
import Purra.Lib.Action
import Purra.Lib.Dict
import Purra.Lib.Trim

/-!
# The records of the TypeScript Run store

What `InMemoryRunRepository` of `src/typescript/src/run/store.ts` stores and is given
(`run/types.ts`, `output/types.ts`).

* `Draft`, `Event` — an output event before and after it is appended; `copyDraft` checks a draft.
* `Snapshot`, `StoredRun`, `State` — the tables of the repository.
* `DeferredHistory` — the journal of a Run that is left where it is stored.
* `Host` — the parts of the platform the code calls, and of the SDK that only decides whether a
  checkpoint or a planning projection is well formed.
* `Env` — what one call finds outside: the clock, fresh ids and who holds the lease.
-/

namespace Purra.RunStore

/-- What a method throws: an `AgentError` with its code, or a `TypeError`. -/
inductive StoreError where
  | agent (code message : String)
  | type (message : String)
  deriving DecidableEq, Repr

/-! ## Text and numbers -/

/-- The characters `String.prototype.trim` removes. -/
def isWhite (c : Char) : Bool :=
  let n := c.toNat
  (9 ≤ n && n ≤ 13) || n = 32 || n = 160 || n = 5760 || (8192 ≤ n && n ≤ 8202) || n = 8232 ||
    n = 8233 || n = 8239 || n = 8287 || n = 12288 || n = 65279

/-- `trim`. -/
def trim (s : String) : String := trimWith isWhite s

/-- `requiredText`. -/
def requiredText (value label : String) : Except StoreError String :=
  if trim value = "" then .error (.type (label ++ " must be non-empty text")) else .ok (trim value)

/-- `validText`. -/
def validText (value : String) : Prop := trim value ≠ ""

instance (value : String) : Decidable (validText value) := inferInstanceAs (Decidable (_ ≠ _))

/-- `Number.MAX_SAFE_INTEGER`. -/
def maxSafeInteger : Nat := 9007199254740991

/-- `Number.isSafeInteger`. -/
def isSafeInteger (n : Int) : Prop := n.natAbs ≤ maxSafeInteger

instance (n : Int) : Decidable (isSafeInteger n) := inferInstanceAs (Decidable (_ ≤ _))

/-- `nonNegativeInteger`. -/
def nonNegativeInteger (value : Int) (label : String) : Except StoreError Nat :=
  if isSafeInteger value ∧ 0 ≤ value then .ok value.toNat
  else .error (.type (label ++ " must be a non-negative integer"))

/-! ## Output events -/

/-- `OutputEventKind`. -/
inductive Kind where
  | planningProgress | planningDelta | agentProgress | modelDiagnostics | operationStarted
  | operationFinished | agentRunTrace | runStarted | runCompleted | runFailed | runCanceled
  | invocationStarted | invocationCompleted | invocationFailed | invocationAborted | modelDelta
  | providerDeltaBatch | modelUsage | modelFinish | modelCompleted | reasoningDelta | commentary
  | final | toolStarted | toolCompleted | planUpdated | taskAdmissionDecided | longTaskDispatched
  | longTaskProgress | longTaskCheckpoint | durableRecoverySnapshot | agentExecutionCheckpoint
  | approvalRequired | inputRequired | inputAnswered
  deriving DecidableEq, Repr

/-- `METERED_KINDS`. -/
def Kind.metered : Kind → Bool
  | .planningProgress | .planningDelta | .modelDelta | .providerDeltaBatch | .reasoningDelta
  | .commentary | .final => true
  | _ => false

/-- `OutputChannel`. -/
inductive Channel where
  | reasoning | model | commentary | final | tool | plan | lifecycle
  deriving DecidableEq, Repr

/-- `OutputVisibility`. -/
inductive Visibility where
  | priv | pub
  deriving DecidableEq, Repr

/-- A value that is handed in: JSON, or something `copyJsonValue` refuses with what
`JSON.stringify` makes of it. -/
inductive Given (α : Type) where
  | json (v : α)
  | other (text : String)

/-- `OutputEventDraft`. -/
structure Draft where
  sourceKey : String
  kind : Kind
  channel : Channel
  visibility : Visibility
  payload : Option (Given Json.Object) := none

/-- A draft that was copied. -/
structure CopiedDraft where
  sourceKey : String
  kind : Kind
  channel : Channel
  visibility : Visibility
  payload : Json.Object

/-- A copied draft is a draft. -/
def CopiedDraft.draft (draft : CopiedDraft) : Draft :=
  { draft with payload := some (.json draft.payload) }

/-- `OutputEvent`. -/
structure Event extends CopiedDraft where
  eventId : String
  runId : String
  rootRunId : String
  agentId : String
  parentRunId : Option String
  sequence : Nat
  rootSequence : Nat
  occurredAt : String

/-- `copyJsonValue` of a value that was handed in. -/
def copyGiven {α : Type} : Given α → Except StoreError α
  | .json v => .ok v
  | .other _ => .error (.type "Unsupported JSON value")

/-- `copyJsonValue(draft.payload ?? {})`. -/
def copyPayload : Option (Given Json.Object) → Except StoreError Json.Object
  | none => .ok []
  | some given => copyGiven given

/-- `copyDraft`. -/
def copyDraft (draft : Draft) : Except StoreError CopiedDraft := do
  let sourceKey ← requiredText draft.sourceKey "output sourceKey"
  let payload ← copyPayload draft.payload
  pure { draft with sourceKey, payload }

/-! ## Invocations -/

/-- `PlanningScope`. -/
structure PlanningScope where
  runId : String
  operationId : String
  revision : Int
  deriving DecidableEq, Repr

/-- `ModelInvocationReceipt["structuredTask"]`. -/
structure StructuredTask where
  taskId : String
  attempt : Int
  previousInvocationId : Option String
  deriving DecidableEq, Repr

/-- A receipt before it is opened.  `rest` holds the fields the store only keeps: fingerprints,
evidence, the output budget. -/
structure ReceiptInput where
  schemaVersion : Int
  runId : String
  invocationId : String
  outputProtocol : Option String := none
  planningScope : Option PlanningScope := none
  planningAttempt : Option Int := none
  outputContract : Option Json := none
  structuredTask : Option StructuredTask := none
  rest : Json.Object := []

/-- `ModelInvocationReceipt`. -/
structure Receipt extends ReceiptInput where
  attempt : Nat
  openedAt : String

/-- A field that may be undefined. -/
def optionalField {α : Type} (name : String) (json : α → Json) : Option α → Json.Object
  | some value => [(name, json value)]
  | none => []

/-- A planning scope, as JSON. -/
def PlanningScope.json (scope : PlanningScope) : Json :=
  .obj [("runId", .str scope.runId), ("operationId", .str scope.operationId),
    ("revision", .int scope.revision)]

/-- A structured task, as JSON. -/
def StructuredTask.json (task : StructuredTask) : Json :=
  .obj [("taskId", .str task.taskId), ("attempt", .int task.attempt),
    ("previousInvocationId", (task.previousInvocationId.map Json.str).getD .null)]

/-- The receipt, as JSON. -/
def ReceiptInput.json (input : ReceiptInput) : Json.Object :=
  [("schemaVersion", .int input.schemaVersion), ("runId", .str input.runId),
    ("invocationId", .str input.invocationId)] ++
  optionalField "outputProtocol" Json.str input.outputProtocol ++
  optionalField "planningScope" PlanningScope.json input.planningScope ++
  optionalField "planningAttempt" Json.int input.planningAttempt ++
  optionalField "outputContract" id input.outputContract ++
  optionalField "structuredTask" StructuredTask.json input.structuredTask ++ input.rest

/-- The opened receipt, as JSON. -/
def Receipt.json (receipt : Receipt) : Json.Object :=
  receipt.toReceiptInput.json ++
    [("attempt", .int receipt.attempt), ("openedAt", .str receipt.openedAt)]

/-- `ModelTokenUsage`, as far as it is counted. -/
structure TokenUsage where
  inputTokens : Int
  generationTokens : Option Int := none
  reasoningTokens : Option Int := none
  /-- `totalTokens` and `cachedInputTokens`. -/
  rest : Json.Object := []

/-- The usage, as JSON. -/
def TokenUsage.json (usage : TokenUsage) : Json :=
  .obj ([("inputTokens", .int usage.inputTokens)] ++
    optionalField "generationTokens" Json.int usage.generationTokens ++
    optionalField "reasoningTokens" Json.int usage.reasoningTokens ++ usage.rest)

/-- `InvocationSettlement["status"]`. -/
inductive SettlementStatus where
  | completed | failed
  deriving DecidableEq, Repr

/-- The text of a status. -/
def SettlementStatus.value : SettlementStatus → String
  | .completed => "completed"
  | .failed => "failed"

/-- `InvocationSettlement`. -/
structure Settlement where
  invocationId : String
  status : SettlementStatus
  usage : Option TokenUsage := none
  errorCode : Option String := none

/-- The settlement, as JSON. -/
def Settlement.json (settlement : Settlement) : Json :=
  .obj ([("invocationId", .str settlement.invocationId),
    ("status", .str settlement.status.value)] ++
    optionalField "usage" TokenUsage.json settlement.usage ++
    optionalField "errorCode" Json.str settlement.errorCode)

/-- What is kept of a settlement. -/
structure Settled where
  input : Settlement
  event : Event
  budgetError : Option String

/-! ## Runs -/

/-- `RunStatus`. -/
inductive RunStatus where
  | running | completed | failed | canceled
  deriving DecidableEq, Repr

/-- `Exclude<RunStatus, "running">`. -/
inductive TerminalStatus where
  | completed | failed | canceled
  deriving DecidableEq, Repr

namespace TerminalStatus

/-- The text of a status. -/
def value : TerminalStatus → String
  | .completed => "completed"
  | .failed => "failed"
  | .canceled => "canceled"

/-- A terminal status is a status. -/
def status : TerminalStatus → RunStatus
  | .completed => .completed
  | .failed => .failed
  | .canceled => .canceled

/-- The event that settles a Run. -/
def kind : TerminalStatus → Kind
  | .completed => .runCompleted
  | .failed => .runFailed
  | .canceled => .runCanceled

end TerminalStatus

/-- `RunBudgets`. -/
structure Budgets where
  maxModelAttempts : Option Int := none
  maxInputTokens : Option Int := none
  maxRunGenerationTokens : Option Int := none
  maxReasoningTokens : Option Int := none
  maxOutputBytes : Option Int := none
  maxOutputEvents : Option Int := none
  deriving DecidableEq, Repr

/-- `RunUsage`. -/
structure Usage where
  modelAttempts : Nat := 0
  unreportedUsageAttempts : Nat := 0
  inputTokens : Int := 0
  generationTokens : Int := 0
  reasoningTokens : Int := 0
  unreportedReasoningAttempts : Nat := 0
  outputBytes : Nat := 0
  outputEvents : Nat := 0
  deriving DecidableEq, Repr

/-- `AgentExecutionCheckpoint`: the fields the store reads, and the whole of it as JSON. -/
structure Checkpoint where
  runId : String
  schemaVersion : Int
  phase : String
  executionProfile : String
  nextRound : Int
  inputRevision : Option Int
  content : Json.Object

/-- `AgentToolExecutionCheckpoint`. -/
structure ToolCheckpoint where
  runId : String
  executionProfile : String
  nextRound : Int
  invocationId : String
  content : Json.Object

/-- `RunSnapshot`. -/
structure Snapshot where
  runId : String
  status : RunStatus := .running
  version : Nat := 1
  createdAt : String
  updatedAt : String
  deadlineAt : Option String
  budgets : Budgets
  usage : Usage := {}
  preset : Json.Object
  finalOutput : Option Json := none
  errorCode : Option String := none
  executionCheckpoint : Option Checkpoint := none
  toolExecutionCheckpoint : Option ToolCheckpoint := none

/-- `StoredRun`, but for the journal it shares with the Runs of its Root. -/
structure StoredRun where
  runId : String
  rootRunId : String
  agentId : String
  parentRunId : Option String
  leaseOwnerId : Option String
  leaseEpoch : Option Nat
  snapshot : Snapshot
  events : List Event := []
  bySourceKey : Dict String Event := Dict.empty
  openInvocations : List String := []
  invocationReceipts : Dict String Receipt := Dict.empty
  invocationSettlements : Dict String Settled := Dict.empty

/-- `DeferredOutputJournal`. -/
structure DeferredOutputJournal where
  counts : Dict String Nat
  readRun : String → List Event
  readRoot : List Event
  findSource : String → Option Event

/-- `DeferredHistory`. -/
structure DeferredHistory where
  journal : DeferredOutputJournal
  count : Nat
  rootCount : Nat
  loadedRun : Option (List Event) := none
  loadedRoot : Option (List Event) := none

/-- The tables of the repository. -/
structure State where
  runs : Dict String StoredRun := Dict.empty
  rootEvents : Dict String (List Event) := Dict.empty
  rootEventsBySourceKey : Dict String (Dict String Event) := Dict.empty
  deferredHistories : Dict String DeferredHistory := Dict.empty
  unloadedRoots : List String := []
  journalCounts : Dict String Nat := Dict.empty

/-! ## The platform and the caller -/

/-- `PlanningProgress`. -/
structure PlanningProgress where
  text : String
  recordIndex : Int
  sourceStart : Int
  sourceEnd : Int

/-- What the store uses of the platform and of the SDK. -/
structure Host where
  /-- `canonicalJson`. -/
  canonicalJson : Json → String
  /-- `String(value)`. -/
  text : Json → String
  /-- What adding a value that was read from a payload adds to a counter. -/
  number : Option Json → Int
  /-- `Date.parse`. -/
  dateParse : String → Option Int
  /-- `toISOString`. -/
  toISOString : Int → String
  /-- What `PlanningStreamParser` reads in the first bytes of a text, unless it throws. -/
  planningRecords : String → Nat → Option (List PlanningProgress)
  copyExecutionCheckpoint : Checkpoint → Except StoreError Checkpoint
  copyToolExecutionCheckpoint : ToolCheckpoint → Except StoreError ToolCheckpoint
  isInputCheckpointUpdate : Checkpoint → Checkpoint → Bool

/-- `RunLeaseClaim`. -/
structure LeaseClaim where
  leaseOwnerId : Option String := none
  leaseEpoch : Option Int := none

/-- What one call finds outside. -/
structure Env where
  /-- `Date.now()`. -/
  now : Int
  /-- `crypto.randomUUID()`, for the Run that is begun. -/
  freshRunId : String
  /-- `crypto.randomUUID()`, by the root sequence of the event. -/
  freshEventId : Nat → String
  leaseValidator : String → LeaseClaim → Except StoreError Unit

/-- A method. -/
abbrev Act := Action State StoreError

/-- `throw new AgentError(code, message)`. -/
def refuse {α : Type} (code message : String) : Act α := .raise (.agent code message)

/-- `if (condition) throw ...`. -/
def throwIf (condition : Prop) [Decidable condition] (error : StoreError) : Act Unit :=
  if condition then .raise error else pure ()

end Purra.RunStore
