import Purra.Checkpoints.ToolReady
import Purra.Lib.Action
import Purra.Lib.Run

/-!
# The evidence store of a run

`RunEvidenceStore` (`purra/evidence.py`): the full results of a run's tool calls, the
receipts that stand for them in the transcript, and the host's context receipts.  The
three recording methods change it in place and may raise on the way; `checkpoint_mapping`
and `from_checkpoint_mapping` carry it across a restart.

* `EvidenceStoreOk` — every table files its rows under their own ids, and no receipt has
  an empty error code; every run of the recording methods keeps it.
* `fromCheckpointMapping_checkpointMapping` — such a store read back is the store.
-/

namespace Purra.Contracts

/-! ## Rows -/

/-- `EvidenceRecord`. -/
structure EvidenceRecord where
  evidenceId : String
  toolCallId : String
  toolName : String
  argumentsJson : String
  content : String
  tokenEstimate : Int
  fromCache : Bool := false
  errorCode : Option String := none
  effects : List Json.Object := []

/-- `ToolResultReceipt`. -/
structure ToolResultReceipt where
  evidenceId : String
  toolCallId : String
  toolName : String
  status : String
  contentCharacters : Int
  tokenEstimate : Int
  fromCache : Bool := false
  errorCode : Option String := none
  effectTypes : List String := []
  summary : String := ""

/-- `ContextEvidenceReceipt`. -/
structure ContextEvidenceReceipt where
  evidenceId : RequiredText
  contextBlock : RequiredText
  source : RequiredText
  itemId : RequiredText
  version : Option Nat
  version_pos : ∀ n ∈ version, 0 < n
  metadata : Json.Object

theorem optionalPositiveInt_pos {value : Option Int} {field : String} {version : Option Nat}
    (h : optionalPositiveInt value field = .ok version) : ∀ n ∈ version, 0 < n := by
  intro n hn
  cases value with
  | none =>
    cases h
    cases hn
  | some m =>
    simp only [optionalPositiveInt] at h
    cases hm : positiveInt m field with
    | error e =>
      rw [hm] at h
      cases h
    | ok k =>
      rw [hm] at h
      cases h
      have hk : n = k := (Option.some.inj hn).symm
      rw [hk]
      exact positiveInt_eq_ok hm

/-- `ContextEvidenceReceipt.__post_init__`. -/
def ContextEvidenceReceipt.of (evidenceId contextBlock source itemId : String)
    (version : Option Int) (metadata : Json.Object) : Except PyError ContextEvidenceReceipt := do
  let evidenceId ← RequiredText.of evidenceId "evidence id"
  let contextBlock ← RequiredText.of contextBlock "evidence context block"
  let source ← RequiredText.of source "evidence source"
  let itemId ← RequiredText.of itemId "evidence item id"
  match h : optionalPositiveInt version "evidence version" with
  | .error e => .error e
  | .ok version =>
    .ok ⟨evidenceId, contextBlock, source, itemId, version, optionalPositiveInt_pos h, metadata⟩

/-- `==` on context receipts. -/
def ContextEvidenceReceipt.pyEq (a b : ContextEvidenceReceipt) : Bool :=
  a.evidenceId = b.evidenceId && a.contextBlock = b.contextBlock && a.source = b.source &&
    a.itemId = b.itemId && a.version = b.version && Json.objectEq a.metadata b.metadata

/-- `RunEvidenceStore`. -/
structure RunEvidenceStore where
  records : Dict String EvidenceRecord := .empty
  toolResultReceipts : Dict String ToolResultReceipt := .empty
  contextReceipts : Dict String ContextEvidenceReceipt := .empty
  contextBlocks : Dict String String := .empty

/-! ## Recording -/

/-- `estimate_text_tokens`. -/
def estimateTextTokens (value : String) : Nat :=
  let ascii := value.toList.countP fun c => c.toNat < 128
  (value.length - ascii) + (ascii + 3) / 4

/-- `content.strip().replace("\n", " ")[:480]`. -/
def summaryOf (content : String) : String :=
  String.ofList (((strip content).toList.map fun c => if c = '\n' then ' ' else c).take 480)

/-- `DomainEffect`. -/
structure DomainEffect where
  type : RequiredText
  payload : Json.Object

/-- `ToolCallResult`, the fields the store reads. -/
structure ToolCallResult where
  toolCallId : RequiredText
  content : String
  fromCache : Bool
  error : Option RequiredText
  effects : List DomainEffect
  contextEvidence : List ContextEvidenceReceipt

/-- `_record_and_receipt`. -/
def recordAndReceipt (call : ToolCall) (result : ToolCallResult) :
    EvidenceRecord × ToolResultReceipt :=
  let evidenceId := "tool:" ++ call.id.text
  let tokenEstimate : Int := estimateTextTokens result.content
  ({ evidenceId
     toolCallId := call.id.text
     toolName := call.name.text
     argumentsJson := call.argumentsJson
     content := result.content
     tokenEstimate
     fromCache := result.fromCache
     errorCode := result.error.map (·.text)
     effects := result.effects.map fun effect =>
       [("type", .str effect.type.text), ("payload", .obj effect.payload)] },
   { evidenceId
     toolCallId := call.id.text
     toolName := call.name.text
     status := if result.error.isSome then "failed" else "completed"
     contentCharacters := result.content.length
     tokenEstimate
     fromCache := result.fromCache
     errorCode := result.error.map (·.text)
     effectTypes := result.effects.map (·.type.text)
     summary := summaryOf result.content })

/-- `_record_context_receipt`. -/
def recordContextReceipt (receipt : ContextEvidenceReceipt) :
    Action RunEvidenceStore PyError Unit := do
  let store ← Action.read
  match store.contextReceipts.get? receipt.evidenceId.text with
  | some existing =>
    if existing.pyEq receipt = false then
      Action.raise (.valueError
        ("conflicting context evidence receipt: " ++ receipt.evidenceId.text))
    else
      Action.write fun store => { store with
        contextReceipts := store.contextReceipts.set receipt.evidenceId.text receipt }
  | none =>
    Action.write fun store => { store with
      contextReceipts := store.contextReceipts.set receipt.evidenceId.text receipt }

section Recording

variable (py : Builtins)

/-- `_optional_int`. -/
def optionalIntOf (value : Json) : Except PyError (Option Int) :=
  if Json.pyEq value .null ∨ Json.pyEq value (.str "") then .ok none
  else match py.int value with
    | .ok n => .ok (some n)
    | .error (.typeError _) => .ok none
    | .error (.valueError _) => .ok none
    | .error e => .error e

/-- The keys a declared receipt keeps out of its metadata. -/
def receiptKeys : List String := ["evidenceId", "source", "itemId", "version"]

/-- The name of the context block a message carries. -/
def blockName (message : AgentMessage) : String := strip (textOr py message.attributes "context_name")

/-- The receipts a message declares. -/
def rawReceipts (message : AgentMessage) : Option (List Json) :=
  Json.items? (Json.get message.hostMetadata "context_evidence_receipts")

/-- One row of `_context_receipt_rows`; an item without the three ids gives none. -/
def contextReceiptRow (block content : String) (raw : Json.Object) :
    Except PyError (Option (String × String × ContextEvidenceReceipt)) := do
  let evidenceId := strip (textOr py raw "evidenceId")
  let source := strip (textOr py raw "source")
  let itemId := strip (textOr py raw "itemId")
  if evidenceId = "" ∨ source = "" ∨ itemId = "" then .ok none
  else do
    let version ← optionalIntOf py (Json.get raw "version")
    let receipt ← ContextEvidenceReceipt.of evidenceId block source itemId version
      (raw.filter fun p => p.1 ∉ receiptKeys)
    .ok (some (block, content, receipt))

/-- `_context_receipt_rows`. -/
def contextReceiptRows (messages : List AgentMessage) :
    Except PyError (List (String × String × ContextEvidenceReceipt)) := do
  let rows ← messages.mapM fun message =>
    if blockName py message = "" then .ok []
    else match rawReceipts message with
      | none => .ok []
      | some items => (Json.objects items).mapM (contextReceiptRow py (blockName py message)
          (py.str (Json.orElse message.content (.str ""))))
  .ok (rows.flatten.filterMap id)

/-- The context block of one message, kept under its name. -/
def recordContextBlock (message : AgentMessage) : Action RunEvidenceStore PyError Unit :=
  if blockName py message ≠ "" ∧ (rawReceipts message).isSome then
    Action.write fun store => { store with
      contextBlocks := store.contextBlocks.set (blockName py message)
        (py.str (Json.orElse message.content (.str ""))) }
  else pure ()

/-- `record_context_messages`. -/
def recordContextMessages (messages : List AgentMessage) :
    Action RunEvidenceStore PyError (List ContextEvidenceReceipt) := do
  messages.forM (recordContextBlock py)
  let rows ← Action.ofExcept (contextReceiptRows py messages)
  rows.forM fun row => recordContextReceipt row.2.2
  pure (rows.map fun row => row.2.2)

end Recording

/-- The loop of `record_batch` over the results. -/
def recordResults (byCall : Dict String ToolCall) :
    List ToolCallResult → Action RunEvidenceStore PyError (List ToolResultReceipt)
  | [] => pure []
  | result :: results =>
    match byCall.get? result.toolCallId.text with
    | none => recordResults byCall results
    | some call => do
      let rows := recordAndReceipt call result
      Action.write fun store => { store with
        records := store.records.set rows.1.evidenceId rows.1
        toolResultReceipts := store.toolResultReceipts.set rows.2.toolCallId rows.2 }
      result.contextEvidence.forM recordContextReceipt
      let receipts ← recordResults byCall results
      pure (rows.2 :: receipts)

/-- `record_batch`. -/
def recordBatch (calls : List ToolCall) (results : List ToolCallResult) :
    Action RunEvidenceStore PyError (List ToolResultReceipt) :=
  recordResults (Dict.empty.extend (calls.map fun call => (call.id.text, call))) results

/-- The tools whose receipts stand for child runs. -/
def childRunTools : List String := ["delegateToAgents", "receiveAgentResults", "continueAgent"]

/-- `resolve_child_runs`. -/
def resolveChildRuns (toolCallId content : String) : Action RunEvidenceStore PyError Unit := do
  let store ← Action.read
  match store.records.get? ("tool:" ++ toolCallId) with
  | none => Action.raise (.keyError ("tool:" ++ toolCallId))
  | some record =>
    if record.toolName ∉ childRunTools then
      Action.raise (.valueError "Only a Child Run receipt can be resolved")
    else do
      let tokens : Int := estimateTextTokens content
      Action.write fun store => { store with
        records := store.records.set record.evidenceId
          { record with content, tokenEstimate := tokens } }
      let store ← Action.read
      match store.toolResultReceipts.get? toolCallId with
      | none => Action.raise (.keyError toolCallId)
      | some receipt =>
        Action.write fun store => { store with
          toolResultReceipts := store.toolResultReceipts.set toolCallId { receipt with
            tokenEstimate := tokens
            contentCharacters := content.length
            summary := summaryOf content } }

/-- A call of one of the recording methods. -/
inductive EvidenceCall where
  | recordContextMessages (messages : List AgentMessage)
  | recordBatch (calls : List ToolCall) (results : List ToolCallResult)
  | resolveChildRuns (toolCallId content : String)

/-- The store a call leaves, whether it returns or raises. -/
def EvidenceCall.perform (py : Builtins) (store : RunEvidenceStore) :
    EvidenceCall → RunEvidenceStore
  | .recordContextMessages messages => (Contracts.recordContextMessages py messages).final store
  | .recordBatch calls results => (Contracts.recordBatch calls results).final store
  | .resolveChildRuns toolCallId content =>
    (Contracts.resolveChildRuns toolCallId content).final store

/-! ## What every store satisfies -/

/-- Every table files its rows under their own ids, and no receipt has an empty error code. -/
structure EvidenceStoreOk (store : RunEvidenceStore) : Prop where
  records_keys : ∀ p ∈ store.records.entries, p.1 = p.2.evidenceId
  receipts_keys : ∀ p ∈ store.toolResultReceipts.entries, p.1 = p.2.toolCallId
  receipts_error : ∀ p ∈ store.toolResultReceipts.entries, p.2.errorCode ≠ some ""
  context_keys : ∀ p ∈ store.contextReceipts.entries, p.1 = p.2.evidenceId.text

theorem evidenceStoreOk_empty : EvidenceStoreOk {} :=
  ⟨fun _ h => absurd h List.not_mem_nil, fun _ h => absurd h List.not_mem_nil,
    fun _ h => absurd h List.not_mem_nil, fun _ h => absurd h List.not_mem_nil⟩

/-- A predicate of every entry, kept by storing an entry that meets it. -/
theorem forall_entries_set {ν : Type} {P : String × ν → Prop} {d : Dict String ν} {k : String}
    {v : ν} (h : ∀ p ∈ d.entries, P p) (hv : P (k, v)) : ∀ p ∈ (d.set k v).entries, P p := by
  intro p hp
  rcases Dict.mem_entries_set.1 hp with rfl | ⟨hp, -⟩
  · exact hv
  · exact h p hp

theorem EvidenceStoreOk.recordContextReceipt (receipt : ContextEvidenceReceipt) :
    Action.Preserves EvidenceStoreOk (Contracts.recordContextReceipt receipt) := by
  have hset : ∀ store, EvidenceStoreOk store → EvidenceStoreOk { store with
      contextReceipts := store.contextReceipts.set receipt.evidenceId.text receipt } :=
    fun store h => ⟨h.records_keys, h.receipts_keys, h.receipts_error,
      forall_entries_set h.context_keys rfl⟩
  refine Action.preserves_read_bind fun store => ?_
  split
  · exact Action.preserves_ite (fun _ => Action.preserves_raise _)
      fun _ => Action.preserves_write hset
  · exact Action.preserves_write hset

theorem EvidenceStoreOk.recordContextMessages (py : Builtins) (messages : List AgentMessage) :
    Action.Preserves EvidenceStoreOk (Contracts.recordContextMessages py messages) := by
  refine Action.preserves_bind (Action.preserves_forM fun message _ => ?_) fun _ => ?_
  · unfold recordContextBlock
    refine Action.preserves_ite (fun _ => Action.preserves_write fun store h => ?_)
      fun _ => Action.preserves_pure _
    exact ⟨h.records_keys, h.receipts_keys, h.receipts_error, h.context_keys⟩
  · refine Action.preserves_ofExcept_bind fun rows _ => ?_
    refine Action.preserves_bind (Action.preserves_forM fun row _ => ?_)
      fun _ => Action.preserves_pure _
    exact EvidenceStoreOk.recordContextReceipt row.2.2

/-- The error of a result, when it has one, is not blank. -/
theorem recordAndReceipt_error (call : ToolCall) (result : ToolCallResult) :
    (recordAndReceipt call result).2.errorCode ≠ some "" := by
  show result.error.map (·.text) ≠ some ""
  cases result.error with
  | none => exact fun h => by cases h
  | some error => exact fun h => error.nonblank (Option.some.inj h)

theorem EvidenceStoreOk.recordResults (byCall : Dict String ToolCall)
    (results : List ToolCallResult) :
    Action.Preserves EvidenceStoreOk (Contracts.recordResults byCall results) := by
  induction results with
  | nil => exact Action.preserves_pure _
  | cons result results ih =>
    unfold Contracts.recordResults
    split
    · exact ih
    · rename_i call hcall
      refine Action.preserves_bind (Action.preserves_write fun store h => ?_) fun _ => ?_
      · exact ⟨forall_entries_set h.records_keys rfl, forall_entries_set h.receipts_keys rfl,
          forall_entries_set h.receipts_error (recordAndReceipt_error call result),
          h.context_keys⟩
      · refine Action.preserves_bind (Action.preserves_forM fun receipt _ => ?_) fun _ => ?_
        · exact EvidenceStoreOk.recordContextReceipt receipt
        · exact Action.preserves_bind ih fun _ => Action.preserves_pure _

theorem EvidenceStoreOk.resolveChildRuns (toolCallId content : String) :
    Action.Preserves EvidenceStoreOk (Contracts.resolveChildRuns toolCallId content) := by
  refine Action.preserves_read_bind fun store => ?_
  split
  · exact Action.preserves_raise _
  · rename_i record hrecord
    refine Action.preserves_ite (fun _ => Action.preserves_raise _) fun _ => ?_
    refine Action.preserves_bind (Action.preserves_write fun store h => ?_) fun _ => ?_
    · exact ⟨forall_entries_set h.records_keys rfl, h.receipts_keys, h.receipts_error,
        h.context_keys⟩
    · intro store h
      rw [Action.final_read_bind]
      split
      · exact h
      · rename_i receipt hreceipt
        have hmem := Dict.mem_entries_iff.2 hreceipt
        have hkey : toolCallId = receipt.toolCallId := h.receipts_keys _ hmem
        have herror : receipt.errorCode ≠ some "" := h.receipts_error _ hmem
        exact ⟨h.records_keys, forall_entries_set h.receipts_keys hkey,
          forall_entries_set h.receipts_error herror, h.context_keys⟩

theorem EvidenceStoreOk.perform (py : Builtins) {store : RunEvidenceStore}
    (h : EvidenceStoreOk store) (call : EvidenceCall) :
    EvidenceStoreOk (call.perform py store) := by
  cases call with
  | recordContextMessages messages => exact recordContextMessages py messages store h
  | recordBatch calls results => exact recordResults _ results store h
  | resolveChildRuns toolCallId content => exact resolveChildRuns toolCallId content store h

/-! ## The checkpoint mapping -/

/-- A row of `records`. -/
def EvidenceRecord.toMapping (item : EvidenceRecord) : Json.Object :=
  [("evidenceId", .str item.evidenceId),
    ("toolCallId", .str item.toolCallId),
    ("toolName", .str item.toolName),
    ("argumentsJson", .str item.argumentsJson),
    ("content", .str item.content),
    ("tokenEstimate", .int item.tokenEstimate),
    ("fromCache", .bool item.fromCache),
    ("errorCode", Json.optionalStr item.errorCode),
    ("effects", .arr (item.effects.map .obj))]

/-- The values `ToolResultReceipt.to_mapping` drops. -/
def receiptBlanks : List Json := [.null, .str "", .arr [], .bool false]

/-- The fields of a receipt before the blank ones are dropped. -/
def ToolResultReceipt.fields (item : ToolResultReceipt) (includeSummary : Bool) : Json.Object :=
  [("evidenceId", .str item.evidenceId),
    ("toolCallId", .str item.toolCallId),
    ("tool", .str item.toolName),
    ("status", .str item.status),
    ("contentCharacters", .int item.contentCharacters),
    ("tokenEstimate", .int item.tokenEstimate),
    ("fromCache", .bool item.fromCache),
    ("errorCode", Json.optionalStr item.errorCode),
    ("effectTypes", .arr (item.effectTypes.map .str)),
    ("summary", .str (if includeSummary then item.summary else ""))]

/-- `ToolResultReceipt.to_mapping`. -/
def ToolResultReceipt.toMapping (item : ToolResultReceipt) (includeSummary : Bool := true) :
    Json.Object :=
  Json.without receiptBlanks (item.fields includeSummary)

/-- The values `ContextEvidenceReceipt.to_mapping` drops. -/
def contextBlanks : List Json := [.null, .str "", .obj []]

/-- The fields of a context receipt before the blank ones are dropped. -/
def ContextEvidenceReceipt.fields (item : ContextEvidenceReceipt) : Json.Object :=
  [("evidenceId", .str item.evidenceId.text),
    ("contextBlock", .str item.contextBlock.text),
    ("source", .str item.source.text),
    ("itemId", .str item.itemId.text),
    ("version", Json.optionalInt (item.version.map Nat.cast)),
    ("metadata", .obj item.metadata)]

/-- `ContextEvidenceReceipt.to_mapping`. -/
def ContextEvidenceReceipt.toMapping (item : ContextEvidenceReceipt) : Json.Object :=
  Json.without contextBlanks item.fields

/-- `RunEvidenceStore.checkpoint_mapping`. -/
def RunEvidenceStore.checkpointMapping (store : RunEvidenceStore) : Json.Object :=
  [("records", .arr (store.records.values.map fun item => .obj item.toMapping)),
    ("toolResultReceipts",
      .arr (store.toolResultReceipts.values.map fun item => .obj item.toMapping)),
    ("contextReceipts", .arr (store.contextReceipts.values.map fun item => .obj item.toMapping)),
    ("contextBlocks", .obj (store.contextBlocks.entries.map fun p => (p.1, .str p.2)))]

/-- `_mapping_rows`. -/
def mappingRows (value : Json) : List Json.Object :=
  match value with
  | .arr items => Json.objects items
  | _ => []

section Decoding

variable (py : Builtins)

/-- A row of `records` read back. -/
def EvidenceRecord.fromMapping (raw : Json.Object) : Except PyError EvidenceRecord := do
  let tokenEstimate ← intOr py raw "tokenEstimate"
  .ok {
    evidenceId := textOr py raw "evidenceId", toolCallId := textOr py raw "toolCallId",
    toolName := textOr py raw "toolName", argumentsJson := textOr py raw "argumentsJson",
    content := textOr py raw "content", tokenEstimate,
    fromCache := Json.truthy (Json.get raw "fromCache"),
    errorCode := Json.toOptionalStr py (Json.get raw "errorCode"),
    effects := mappingRows (Json.get raw "effects") }

/-- The items `for item in value or ()` goes over. -/
def iterated (value : Json) : Except PyError (List Json) :=
  match Json.orElse value (.arr []) with
  | .arr items => .ok items
  | .str text => .ok (text.toList.map fun c => .str (String.singleton c))
  | .obj fields => .ok (fields.map fun p => .str p.1)
  | _ => .error (.typeError "object is not iterable")

/-- A row of `toolResultReceipts` read back. -/
def ToolResultReceipt.fromMapping (raw : Json.Object) : Except PyError ToolResultReceipt := do
  let contentCharacters ← intOr py raw "contentCharacters"
  let tokenEstimate ← intOr py raw "tokenEstimate"
  let effectTypes ← iterated (Json.get raw "effectTypes")
  .ok {
    evidenceId := textOr py raw "evidenceId", toolCallId := textOr py raw "toolCallId",
    toolName := textOr py raw "tool", status := textOr py raw "status",
    contentCharacters, tokenEstimate,
    fromCache := Json.truthy (Json.get raw "fromCache"),
    errorCode := Json.toOptionalStr py (Json.get raw "errorCode"),
    effectTypes := effectTypes.map py.str, summary := textOr py raw "summary" }

/-- A row of `contextReceipts` read back. -/
def ContextEvidenceReceipt.fromMapping (raw : Json.Object) :
    Except PyError ContextEvidenceReceipt := do
  let version ← match Json.get raw "version" with
    | .null => .ok none
    | value => (py.int value).map some
  ContextEvidenceReceipt.of (textOr py raw "evidenceId") (textOr py raw "contextBlock")
    (textOr py raw "source") (textOr py raw "itemId") version
    ((Json.fields? (Json.get raw "metadata")).getD [])

/-- `RunEvidenceStore.from_checkpoint_mapping`. -/
def RunEvidenceStore.fromCheckpointMapping (value : Json.Object) :
    Except PyError RunEvidenceStore := do
  let records ← (mappingRows (Json.get value "records")).mapM (EvidenceRecord.fromMapping py)
  let receipts ← (mappingRows (Json.get value "toolResultReceipts")).mapM
    (ToolResultReceipt.fromMapping py)
  let contexts ← (mappingRows (Json.get value "contextReceipts")).mapM
    (ContextEvidenceReceipt.fromMapping py)
  let blocks := (Json.fields? (Json.get value "contextBlocks")).getD []
  .ok {
    records := Dict.empty.extend (records.map fun item => (item.evidenceId, item))
    toolResultReceipts := Dict.empty.extend (receipts.map fun item => (item.toolCallId, item))
    contextReceipts := Dict.empty.extend (contexts.map fun item => (item.evidenceId.text, item))
    contextBlocks := Dict.empty.extend (blocks.map fun p => (p.1, py.str p.2)) }

/-! ## Reading back -/

variable {blanks : List Json}

/-- A blank value is false. -/
theorem blank_of_falsy
    (h : ∀ blank ∈ blanks, blank = .null ∨ blank = .str "" ∨ blank = .arr [] ∨ blank = .obj [] ∨
      blank = .bool false) : Json.Blank blanks := by
  intro v hv
  obtain ⟨blank, hmem, heq⟩ := List.any_eq_true.1 hv
  rcases h blank hmem with rfl | rfl | rfl | rfl | rfl
  · cases v <;> simp_all [Json.pyEq, Json.truthy, Json.asNumber]
  · cases v <;> simp_all [Json.pyEq, Json.truthy, Json.asNumber]
  · cases v with
    | arr items =>
      cases items with
      | nil => rfl
      | cons item rest => simp [Json.pyEq, Json.pyEqItems] at heq
    | _ => simp_all [Json.pyEq, Json.asNumber]
  · cases v with
    | obj fields =>
      cases fields with
      | nil => rfl
      | cons item rest => simp [Json.pyEq] at heq
    | _ => simp_all [Json.pyEq, Json.asNumber]
  · cases v with
    | bool b => cases b <;> simp_all [Json.pyEq, Json.truthy, Json.asNumber, Json.sameNumber]
    | int n => simpa [Json.pyEq, Json.truthy, Json.asNumber, Json.sameNumber] using heq
    | float m e =>
      have hzero : m * 2 ^ (e - min e 0).toNat = 0 := by
        simpa [Json.pyEq, Json.asNumber, Json.sameNumber] using heq
      have hpow : (2 : Int) ^ (e - min e 0).toNat ≠ 0 := Int.pow_ne_zero (by decide)
      have hm : m = 0 := (Int.mul_eq_zero.1 hzero).resolve_right hpow
      simp [Json.truthy, hm]
    | _ => simp_all [Json.pyEq, Json.asNumber]

theorem receiptBlanks_blank : Json.Blank receiptBlanks :=
  blank_of_falsy (by simp [receiptBlanks])

theorem contextBlanks_blank : Json.Blank contextBlanks :=
  blank_of_falsy (by simp [contextBlanks])

theorem ToolResultReceipt.fields_nodup (item : ToolResultReceipt) (includeSummary : Bool) :
    ((item.fields includeSummary).map Prod.fst).Nodup := by
  simp [ToolResultReceipt.fields]

theorem ContextEvidenceReceipt.fields_nodup (item : ContextEvidenceReceipt) :
    (item.fields.map Prod.fst).Nodup := by
  simp [ContextEvidenceReceipt.fields]

/-- The texts, numbers and lists of a receipt, read with their defaults. -/
theorem textOr_without (hblank : Json.Blank blanks) {o : Json.Object}
    (hnd : (o.map Prod.fst).Nodup) (key default : String) :
    textOr py (Json.without blanks o) key default = textOr py o key default := by
  unfold textOr
  rw [Json.orElse_get_without hblank hnd]

theorem intOr_without (hblank : Json.Blank blanks) {o : Json.Object}
    (hnd : (o.map Prod.fst).Nodup) (key : String) :
    intOr py (Json.without blanks o) key = intOr py o key := by
  unfold intOr
  rw [Json.orElse_get_without hblank hnd]

theorem iterated_without (hblank : Json.Blank blanks) {o : Json.Object}
    (hnd : (o.map Prod.fst).Nodup) (key : String) :
    iterated (Json.get (Json.without blanks o) key) = iterated (Json.get o key) := by
  unfold iterated
  rw [Json.orElse_get_without hblank hnd]

theorem iterated_arr (items : List Json) : iterated (.arr items) = .ok items := by
  simp only [iterated, Json.orElse_arr]

theorem EvidenceRecord.fromMapping_toMapping (item : EvidenceRecord) :
    EvidenceRecord.fromMapping py item.toMapping = .ok item := by
  have htokens : intOr py item.toMapping "tokenEstimate" = .ok item.tokenEstimate :=
    intOr_int py rfl
  have hid : textOr py item.toMapping "evidenceId" = item.evidenceId := textOr_str py rfl
  have hcall : textOr py item.toMapping "toolCallId" = item.toolCallId := textOr_str py rfl
  have hname : textOr py item.toMapping "toolName" = item.toolName := textOr_str py rfl
  have harguments : textOr py item.toMapping "argumentsJson" = item.argumentsJson :=
    textOr_str py rfl
  have hcontent : textOr py item.toMapping "content" = item.content := textOr_str py rfl
  have hcache : Json.truthy (Json.get item.toMapping "fromCache") = item.fromCache := rfl
  have herror : Json.toOptionalStr py (Json.get item.toMapping "errorCode") = item.errorCode :=
    Json.toOptionalStr_optionalStr py item.errorCode
  have heffects : mappingRows (Json.get item.toMapping "effects") = item.effects := by
    show Json.objects (item.effects.map fun effect => .obj effect) = item.effects
    rw [Json.objects_map_obj]
    exact List.map_id' _
  unfold EvidenceRecord.fromMapping
  rw [htokens, hid, hcall, hname, harguments, hcontent, hcache, herror, heffects]
  rfl

/-- The error code of a receipt is kept unless it is blank. -/
theorem ToolResultReceipt.errorCode_get (item : ToolResultReceipt)
    (h : item.errorCode ≠ some "") :
    Json.get item.toMapping "errorCode" = Json.optionalStr item.errorCode := by
  have hnd := item.fields_nodup true
  cases herror : item.errorCode with
  | none =>
    have hnull : Json.get (item.fields true) "errorCode" = .null := by
      show Json.optionalStr item.errorCode = .null
      rw [herror]
      rfl
    exact Json.get_without_null hnd hnull
  | some text =>
    have hget : Json.get (item.fields true) "errorCode" = .str text := by
      show Json.optionalStr item.errorCode = .str text
      rw [herror]
      rfl
    have htext : text ≠ "" := fun heq => h (by rw [herror, heq])
    have htruthy : Json.truthy (Json.get (item.fields true) "errorCode") = true := by
      rw [hget]
      simp [Json.truthy, htext]
    have hkept := Json.get_without_of_truthy receiptBlanks_blank hnd htruthy
    rw [hget] at hkept
    exact hkept

theorem ToolResultReceipt.fromMapping_toMapping (item : ToolResultReceipt)
    (h : item.errorCode ≠ some "") :
    ToolResultReceipt.fromMapping py item.toMapping = .ok item := by
  have hnd := item.fields_nodup true
  have htext : ∀ key, textOr py item.toMapping key = textOr py (item.fields true) key :=
    fun key => textOr_without py receiptBlanks_blank hnd key ""
  have hint : ∀ key, intOr py item.toMapping key = intOr py (item.fields true) key :=
    intOr_without py receiptBlanks_blank hnd
  have hid : textOr py (item.fields true) "evidenceId" = item.evidenceId := textOr_str py rfl
  have hcall : textOr py (item.fields true) "toolCallId" = item.toolCallId := textOr_str py rfl
  have hname : textOr py (item.fields true) "tool" = item.toolName := textOr_str py rfl
  have hstatus : textOr py (item.fields true) "status" = item.status := textOr_str py rfl
  have hsummary : textOr py (item.fields true) "summary" = item.summary := textOr_str py rfl
  have hcharacters : intOr py (item.fields true) "contentCharacters" =
    .ok item.contentCharacters := intOr_int py rfl
  have htokens : intOr py (item.fields true) "tokenEstimate" = .ok item.tokenEstimate :=
    intOr_int py rfl
  have hcache : Json.truthy (Json.get item.toMapping "fromCache") = item.fromCache :=
    Json.truthy_get_without receiptBlanks_blank hnd "fromCache"
  have heffects : iterated (Json.get item.toMapping "effectTypes") =
      .ok (item.effectTypes.map .str) :=
    (iterated_without receiptBlanks_blank hnd "effectTypes").trans (iterated_arr _)
  have hstr : (item.effectTypes.map Json.str).map py.str = item.effectTypes := by
    rw [List.map_map]
    exact List.map_id' _
  unfold ToolResultReceipt.fromMapping
  simp only [htext, hint, hid, hcall, hname, hstatus, hsummary, hcharacters, htokens, hcache,
    heffects, item.errorCode_get h, Json.toOptionalStr_optionalStr, ok_bind, hstr]

/-- The version of a context receipt read back. -/
theorem ContextEvidenceReceipt.version_get (item : ContextEvidenceReceipt) :
    Json.get item.toMapping "version" = Json.optionalInt (item.version.map Nat.cast) := by
  have hnd := item.fields_nodup
  cases hversion : item.version with
  | none =>
    have hnull : Json.get item.fields "version" = .null := by
      show Json.optionalInt (item.version.map Nat.cast) = .null
      rw [hversion]
      rfl
    exact Json.get_without_null hnd hnull
  | some n =>
    have hget : Json.get item.fields "version" = .int n := by
      show Json.optionalInt (item.version.map Nat.cast) = .int n
      rw [hversion]
      rfl
    have hpos : 0 < n := item.version_pos n hversion
    have htruthy : Json.truthy (Json.get item.fields "version") = true := by
      rw [hget]
      simp [Json.truthy]
      omega
    have hkept := Json.get_without_of_truthy contextBlanks_blank hnd htruthy
    rw [hget] at hkept
    exact hkept

/-- The metadata of a context receipt read back: an empty one is dropped, and restored. -/
theorem ContextEvidenceReceipt.metadata_get (item : ContextEvidenceReceipt) :
    (Json.fields? (Json.get item.toMapping "metadata")).getD [] = item.metadata := by
  have hnd := item.fields_nodup
  have hget : Json.get item.fields "metadata" = .obj item.metadata := rfl
  have hwithout : Json.get item.toMapping "metadata" =
      if contextBlanks.any (Json.pyEq (Json.get item.fields "metadata")) then .null
      else Json.get item.fields "metadata" := Json.get_without hnd "metadata"
  rw [hwithout]
  split
  · rename_i hblank
    have hfalse := contextBlanks_blank _ hblank
    rw [hget] at hfalse
    have hnil : item.metadata = [] := by simpa [Json.truthy] using hfalse
    rw [hnil]
    rfl
  · rw [hget]
    rfl

/-- Building a context receipt again from its own fields gives it back. -/
theorem ContextEvidenceReceipt.of_self (item : ContextEvidenceReceipt) :
    ContextEvidenceReceipt.of item.evidenceId.text item.contextBlock.text item.source.text
      item.itemId.text (item.version.map Nat.cast) item.metadata = .ok item := by
  have hversion : optionalPositiveInt (item.version.map Nat.cast) "evidence version" =
      .ok item.version := by
    cases h : item.version with
    | none => rfl
    | some n =>
      show (positiveInt (n : Int) "evidence version").map some = .ok (some n)
      rw [positiveInt_nat (item.version_pos n h)]
      rfl
  unfold ContextEvidenceReceipt.of
  simp only [RequiredText.of_text, ok_bind]
  split
  · rename_i e he
    rw [hversion] at he
    cases he
  · rename_i version he
    rw [hversion] at he
    cases he
    rfl

theorem ContextEvidenceReceipt.fromMapping_toMapping (item : ContextEvidenceReceipt) :
    ContextEvidenceReceipt.fromMapping py item.toMapping = .ok item := by
  have hnd := item.fields_nodup
  have htext : ∀ key, textOr py item.toMapping key = textOr py item.fields key :=
    fun key => textOr_without py contextBlanks_blank hnd key ""
  have hid : textOr py item.fields "evidenceId" = item.evidenceId.text := textOr_str py rfl
  have hblock : textOr py item.fields "contextBlock" = item.contextBlock.text := textOr_str py rfl
  have hsource : textOr py item.fields "source" = item.source.text := textOr_str py rfl
  have hitem : textOr py item.fields "itemId" = item.itemId.text := textOr_str py rfl
  unfold ContextEvidenceReceipt.fromMapping
  rw [item.version_get, item.metadata_get, htext, htext, htext, htext, hid, hblock, hsource, hitem]
  have hself := item.of_self
  cases hversion : item.version with
  | none =>
    rw [hversion] at hself
    exact hself
  | some n =>
    rw [hversion] at hself
    exact hself

/-- A table filled again from its own values. -/
theorem extend_values {ν : Type} {d : Dict String ν} {f : ν → String}
    (h : ∀ p ∈ d.entries, p.1 = f p.2) :
    Dict.empty.extend (d.values.map fun v => (f v, v)) = d := by
  have hentries : d.values.map (fun v => (f v, v)) = d.entries := by
    unfold Dict.values
    rw [List.map_map]
    refine (List.map_congr_left fun p hp => ?_).trans (List.map_id _)
    exact Prod.ext (h p hp).symm rfl
  apply Dict.ext
  rw [hentries, Dict.entries_extend d.nodup_keys fun p _ hp => absurd hp List.not_mem_nil]
  rfl

/-- **The evidence store read back from its mapping** is the store. -/
theorem RunEvidenceStore.fromCheckpointMapping_checkpointMapping {store : RunEvidenceStore}
    (h : EvidenceStoreOk store) :
    RunEvidenceStore.fromCheckpointMapping py store.checkpointMapping = .ok store := by
  have hrecords : mappingRows (Json.get store.checkpointMapping "records") =
      store.records.values.map (·.toMapping) := Json.objects_map_obj _ _
  have hreceipts : mappingRows (Json.get store.checkpointMapping "toolResultReceipts") =
      store.toolResultReceipts.values.map (·.toMapping) := Json.objects_map_obj _ _
  have hcontexts : mappingRows (Json.get store.checkpointMapping "contextReceipts") =
      store.contextReceipts.values.map (·.toMapping) := Json.objects_map_obj _ _
  have hblocks : (Json.fields? (Json.get store.checkpointMapping "contextBlocks")).getD [] =
      store.contextBlocks.entries.map fun p => (p.1, Json.str p.2) := rfl
  have hreadReceipts : (store.toolResultReceipts.values.map (·.toMapping)).mapM
      (ToolResultReceipt.fromMapping py) = .ok store.toolResultReceipts.values := by
    rw [List.mapM_map]
    refine (mapM_eq_map fun item hitem => ?_).trans (congrArg Except.ok (List.map_id _))
    obtain ⟨p, hp, rfl⟩ := List.mem_map.1 hitem
    exact p.2.fromMapping_toMapping py (h.receipts_error p hp)
  have hnames : (store.contextBlocks.entries.map fun p => (p.1, Json.str p.2)).map
      (fun p => (p.1, py.str p.2)) = store.contextBlocks.entries := by
    rw [List.map_map]
    exact List.map_id' _
  have hfilled : Dict.empty.extend store.contextBlocks.entries = store.contextBlocks := by
    apply Dict.ext
    rw [Dict.entries_extend store.contextBlocks.nodup_keys fun p _ hp => absurd hp List.not_mem_nil]
    rfl
  unfold RunEvidenceStore.fromCheckpointMapping
  rw [hrecords, hreceipts, hcontexts, hblocks,
    mapM_map_eq (EvidenceRecord.fromMapping_toMapping py), hreadReceipts,
    mapM_map_eq (ContextEvidenceReceipt.fromMapping_toMapping py)]
  have hcontext : Dict.empty.extend (store.contextReceipts.values.map fun item =>
      (item.evidenceId.text, item)) = store.contextReceipts :=
    extend_values (f := fun item : ContextEvidenceReceipt => item.evidenceId.text) h.context_keys
  simp only [ok_bind, hnames, hfilled, extend_values h.records_keys, extend_values h.receipts_keys,
    hcontext]

end Decoding

/-- **Checkpoints survive a restart.**  A model-ready checkpoint, a tool-ready checkpoint, and
the evidence store that any run of the recording methods leaves are each read back from the
mapping they are stored as. -/
theorem checkpoint_round_trips (py : Builtins) :
    (∀ checkpoint : AgentExecutionCheckpoint,
      AgentExecutionCheckpoint.fromMapping py checkpoint.toMapping = .ok checkpoint) ∧
    (∀ checkpoint : AgentToolExecutionCheckpoint,
      AgentToolExecutionCheckpoint.fromMapping py checkpoint.toMapping = .ok checkpoint) ∧
    ∀ calls : List EvidenceCall,
      let store := exec (EvidenceCall.perform py) {} calls
      RunEvidenceStore.fromCheckpointMapping py store.checkpointMapping = .ok store := by
  refine ⟨AgentExecutionCheckpoint.fromMapping_toMapping py,
    AgentToolExecutionCheckpoint.fromMapping_toMapping py, fun calls => ?_⟩
  have hok : EvidenceStoreOk (exec (EvidenceCall.perform py) {} calls) :=
    exec_induction_of_all (fun store call h => h.perform py call) calls evidenceStoreOk_empty
  exact RunEvidenceStore.fromCheckpointMapping_checkpointMapping py hok

end Purra.Contracts
