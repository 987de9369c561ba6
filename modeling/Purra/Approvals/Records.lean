import Purra.Core.Structured

/-!
# Durable approval data

`purra/approvals.py`: what a host asks approval for, the command that decides it,
and the record a store keeps.  The constructors check their fields and the fields
against each other; here each check is a field of the structure, so a record that
breaks one cannot be built.

* `ApprovalIntent`, `ApprovalDecisionCommand`, `DecisionAudit`, `ApprovalRecord`.
* `ApprovalRecord.fromMapping_toMapping` — **what is written is read back**: the
  mapping of a record loads as that record.

`sha256` is the hash digests are made with.
-/

namespace Purra

/-- What `_text` accepts. -/
def approvalText (value : String) : Bool :=
  value ≠ "" && strip value = value && value.length ≤ 1024

/-- `_text`. -/
def checkText (value name : String) : Except PyError Unit :=
  if approvalText value then .ok () else .error (.valueError ("invalid approval " ++ name))

/-- What `_integer` accepts. -/
def approvalInteger (minimum value : Int) : Bool := minimum ≤ value && value ≤ safeInteger

/-- `_integer`. -/
def checkInteger (value : Int) (name : String) (minimum : Int := 0) : Except PyError Unit :=
  if approvalInteger minimum value then .ok ()
  else .error (.valueError ("invalid approval " ++ name))

/-! ## Reading mappings -/

/-- The mapping has these keys and no others. -/
def hasFields (value : Json.Object) (names : List String) : Bool :=
  names.all (fun name => name ∈ value.map Prod.fst) &&
    value.all fun p => p.1 ∈ names

/-- `_text` on a field. -/
def textField (value : Json.Object) (key name : String) : Except PyError String :=
  match Json.field? value key with
  | some (.str s) => (checkText s name).map fun _ => s
  | _ => .error (.valueError ("invalid approval " ++ name))

theorem textField_eq_ok {value : Json.Object} {key name s : String}
    (hfield : Json.field? value key = some (.str s)) (hs : approvalText s = true) :
    textField value key name = .ok s := by
  unfold textField checkText
  rw [hfield]
  simp only
  rw [if_pos hs]
  rfl

/-- `_integer` on a field. -/
def integerField (value : Json.Object) (key name : String) (minimum : Int := 0) :
    Except PyError Int :=
  match Json.field? value key with
  | some (.int n) => (checkInteger n name minimum).map fun _ => n
  | _ => .error (.valueError ("invalid approval " ++ name))

theorem integerField_eq_ok {value : Json.Object} {key name : String} {minimum n : Int}
    (hfield : Json.field? value key = some (.int n)) (hn : approvalInteger minimum n = true) :
    integerField value key name minimum = .ok n := by
  unfold integerField checkInteger
  rw [hfield]
  simp only
  rw [if_pos hn]
  rfl

/-- A field that holds a mapping. -/
def objectField (value : Json.Object) (key : String) (error : PyError) :
    Except PyError Json.Object :=
  match Json.field? value key with
  | some (.obj fields) => .ok fields
  | _ => .error error

/-! ## Intents -/

/-- `effect`: the host's declaration of risk. -/
inductive ApprovalEffect where
  | write | destructive
  deriving DecidableEq, Repr

namespace ApprovalEffect

/-- The value on the wire. -/
def value : ApprovalEffect → String
  | .write => "write"
  | .destructive => "destructive"

/-- The effect of a text. -/
def ofText (s : String) : Except PyError ApprovalEffect :=
  if s = "write" then .ok .write
  else if s = "destructive" then .ok .destructive
  else .error (.valueError "invalid approval effect")

@[simp] theorem ofText_value (e : ApprovalEffect) : ofText e.value = .ok e := by
  cases e <;> rfl

end ApprovalEffect

/-- `_text` on each of the named fields, in order. -/
def checkTexts : List (String × String) → Except PyError Unit
  | [] => .ok ()
  | (name, value) :: rest =>
    if approvalText value then checkTexts rest
    else .error (.valueError ("invalid approval " ++ name))

theorem checkTexts_eq_ok {fields : List (String × String)} :
    checkTexts fields = .ok () ↔ ∀ p ∈ fields, approvalText p.2 = true := by
  induction fields with
  | nil => simp [checkTexts]
  | cons p fields ih =>
    obtain ⟨name, value⟩ := p
    unfold checkTexts
    by_cases hv : approvalText value = true
    · simp [hv, ih]
    · simp [hv]

/-- The mapping of an intent. -/
def intentMapping (arguments : Json.Object) (runId rootRunId toolCallId toolName presetFingerprint
    bindingId bindingRevision scopeId scopeRevision : String) (effect : ApprovalEffect) :
    Json.Object :=
  [("schemaVersion", .int 1), ("arguments", .obj arguments), ("runId", .str runId),
    ("rootRunId", .str rootRunId), ("toolCallId", .str toolCallId), ("toolName", .str toolName),
    ("presetFingerprint", .str presetFingerprint), ("bindingId", .str bindingId),
    ("bindingRevision", .str bindingRevision), ("scopeId", .str scopeId),
    ("scopeRevision", .str scopeRevision), ("effect", .str effect.value)]

/-- The text fields of an intent, under the names its errors use. -/
def intentTexts (runId rootRunId toolCallId toolName presetFingerprint bindingId bindingRevision
    scopeId scopeRevision : String) : List (String × String) :=
  [("run_id", runId), ("root_run_id", rootRunId), ("tool_call_id", toolCallId),
    ("tool_name", toolName), ("preset_fingerprint", presetFingerprint), ("binding_id", bindingId),
    ("binding_revision", bindingRevision), ("scope_id", scopeId),
    ("scope_revision", scopeRevision)]

/-- `ApprovalIntent`. -/
structure ApprovalIntent where
  runId : String
  rootRunId : String
  toolCallId : String
  toolName : String
  arguments : Json.Object
  presetFingerprint : String
  bindingId : String
  bindingRevision : String
  scopeId : String
  scopeRevision : String
  effect : ApprovalEffect
  texts : checkTexts (intentTexts runId rootRunId toolCallId toolName presetFingerprint bindingId
    bindingRevision scopeId scopeRevision) = .ok ()
  validated : validateArguments arguments = .ok arguments
  bounded : (snapshot (.obj (intentMapping arguments runId rootRunId toolCallId toolName
    presetFingerprint bindingId bindingRevision scopeId scopeRevision effect))).toBool = true

namespace ApprovalIntent

/-- `to_mapping`. -/
def toMapping (intent : ApprovalIntent) : Json.Object :=
  intentMapping intent.arguments intent.runId intent.rootRunId intent.toolCallId intent.toolName
    intent.presetFingerprint intent.bindingId intent.bindingRevision intent.scopeId
    intent.scopeRevision intent.effect

/-- `digest`.  It hashes the mapping one level deeper than the constructor did, so on an intent
nested to the limit it raises. -/
def digest (sha256 : String → String) (intent : ApprovalIntent) : Except PyError String :=
  jsonIdentityDigest sha256
    (.obj [("profile", .str "purra.approval-intent/v1"), ("intent", .obj intent.toMapping)])

/-- `__post_init__`. -/
def new (runId rootRunId toolCallId toolName : String) (arguments : Json.Object)
    (presetFingerprint bindingId bindingRevision scopeId scopeRevision effect : String) :
    Except PyError ApprovalIntent :=
  match htexts : checkTexts (intentTexts runId rootRunId toolCallId toolName presetFingerprint
      bindingId bindingRevision scopeId scopeRevision) with
  | .error e => .error e
  | .ok _ => do
    let effect ← ApprovalEffect.ofText effect
    match hvalidated : validateArguments arguments with
    | .error e => .error e
    | .ok arguments' =>
      match hbounded : snapshot (.obj (intentMapping arguments' runId rootRunId toolCallId toolName
          presetFingerprint bindingId bindingRevision scopeId scopeRevision effect)) with
      | .error e => .error e
      | .ok _ =>
        .ok { runId, rootRunId, toolCallId, toolName, arguments := arguments', presetFingerprint,
              bindingId, bindingRevision, scopeId, scopeRevision, effect, texts := htexts,
              validated := validateArguments_idem hvalidated,
              bounded := by rw [hbounded]; rfl }

/-- The constructor accepts the parts of an intent and builds it again. -/
theorem new_self (intent : ApprovalIntent) :
    new intent.runId intent.rootRunId intent.toolCallId intent.toolName intent.arguments
      intent.presetFingerprint intent.bindingId intent.bindingRevision intent.scopeId
      intent.scopeRevision intent.effect.value = .ok intent := by
  unfold new
  split
  · rename_i e herr
    rw [intent.texts] at herr
    cases herr
  simp only [ApprovalEffect.ofText_value, bind, Except.bind]
  split
  · rename_i e herr
    rw [intent.validated] at herr
    cases herr
  · rename_i arguments' harguments
    rw [intent.validated] at harguments
    cases harguments
    split
    · rename_i e herr
      have hbounded := intent.bounded
      rw [herr] at hbounded
      cases hbounded
    · rfl

/-- The fields of the mapping, in order. -/
def fieldNames : List String :=
  ["schemaVersion", "arguments", "runId", "rootRunId", "toolCallId", "toolName",
    "presetFingerprint", "bindingId", "bindingRevision", "scopeId", "scopeRevision", "effect"]

/-- `from_mapping`. -/
def fromMapping (value : Json.Object) : Except PyError ApprovalIntent :=
  if ¬ hasFields value fieldNames = true then
    .error (.valueError "invalid approval intent fields")
  else if ¬ (Json.field? value "schemaVersion").any (fun v => match v with
      | .int n => n = 1
      | _ => false) = true then
    .error (.valueError "invalid approval intent version")
  else do
    let runId ← textField value "runId" "run_id"
    let rootRunId ← textField value "rootRunId" "root_run_id"
    let toolCallId ← textField value "toolCallId" "tool_call_id"
    let toolName ← textField value "toolName" "tool_name"
    let presetFingerprint ← textField value "presetFingerprint" "preset_fingerprint"
    let bindingId ← textField value "bindingId" "binding_id"
    let bindingRevision ← textField value "bindingRevision" "binding_revision"
    let scopeId ← textField value "scopeId" "scope_id"
    let scopeRevision ← textField value "scopeRevision" "scope_revision"
    let effect ← textField value "effect" "effect"
    let _ ← ApprovalEffect.ofText effect
    let arguments ← objectField value "arguments"
      (.typeError "approval arguments must be an object")
    new runId rootRunId toolCallId toolName arguments presetFingerprint bindingId bindingRevision
      scopeId scopeRevision effect

theorem fromMapping_toMapping (intent : ApprovalIntent) :
    fromMapping intent.toMapping = .ok intent := by
  have htexts := checkTexts_eq_ok.1 intent.texts
  have heffect : approvalText intent.effect.value = true := by
    cases intent.effect <;> decide
  have hwritten : textField intent.toMapping "effect" "effect" = .ok intent.effect.value :=
    textField_eq_ok rfl heffect
  have htext : ∀ (key name : String) {s : String}, Json.field? intent.toMapping key = some (.str s) →
      (∃ name, (name, s) ∈ intentTexts intent.runId intent.rootRunId intent.toolCallId
        intent.toolName intent.presetFingerprint intent.bindingId intent.bindingRevision
        intent.scopeId intent.scopeRevision) → textField intent.toMapping key name = .ok s := by
    rintro key name s hfield ⟨name', hmem⟩
    exact textField_eq_ok hfield (htexts _ hmem)
  have hfields : hasFields intent.toMapping fieldNames = true := rfl
  have hversion : Json.field? intent.toMapping "schemaVersion" = some (.int 1) := rfl
  unfold fromMapping
  rw [if_neg (not_not.2 hfields), hversion, if_neg (by simp)]
  rw [htext "runId" "run_id" rfl ⟨"run_id", by simp [intentTexts]⟩,
    htext "rootRunId" "root_run_id" rfl ⟨"root_run_id", by simp [intentTexts]⟩,
    htext "toolCallId" "tool_call_id" rfl ⟨"tool_call_id", by simp [intentTexts]⟩,
    htext "toolName" "tool_name" rfl ⟨"tool_name", by simp [intentTexts]⟩,
    htext "presetFingerprint" "preset_fingerprint" rfl
      ⟨"preset_fingerprint", by simp [intentTexts]⟩,
    htext "bindingId" "binding_id" rfl ⟨"binding_id", by simp [intentTexts]⟩,
    htext "bindingRevision" "binding_revision" rfl ⟨"binding_revision", by simp [intentTexts]⟩,
    htext "scopeId" "scope_id" rfl ⟨"scope_id", by simp [intentTexts]⟩,
    htext "scopeRevision" "scope_revision" rfl ⟨"scope_revision", by simp [intentTexts]⟩,
    hwritten]
  simp only [bind, Except.bind, ApprovalEffect.ofText_value]
  exact intent.new_self

end ApprovalIntent

/-! ## Decisions -/

/-- `decision`. -/
inductive ApprovalDecision where
  | approve | reject
  deriving DecidableEq, Repr

namespace ApprovalDecision

/-- The value on the wire. -/
def value : ApprovalDecision → String
  | .approve => "approve"
  | .reject => "reject"

/-- The decision of a text. -/
def ofText (s : String) : Except PyError ApprovalDecision :=
  if s = "approve" then .ok .approve
  else if s = "reject" then .ok .reject
  else .error (.valueError "invalid approval decision")

@[simp] theorem ofText_value (d : ApprovalDecision) : ofText d.value = .ok d := by
  cases d <;> rfl

end ApprovalDecision

/-- `ApprovalDecisionCommand`. -/
structure ApprovalDecisionCommand where
  approvalId : String
  expectedRevision : Int
  intentDigest : String
  commandKey : String
  decision : ApprovalDecision
  texts : checkTexts [("approval_id", approvalId), ("intent_digest", intentDigest),
    ("command_key", commandKey)] = .ok ()
  integers : approvalInteger 1 expectedRevision = true
  deriving DecidableEq

namespace ApprovalDecisionCommand

/-- `__post_init__`. -/
def new (approvalId : String) (expectedRevision : Int) (intentDigest commandKey decision : String) :
    Except PyError ApprovalDecisionCommand :=
  match htexts : checkTexts [("approval_id", approvalId), ("intent_digest", intentDigest),
      ("command_key", commandKey)] with
  | .error e => .error e
  | .ok _ =>
    if hinteger : approvalInteger 1 expectedRevision = true then do
      let decision ← ApprovalDecision.ofText decision
      .ok { approvalId, expectedRevision, intentDigest, commandKey, decision, texts := htexts,
            integers := hinteger }
    else .error (.valueError "invalid approval expected revision")

theorem new_self (command : ApprovalDecisionCommand) :
    new command.approvalId command.expectedRevision command.intentDigest command.commandKey
      command.decision.value = .ok command := by
  unfold new
  split
  · rename_i e herr
    rw [command.texts] at herr
    cases herr
  · rw [dif_pos command.integers]
    simp only [ApprovalDecision.ofText_value, bind, Except.bind]

/-- `to_mapping`. -/
def toMapping (command : ApprovalDecisionCommand) : Json.Object :=
  [("approvalId", .str command.approvalId), ("expectedRevision", .int command.expectedRevision),
    ("intentDigest", .str command.intentDigest), ("commandKey", .str command.commandKey),
    ("decision", .str command.decision.value)]

/-- The fields of the mapping. -/
def fieldNames : List String :=
  ["approvalId", "expectedRevision", "intentDigest", "commandKey", "decision"]

/-- The command of a stored audit. -/
def fromMapping (value : Json.Object) : Except PyError ApprovalDecisionCommand :=
  if ¬ hasFields value fieldNames = true then
    .error (.valueError "invalid approval audit command")
  else do
    let approvalId ← textField value "approvalId" "approval_id"
    let intentDigest ← textField value "intentDigest" "intent_digest"
    let commandKey ← textField value "commandKey" "command_key"
    let expectedRevision ← integerField value "expectedRevision" "expected revision" 1
    let decision ← textField value "decision" "decision"
    new approvalId expectedRevision intentDigest commandKey decision

theorem fromMapping_toMapping (command : ApprovalDecisionCommand) :
    fromMapping command.toMapping = .ok command := by
  have htexts := checkTexts_eq_ok.1 command.texts
  have hdecision : approvalText command.decision.value = true := by
    cases command.decision <;> decide
  have hid : textField command.toMapping "approvalId" "approval_id" = .ok command.approvalId :=
    textField_eq_ok rfl (htexts ("approval_id", _) (by simp))
  have hdigest : textField command.toMapping "intentDigest" "intent_digest" =
      .ok command.intentDigest := textField_eq_ok rfl (htexts ("intent_digest", _) (by simp))
  have hkey : textField command.toMapping "commandKey" "command_key" = .ok command.commandKey :=
    textField_eq_ok rfl (htexts ("command_key", _) (by simp))
  have hrevision : integerField command.toMapping "expectedRevision" "expected revision" 1 =
      .ok command.expectedRevision := integerField_eq_ok rfl command.integers
  have hwritten : textField command.toMapping "decision" "decision" =
      .ok command.decision.value := textField_eq_ok rfl hdecision
  have hfields : hasFields command.toMapping fieldNames = true := rfl
  unfold fromMapping
  rw [if_neg (not_not.2 hfields), hid, hdigest, hkey, hrevision, hwritten]
  exact command.new_self

end ApprovalDecisionCommand

/-- `decision_audit` of a decided record. -/
structure DecisionAudit where
  command : ApprovalDecisionCommand
  principalId : String
  decidedAtMs : Int
  revision : Int
  deriving DecidableEq

namespace DecisionAudit

/-- The audit as a mapping. -/
def toMapping (audit : DecisionAudit) : Json.Object :=
  [("command", .obj audit.command.toMapping), ("principalId", .str audit.principalId),
    ("decidedAtMs", .int audit.decidedAtMs), ("revision", .int audit.revision)]

/-- The fields of the mapping. -/
def fieldNames : List String := ["command", "principalId", "decidedAtMs", "revision"]

end DecisionAudit

/-! ## Records -/

/-- `APPROVAL_STATUSES`. -/
inductive ApprovalStatus where
  | pending | approved | rejected | expired | canceled
  deriving DecidableEq, Repr

namespace ApprovalStatus

/-- The value on the wire. -/
def value : ApprovalStatus → String
  | .pending => "pending"
  | .approved => "approved"
  | .rejected => "rejected"
  | .expired => "expired"
  | .canceled => "canceled"

/-- The status of a text. -/
def ofText (s : String) : Except PyError ApprovalStatus :=
  if s = "pending" then .ok .pending
  else if s = "approved" then .ok .approved
  else if s = "rejected" then .ok .rejected
  else if s = "expired" then .ok .expired
  else if s = "canceled" then .ok .canceled
  else .error (.valueError "invalid approval status")

@[simp] theorem ofText_value (status : ApprovalStatus) : ofText status.value = .ok status := by
  cases status <;> rfl

/-- The status a decision sets. -/
def ofDecision : ApprovalDecision → ApprovalStatus
  | .approve => .approved
  | .reject => .rejected

/-- The statuses a decision leaves. -/
def decided (status : ApprovalStatus) : Bool := status = .approved || status = .rejected

/-- The status changes of the lifecycle. -/
def movesTo : ApprovalStatus → ApprovalStatus → Bool
  | .pending, .pending => false
  | .pending, _ => true
  | .approved, .expired => true
  | .approved, .canceled => true
  | _, _ => false

/-- The statuses nothing changes any more. -/
def ended (status : ApprovalStatus) : Bool :=
  status = .rejected || status = .expired || status = .canceled

theorem movesTo_of_ended {status : ApprovalStatus} (h : status.ended = true)
    (status' : ApprovalStatus) : status.movesTo status' = false := by
  cases status <;> first | rfl | cases h

/-- The statuses an expiry or a cancellation can still change. -/
def openToRefresh (status : ApprovalStatus) : Bool := status = .pending || status = .approved

end ApprovalStatus

section

variable (sha256 : String → String)

/-- The checks of `ApprovalRecord.__post_init__` on an audit. -/
def checkAudit (approvalId : String) (intent : ApprovalIntent) (revision : Int)
    (status : ApprovalStatus) (createdAtMs expiresAtMs : Int) (audit : DecisionAudit) :
    Except PyError Unit := do
  checkText audit.principalId "principal"
  checkInteger audit.decidedAtMs "decision time" createdAtMs
  checkInteger audit.revision "decision revision" 2
  let conflict : PyError := .valueError "conflicting approval audit"
  if audit.command.approvalId ≠ approvalId then .error conflict
  else
    let digest ← intent.digest sha256
    if audit.command.intentDigest ≠ digest ∨ audit.command.expectedRevision + 1 ≠ audit.revision ∨
        revision < audit.revision ∨ expiresAtMs ≤ audit.decidedAtMs ∨ status = .pending ∨
        (status.decided = true ∧ status ≠ .ofDecision audit.command.decision) then
      .error conflict
    else .ok ()

/-- The checks of `ApprovalRecord.__post_init__`. -/
def checkRecord (approvalId : String) (intent : ApprovalIntent) (revision : Int)
    (status : ApprovalStatus) (createdAtMs expiresAtMs : Int) (audit : Option DecisionAudit) :
    Except PyError Unit := do
  checkText approvalId "id"
  checkInteger revision "revision" 1
  checkInteger createdAtMs "creation time"
  checkInteger expiresAtMs "expiry" (createdAtMs + 1)
  match audit with
  | some audit => checkAudit sha256 approvalId intent revision status createdAtMs expiresAtMs audit
  | none =>
    if status.decided then .error (.valueError "approval decision audit is required") else .ok ()

end

/-- `ApprovalRecord`. -/
structure ApprovalRecord (sha256 : String → String) where
  approvalId : String
  intent : ApprovalIntent
  revision : Int
  status : ApprovalStatus
  createdAtMs : Int
  expiresAtMs : Int
  decisionAudit : Option DecisionAudit
  checked : checkRecord sha256 approvalId intent revision status createdAtMs expiresAtMs
    decisionAudit = .ok ()

namespace ApprovalRecord

variable {sha256 : String → String}

/-- `__post_init__`. -/
def new (sha256 : String → String) (approvalId : String) (intent : ApprovalIntent) (revision : Int)
    (status : ApprovalStatus) (createdAtMs expiresAtMs : Int)
    (decisionAudit : Option DecisionAudit := none) : Except PyError (ApprovalRecord sha256) :=
  match hchecked : checkRecord sha256 approvalId intent revision status createdAtMs expiresAtMs
      decisionAudit with
  | .error e => .error e
  | .ok _ =>
    .ok ⟨approvalId, intent, revision, status, createdAtMs, expiresAtMs, decisionAudit, hchecked⟩

theorem new_eq_ok {approvalId : String} {intent : ApprovalIntent} {revision : Int}
    {status : ApprovalStatus} {createdAtMs expiresAtMs : Int} {audit : Option DecisionAudit}
    {record : ApprovalRecord sha256} :
    new sha256 approvalId intent revision status createdAtMs expiresAtMs audit = .ok record ↔
      record.approvalId = approvalId ∧ record.intent = intent ∧ record.revision = revision ∧
        record.status = status ∧ record.createdAtMs = createdAtMs ∧
        record.expiresAtMs = expiresAtMs ∧ record.decisionAudit = audit := by
  obtain ⟨id, i, r, st, c, e, a, hchecked⟩ := record
  unfold new
  constructor
  · intro h
    split at h
    · cases h
    · cases h
      exact ⟨rfl, rfl, rfl, rfl, rfl, rfl, rfl⟩
  · rintro ⟨rfl, rfl, rfl, rfl, rfl, rfl, rfl⟩
    split
    · rename_i err herr
      rw [hchecked] at herr
      cases herr
    · rfl

/-- The mapping of a record whose intent has the given digest. -/
def mapping (record : ApprovalRecord sha256) (digest : String) : Json.Object :=
  [("approvalId", .str record.approvalId), ("intent", .obj record.intent.toMapping),
    ("intentDigest", .str digest), ("revision", .int record.revision),
    ("status", .str record.status.value), ("createdAtMs", .int record.createdAtMs),
    ("expiresAtMs", .int record.expiresAtMs),
    ("decisionAudit", .obj ((record.decisionAudit.map DecisionAudit.toMapping).getD []))]

/-- `to_mapping`; it takes the digest of the intent, which can raise. -/
def toMapping (record : ApprovalRecord sha256) : Except PyError Json.Object := do
  let digest ← record.intent.digest sha256
  .ok (record.mapping digest)

/-- The fields of the mapping. -/
def fieldNames : List String :=
  ["approvalId", "intent", "intentDigest", "revision", "status", "createdAtMs", "expiresAtMs",
    "decisionAudit"]

/-- The audit of a stored mapping: an empty one is none. -/
def auditOf (value : Json.Object) (createdAtMs : Int) : Except PyError (Option DecisionAudit) := do
  if value = [] then .ok none
  else if ¬ hasFields value DecisionAudit.fieldNames = true then
    .error (.valueError "invalid approval audit")
  else
    let command ← objectField value "command" (.valueError "invalid approval audit command")
    let command ← ApprovalDecisionCommand.fromMapping command
    let principalId ← textField value "principalId" "principal"
    let decidedAtMs ← integerField value "decidedAtMs" "decision time" createdAtMs
    let revision ← integerField value "revision" "decision revision" 2
    .ok (some ⟨command, principalId, decidedAtMs, revision⟩)

/-- `from_mapping`. -/
def fromMapping (sha256 : String → String) (value : Json.Object) :
    Except PyError (ApprovalRecord sha256) :=
  if ¬ hasFields value fieldNames = true then
    .error (.valueError "invalid approval record fields")
  else do
    let intent ← objectField value "intent" (.valueError "invalid approval intent fields")
    let intent ← ApprovalIntent.fromMapping intent
    let digest ← intent.digest sha256
    if ¬ (Json.field? value "intentDigest").any (fun v => match v with
        | .str s => s = digest
        | _ => false) = true then
      .error (.valueError "conflicting approval intent digest")
    else do
      let approvalId ← textField value "approvalId" "id"
      let revision ← integerField value "revision" "revision" 1
      let createdAtMs ← integerField value "createdAtMs" "creation time"
      let expiresAtMs ← integerField value "expiresAtMs" "expiry" (createdAtMs + 1)
      let status ← match Json.field? value "status" with
        | some (.str s) => ApprovalStatus.ofText s
        | _ => .error (.valueError "invalid approval status")
      let audit ← objectField value "decisionAudit" (.valueError "invalid approval audit")
      let audit ← auditOf audit createdAtMs
      new sha256 approvalId intent revision status createdAtMs expiresAtMs audit

/-! ### What is written is read back -/

theorem checkText_eq_ok {value name : String} {u : Unit} :
    checkText value name = .ok u ↔ approvalText value = true := by
  unfold checkText
  by_cases h : approvalText value = true
  · rw [if_pos h]
    exact iff_of_true rfl h
  · rw [if_neg h]
    exact iff_of_false (by simp) h

theorem checkInteger_eq_ok {value minimum : Int} {name : String} {u : Unit} :
    checkInteger value name minimum = .ok u ↔ approvalInteger minimum value = true := by
  unfold checkInteger
  by_cases h : approvalInteger minimum value = true
  · rw [if_pos h]
    exact iff_of_true rfl h
  · rw [if_neg h]
    exact iff_of_false (by simp) h

/-- The checks a record has passed, apart from those on its audit. -/
theorem fields_checked (record : ApprovalRecord sha256) :
    approvalText record.approvalId = true ∧ approvalInteger 1 record.revision = true ∧
      approvalInteger 0 record.createdAtMs = true ∧
      approvalInteger (record.createdAtMs + 1) record.expiresAtMs = true := by
  obtain ⟨_, hid, h⟩ := bind_eq_ok record.checked
  obtain ⟨_, hrevision, h⟩ := bind_eq_ok h
  obtain ⟨_, hcreated, h⟩ := bind_eq_ok h
  obtain ⟨_, hexpires, h⟩ := bind_eq_ok h
  exact ⟨checkText_eq_ok.1 hid, checkInteger_eq_ok.1 hrevision, checkInteger_eq_ok.1 hcreated,
    checkInteger_eq_ok.1 hexpires⟩

/-- The checks the audit of a record has passed. -/
theorem audit_checked (record : ApprovalRecord sha256) {audit : DecisionAudit}
    (haudit : record.decisionAudit = some audit) :
    approvalText audit.principalId = true ∧
      approvalInteger record.createdAtMs audit.decidedAtMs = true ∧
      approvalInteger 2 audit.revision = true := by
  obtain ⟨_, -, h⟩ := bind_eq_ok record.checked
  obtain ⟨_, -, h⟩ := bind_eq_ok h
  obtain ⟨_, -, h⟩ := bind_eq_ok h
  obtain ⟨_, -, h⟩ := bind_eq_ok h
  rw [haudit] at h
  obtain ⟨_, hprincipal, h⟩ := bind_eq_ok h
  obtain ⟨_, hdecided, h⟩ := bind_eq_ok h
  obtain ⟨_, hrevision, -⟩ := bind_eq_ok h
  exact ⟨checkText_eq_ok.1 hprincipal, checkInteger_eq_ok.1 hdecided,
    checkInteger_eq_ok.1 hrevision⟩

/-- A record that has an audit is no longer pending. -/
theorem audit_of_pending (record : ApprovalRecord sha256) (hpending : record.status = .pending) :
    record.decisionAudit = none := by
  obtain ⟨_, -, h⟩ := bind_eq_ok record.checked
  obtain ⟨_, -, h⟩ := bind_eq_ok h
  obtain ⟨_, -, h⟩ := bind_eq_ok h
  obtain ⟨_, -, h⟩ := bind_eq_ok h
  cases haudit : record.decisionAudit with
  | none => rfl
  | some audit =>
    rw [haudit] at h
    obtain ⟨_, -, h⟩ := bind_eq_ok h
    obtain ⟨_, -, h⟩ := bind_eq_ok h
    obtain ⟨_, -, h⟩ := bind_eq_ok h
    split at h
    · cases h
    · obtain ⟨_, -, h⟩ := bind_eq_ok h
      simp [hpending] at h

theorem auditOf_toMapping (record : ApprovalRecord sha256) :
    auditOf ((record.decisionAudit.map DecisionAudit.toMapping).getD []) record.createdAtMs =
      .ok record.decisionAudit := by
  cases haudit : record.decisionAudit with
  | none => rfl
  | some audit =>
    obtain ⟨hprincipal, hdecided, hrevision⟩ := record.audit_checked haudit
    have hcommand : objectField audit.toMapping "command"
        (.valueError "invalid approval audit command") = .ok audit.command.toMapping := rfl
    have hfields : hasFields audit.toMapping DecisionAudit.fieldNames = true := rfl
    have hprincipal' : textField audit.toMapping "principalId" "principal" =
        .ok audit.principalId := textField_eq_ok rfl hprincipal
    have hdecided' : integerField audit.toMapping "decidedAtMs" "decision time"
        record.createdAtMs = .ok audit.decidedAtMs := integerField_eq_ok rfl hdecided
    have hrevision' : integerField audit.toMapping "revision" "decision revision" 2 =
        .ok audit.revision := integerField_eq_ok rfl hrevision
    simp only [Option.map_some, Option.getD_some]
    unfold auditOf
    rw [if_neg (by simp [DecisionAudit.toMapping]), if_neg (not_not.2 hfields), hcommand]
    simp only [bind, Except.bind, ApprovalDecisionCommand.fromMapping_toMapping, hprincipal',
      hdecided', hrevision']

/-- **What is written is read back**: a record loads from its mapping as it was. -/
theorem fromMapping_toMapping {record : ApprovalRecord sha256} {value : Json.Object}
    (h : record.toMapping = .ok value) : fromMapping sha256 value = .ok record := by
  obtain ⟨digest, hdigest, h⟩ := bind_eq_ok h
  cases h
  obtain ⟨hid, hrevision, hcreated, hexpires⟩ := record.fields_checked
  have hfields : hasFields (record.mapping digest) fieldNames = true := rfl
  have hintent : objectField (record.mapping digest) "intent"
      (.valueError "invalid approval intent fields") = .ok record.intent.toMapping := rfl
  have hwritten : Json.field? (record.mapping digest) "intentDigest" = some (.str digest) := rfl
  have hid' : textField (record.mapping digest) "approvalId" "id" = .ok record.approvalId :=
    textField_eq_ok rfl hid
  have hrevision' : integerField (record.mapping digest) "revision" "revision" 1 =
      .ok record.revision := integerField_eq_ok rfl hrevision
  have hcreated' : integerField (record.mapping digest) "createdAtMs" "creation time" =
      .ok record.createdAtMs := integerField_eq_ok rfl hcreated
  have hexpires' : integerField (record.mapping digest) "expiresAtMs" "expiry"
      (record.createdAtMs + 1) = .ok record.expiresAtMs := integerField_eq_ok rfl hexpires
  have hstatus : Json.field? (record.mapping digest) "status" = some (.str record.status.value) :=
    rfl
  have haudit : objectField (record.mapping digest) "decisionAudit"
      (.valueError "invalid approval audit") =
      .ok ((record.decisionAudit.map DecisionAudit.toMapping).getD []) := rfl
  have hself : new sha256 record.approvalId record.intent record.revision record.status
      record.createdAtMs record.expiresAtMs record.decisionAudit = .ok record :=
    new_eq_ok.2 ⟨rfl, rfl, rfl, rfl, rfl, rfl, rfl⟩
  unfold fromMapping
  rw [if_neg (not_not.2 hfields), hintent]
  simp only [bind, Except.bind, ApprovalIntent.fromMapping_toMapping, hdigest, hwritten]
  rw [if_neg (by simp)]
  simp only [hid', hrevision', hcreated', hexpires', hstatus, ApprovalStatus.ofText_value, haudit,
    auditOf_toMapping, hself]

end ApprovalRecord

end Purra
