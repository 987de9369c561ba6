import Purra.Core.Reading
import Purra.Lib.Transaction

/-!
# The memory journal

`Journal` of `purra_mem0`: the control metadata of one scope.  Operations and their receipts,
the items with their versions, call budgets, revoked sources and capture grants, and the epoch
that every change of what may be remembered moves on.

Each method is one transaction of the database, or one statement that commits by itself.  The
unique index over running and unknown operations is part of the writes to the table of operations.

`Host` gives what the journal takes from outside: how a time is read and written.
-/

namespace Purra.Mem0

/-- What a method raises: a `MemoryError` with its code, or something else. -/
inductive JournalError where
  | memory (code : String)
  | other (error : PyError)
  deriving DecidableEq, Repr

/-- Times: how an ISO text is read, and written. -/
structure Host where
  fromisoformat : String → Except PyError Int
  isoformat : Int → String

/-! ## Records -/

/-- An item in a version. -/
structure Ref where
  id : String
  version : Int
  deriving DecidableEq, Repr

/-- The metadata the journal reads of an item, and of a plan to write one. -/
structure Meta where
  version : Int
  state : Json
  metadata : Json
  reason : Json
  created : Json
  updated : Json
  source : String
  revision : String
  expires : Option String

/-- A stored item. -/
structure Record where
  id : String
  metaInfo : Meta
  deleted : Bool := false
  view : Json.Object := []

/-- `view`. -/
def Record.viewed (row : Record) : Json.Object :=
  Json.merge
    [("version", .int row.metaInfo.version), ("state", row.metaInfo.state), ("metadata", row.metaInfo.metadata),
      ("reason", row.metaInfo.reason), ("created_at", row.metaInfo.created),
      ("updated_at", row.metaInfo.updated)]
    row.view

/-- `view(row)["version"]`. -/
def Record.version (row : Record) : Json := Json.get row.viewed "version"

/-- A capture grant. -/
structure Authorization where
  policyId : String
  decisionId : String
  content : Json.Object

/-- `==` on capture grants. -/
def Authorization.same (a b : Authorization) : Bool :=
  a.policyId = b.policyId && a.decisionId = b.decisionId && Json.objectEq a.content b.content

/-- How a conflict between items is resolved. -/
structure Resolution where
  kind : String
  keep : Option String
  items : List Ref

/-- What an operation is to do. -/
structure Plan where
  kind : String
  metaInfo : Option Meta := none
  captureAuthorization : Option Authorization := none
  reviewKey : Option String := none
  reviewEpoch : Option Int := none
  reviewRefs : List Ref := []
  review : Json := .null
  resolution : Option Resolution := none
  providerError : Option String := none
  providersVerified : Bool := false
  rest : Json.Object := []

/-- The states of an operation. -/
inductive OperationState where
  | running | unknown | complete | failed | discarded
  deriving DecidableEq, Repr

/-- The states the writer index is over. -/
def OperationState.writes : OperationState → Bool
  | .running | .unknown => true
  | _ => false

/-- A row of `purra_mem0_ops`. -/
structure Operation where
  fingerprint : String
  state : OperationState
  plan : Plan
  ids : Option (List String) := none

/-- What a call is for. -/
inductive CallKind where
  | llm | embedding
  deriving DecidableEq, Repr

/-- The limits of a budget. -/
structure Limits where
  maxLlmCalls : Nat
  maxEmbeddingCalls : Nat
  maxInputChars : Nat
  maxOutputTokens : Nat
  resultCapacityTargetTokens : Nat
  deriving DecidableEq, Repr

/-- The limit on the calls of one kind. -/
def Limits.calls (limits : Limits) : CallKind → Nat
  | .llm => limits.maxLlmCalls
  | .embedding => limits.maxEmbeddingCalls

/-- A row of `purra_mem0_calls`. -/
structure ProviderCall where
  budget : String
  operation : Option String
  kind : CallKind
  state : String
  inputChars : Nat
  reservedOutput : Nat
  inputTokens : Option Int := none
  generationTokens : Option Int := none
  deriving DecidableEq, Repr

/-- A row of `purra_mem0_capture_authorizations`. -/
structure Grant where
  authorization : Authorization
  validFrom : Option String
  expires : Option String

/-- The rows of one scope. -/
structure State where
  epoch : Nat := 0
  ops : Dict String Operation := Dict.empty
  items : Dict String Record := Dict.empty
  budgets : Dict String Limits := Dict.empty
  calls : Dict String ProviderCall := Dict.empty
  revocations : List (String × String) := []
  grants : Dict (String × String) Grant := Dict.empty
  captureRevocations : List (String × String) := []

/-- A method. -/
abbrev Method := Transaction JournalError State

/-- `raise MemoryError(code)`. -/
def refuse {α : Type} (code : String) : Method α := .raise (.memory code)

/-- What a reading of a text raises. -/
def lift {α : Type} (x : Except PyError α) : Method α :=
  .ofExcept (x.mapError .other)

/-! ## Operations -/

/-- Another operation is running or unknown. -/
def fenced (ops : Dict String Operation) (key : String) : Prop :=
  ∃ entry ∈ ops.entries, entry.1 ≠ key ∧ entry.2.state.writes = true

instance (ops : Dict String Operation) (key : String) : Decidable (fenced ops key) :=
  inferInstanceAs (Decidable (∃ entry ∈ ops.entries, _))

/-- `sqlite3.IntegrityError`, of the writer index. -/
def fenceError : JournalError :=
  .other (.integrityError "UNIQUE constraint failed: purra_mem0_ops.scope")

/-- A row of the operations is written, unless the writer index forbids it. -/
def putOperation (key : String) (op : Operation) : Method Unit := do
  let s ← .read
  if op.state.writes = true ∧ fenced s.ops key then .raise fenceError
  else .write fun s => { s with ops := s.ops.set key op }

/-- `UPDATE purra_mem0_ops ... WHERE scope=? AND key=?`. -/
def updateOperation (key : String) (f : Operation → Operation) : Method Unit := do
  let s ← .read
  match s.ops.get? key with
  | some op => putOperation key (f op)
  | none => pure ()

/-- `if previous: ...`: whether the key is new. -/
def checkKey (key fingerprint : String) : Method Bool := do
  let s ← .read
  match s.ops.get? key with
  | some op =>
    if op.fingerprint ≠ fingerprint then refuse "memory_idempotency_conflict" else pure false
  | none => pure true

/-- `begin`, with whether the operation is new. -/
def begin (key fingerprint : String) (plan : Plan) : Method Bool := do
  if ← checkKey key fingerprint then
    let s ← .read
    if fenced s.ops key then refuse "memory_write_busy"
    else do
      putOperation key { fingerprint, state := .running, plan }
      pure true
  else pure false

/-- `save_plan`. -/
def savePlan (key : String) (plan : Plan) : Method Unit :=
  updateOperation key fun op => { op with plan }

/-- `save_ids`. -/
def saveIds (key : String) (ids : List String) : Method Unit :=
  updateOperation key fun op => { op with ids := some ids }

/-- `provider_error`. -/
def providerError (key code : String) : Method Unit :=
  updateOperation key fun op => { op with plan := { op.plan with providerError := some code } }

/-- `verify_providers`. -/
def verifyProviders (key : String) : Method Unit := do
  let s ← .read
  match s.ops.get? key with
  | some op => savePlan key { op.plan with providersVerified := true }
  | none => .raise (.other (.typeError "'NoneType' object is not subscriptable"))

/-- `fail`. -/
def fail (key : String) (dispatched : Bool) : Method Unit :=
  updateOperation key fun op => { op with state := if dispatched then .unknown else .failed }

/-- `discard`. -/
def discard (key : String) : Method Unit :=
  updateOperation key fun op => { op with state := .discarded }

/-! ## Checks -/

/-- A check of a value that may be missing. -/
def forSome {α : Type} (value : Option α) (check : α → Method Unit) : Method Unit :=
  match value with
  | some a => check a
  | none => pure ()

/-- `revoked`. -/
def revoked (s : State) (source revision : String) : Prop :=
  (source, "") ∈ s.revocations ∨ (source, revision) ∈ s.revocations

instance (s : State) (source revision : String) : Decidable (revoked s source revision) :=
  inferInstanceAs (Decidable (_ ∨ _))

/-- `assert_source`. -/
def assertSource (info : Meta) : Method Unit := do
  let s ← .read
  if revoked s info.source info.revision then refuse "memory_source_revoked" else pure ()

/-- Whether a time is not after `now`, or what counts when there is none. -/
def reached (host : Host) (now : Int) (otherwise : Bool) (time : Option String) : Method Bool :=
  match time with
  | some time => do
    let instant ← lift (host.fromisoformat time)
    pure (decide (instant ≤ now))
  | none => pure otherwise

section

variable (host : Host) (now : Int)

/-- `assert_capture_authorization`. -/
def assertCaptureAuthorization (authorization : Authorization) : Method Unit := do
  let s ← .read
  if (authorization.policyId, authorization.decisionId) ∈ s.captureRevocations then
    refuse "memory_capture_authorization_revoked"
  else match s.grants.get? (authorization.policyId, authorization.decisionId) with
    | none => refuse "memory_capture_authorization_unavailable"
    | some grant =>
      if ¬ grant.authorization.same authorization then
        refuse "memory_capture_authorization_unavailable"
      else do
        let started ← reached host now true grant.validFrom
        if ¬ started then refuse "memory_capture_authorization_not_yet_valid"
        else do
          let expired ← reached host now false grant.expires
          if expired then refuse "memory_capture_authorization_expired" else pure ()

/-- The loop body of `assert_snapshot`. -/
def assertRef (ref : Ref) : Method Unit := do
  let s ← .read
  match s.items.get? ref.id with
  | none => refuse "memory_context_stale"
  | some row =>
    if row.deleted = true ∨ ¬ Json.pyEq row.version (.int ref.version) then
      refuse "memory_context_stale"
    else do
      assertSource row.metaInfo
      let expired ← reached host now false row.metaInfo.expires
      if expired then refuse "memory_context_stale" else pure ()

/-- `assert_snapshot`. -/
def assertSnapshot (plan : Plan) : Method Unit := do
  let s ← .read
  if plan.reviewEpoch ≠ some (s.epoch : Int) ∨ plan.reviewRefs = [] then
    refuse "memory_context_stale"
  else plan.reviewRefs.forM (assertRef host now)

/-- `review_plan`. -/
def reviewPlan (key : String) : Method Plan := do
  let s ← .read
  match s.ops.get? key with
  | some op =>
    if op.state ≠ .complete ∨ op.plan.kind ≠ "review" ∨ ¬ op.plan.review.truthy then
      refuse "memory_review_unavailable"
    else pure op.plan
  | none => refuse "memory_review_unavailable"

/-- `assert_snapshot(review_plan(key))`. -/
def assertReviewed (key : String) : Method Unit := do
  let plan ← reviewPlan key
  assertSnapshot host now plan

/-! ## Budgets -/

/-- `budget`. -/
def budget (key : String) (limits : Limits) : Method Unit := do
  let s ← .read
  match s.budgets.get? key with
  | some known => if known ≠ limits then refuse "memory_budget_conflict" else pure ()
  | none => .write fun s => { s with budgets := s.budgets.set key limits }

/-- What the calls of a budget add up to. -/
def used (s : State) (key : String) (amount : ProviderCall → Nat) : Nat :=
  s.calls.total fun _ call => if call.budget = key then amount call else 0

/-- A call of a kind counts one. -/
def ofKind (kind : CallKind) (call : ProviderCall) : Nat := if call.kind = kind then 1 else 0

/-- What `admit` checks of the operation it is called for. -/
def assertAdmissible (op : Operation) : Method Unit := do
  (if op.plan.kind = "review" then assertSnapshot host now op.plan else pure ())
  (if op.plan.kind ≠ "delete" then forSome op.plan.metaInfo assertSource else pure ())
  forSome op.plan.captureAuthorization (assertCaptureAuthorization host now)

/-- `admit`; `uuid` is the id of the call. -/
def admitCall (budget : String) (operation : Option String) (kind : CallKind)
    (inputChars reservedOutput : Nat) (uuid : String) : Method String := do
  let s ← .read
  forSome (operation.bind s.ops.get?) (assertAdmissible host now)
  match s.budgets.get? budget with
  | none => .raise (.other (.typeError "'NoneType' object is not subscriptable"))
  | some limits =>
    if limits.calls kind < used s budget (ofKind kind) + 1 ∨
        limits.maxInputChars < used s budget (·.inputChars) + inputChars ∨
        limits.maxOutputTokens < used s budget (·.reservedOutput) + reservedOutput then
      refuse "memory_budget_exceeded"
    else if uuid ∈ s.calls.keys then
      .raise (.other (.integrityError "UNIQUE constraint failed: purra_mem0_calls.id"))
    else do
      let call : ProviderCall :=
        { budget, operation, kind, state := "started", inputChars, reservedOutput }
      .write fun s => { s with calls := s.calls.set uuid call }
      pure uuid

/-- `settle`. -/
def settle (callId state : String) (inputTokens generationTokens : Option Int) : Method Unit :=
  .write fun s => match s.calls.get? callId with
    | some call =>
      { s with calls := s.calls.set callId { call with state, inputTokens, generationTokens } }
    | none => s

/-! ## Revocation -/

/-- A receipt that is complete at once. -/
def receipt (fingerprint : String) (plan : Plan) (ids : List String := []) : Operation where
  fingerprint
  state := .complete
  plan
  ids := some ids

/-- `revoke_source`. -/
def revokeSource (key fingerprint source : String) (revision : Option String) : Method Unit := do
  if ← checkKey key fingerprint then
    putOperation key (receipt fingerprint
      { kind := "revoke_source"
        rest := [("source", .str source), ("revision", (revision.map Json.str).getD .null)] })
    .write fun s =>
      if revoked s source (revision.getD "") then s
      else { s with
        revocations := s.revocations ++ [(source, revision.getD "")]
        epoch := s.epoch + 1 }
  else pure ()

/-- `record_capture_authorization`. -/
def recordCaptureAuthorization (key fingerprint : String) (authorization : Authorization)
    (validFrom expires : Option String) : Method Unit := do
  if ← checkKey key fingerprint then
    let s ← .read
    let name := (authorization.policyId, authorization.decisionId)
    if name ∈ s.captureRevocations then refuse "memory_capture_authorization_revoked"
    else if (s.grants.get? name).any fun grant => ¬ (grant.authorization.same authorization ∧
        grant.validFrom = validFrom ∧ grant.expires = expires) then
      refuse "memory_capture_authorization_conflict"
    else do
      putOperation key (receipt fingerprint
        { kind := "record_capture_authorization"
          captureAuthorization := some authorization
          rest := [("valid_from", (validFrom.map Json.str).getD .null),
            ("expires", (expires.map Json.str).getD .null)] })
      .write fun s => if name ∈ s.grants.keys then s
        else { s with grants := s.grants.set name ⟨authorization, validFrom, expires⟩ }
  else pure ()

/-- `revoke_capture_authorization`. -/
def revokeCaptureAuthorization (key fingerprint policy decision : String) : Method Unit := do
  if ← checkKey key fingerprint then
    putOperation key (receipt fingerprint
      { kind := "revoke_capture_authorization"
        rest := [("policy_id", .str policy), ("decision_id", .str decision)] })
    .write fun s =>
      if (policy, decision) ∈ s.captureRevocations then s
      else { s with
        captureRevocations := s.captureRevocations ++ [(policy, decision)]
        epoch := s.epoch + 1 }
  else pure ()

/-! ## Control -/

/-- What a control changes, by the id of the item. -/
abbrev Changes := List (String × Json.Object)

/-- `changes.get(id, {})`. -/
def changeOf (changes : Changes) (id : String) : Json.Object :=
  ((changes.find? (·.1 = id)).map Prod.snd).getD []

/-- An item with a change. -/
def changed (row : Record) (change : Json.Object) (version : Int) : Record :=
  if change = [] then row
  else
    let stamp := [("version", .int (version + 1)), ("updated_at", .str (host.isoformat now))]
    { row with view := Json.merge (Json.merge row.viewed change) stamp }

/-- The loop body of `control`. -/
def controlRef (kind : String) (changes : Changes) (ref : Ref) : Method Record := do
  let s ← .read
  match s.items.get? ref.id with
  | none => refuse "memory_not_found"
  | some row =>
    if row.deleted = true then refuse "memory_not_found"
    else if ¬ Json.pyEq row.version (.int ref.version) then refuse "memory_version_conflict"
    else do
      assertSource row.metaInfo
      let change := changeOf changes ref.id
      if (kind = "resolve" ∨ kind = "link") ∨
          Json.pyEq (Json.get change "state") (.str "active") then do
        let expired ← reached host now false row.metaInfo.expires
        if expired then refuse "memory_context_stale"
        else pure (changed host now row change ref.version)
      else pure (changed host now row change ref.version)

/-- `UPDATE purra_mem0_items SET record=? WHERE scope=? AND id=?`. -/
def updateItem (items : Dict String Record) (row : Record) : Dict String Record :=
  if row.id ∈ items.keys then items.set row.id row else items

/-- `control`. -/
def control (key fingerprint : String) (plan : Plan) (epoch : Int) (refs : List Ref)
    (changes : Changes) : Method Unit := do
  if ← checkKey key fingerprint then
    let s ← .read
    if fenced s.ops key then refuse "memory_write_busy"
    else if (s.epoch : Int) ≠ epoch then refuse "memory_context_stale"
    else do
      forSome plan.reviewKey (assertReviewed host now)
      forSome plan.captureAuthorization (assertCaptureAuthorization host now)
      let records ← refs.mapM (controlRef host now plan.kind changes)
      putOperation key (receipt fingerprint plan (records.map (·.id)))
      .write fun s => { s with
        items := records.foldl updateItem s.items
        epoch := s.epoch + 1 }
  else pure ()

/-- What a resolution changes. -/
def resolutionChanges (key : String) (resolution : Resolution) : Changes :=
  resolution.items.map fun ref => (ref.id,
    [("state", .str (if some ref.id = resolution.keep then "active" else "disabled")),
      ("reason", if some ref.id = resolution.keep then .null else .str resolution.kind),
      ("resolution", .str key)])

/-- `resolve`. -/
def resolve (key fingerprint : String) (plan : Plan) (epoch : Int) : Method Unit :=
  match plan.resolution with
  | some resolution =>
    control host now key fingerprint plan epoch resolution.items (resolutionChanges key resolution)
  | none => .raise (.other (.keyError "resolution"))

/-- `finish_review`. -/
def finishReview (key : String) (plan : Plan) : Method Unit := do
  let s ← .read
  match s.ops.get? key with
  | none => .raise (.other (.typeError "'NoneType' object is not subscriptable"))
  | some op =>
    if op.state ≠ .running then refuse "memory_operation_unresolved"
    else do
      assertSnapshot host now plan
      updateOperation key fun op => { op with plan, state := .complete, ids := some [] }

end

/-- `commit`. -/
def commit (key : String) (records : List Record) : Method Unit := do
  .write fun s => { s with items := records.foldl (fun items row => items.set row.id row) s.items }
  updateOperation key fun op => { op with state := .complete }
  .write fun s => if records = [] then s else { s with epoch := s.epoch + 1 }

end Purra.Mem0
