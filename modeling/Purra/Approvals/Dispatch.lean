import Mathlib.Data.List.Induction
import Purra.Approvals.Decisions

/-!
# Dispatch

An approved call is dispatched in three steps that anything can come between: a
transaction claims it, the external operation runs, a transaction stores the
receipt.  The claim is what other executions meet; the receipt is what later calls
replay; the approval, the checkpoint, the Run and the lease are read again by every
claim.

* `Dispatchable` — everything a claim under an approval has checked, at the state it
  commits on (`executeBegin_eq_ok`).
* `waiting`, `free` — executions that have claimed and not started, and whether a
  claim is still possible; their sum bounds the starts to come.
* `approved_dispatch` — starts after the last non-execution, where each start comes
  from, what superseded executions can still do, and replays.
-/

namespace Purra

open Transaction StorageSession SqliteApprovalStore ToolIdempotency

/-! ## What a dispatch has checked -/

/-- A call can be dispatched by `context`: its approval is in force, the call is the checkpointed
one and the one the intent is about, neither Run is stopped, and the context owns the lease. -/
structure Dispatchable (lib : PythonLibrary) (s : SqliteState) (context : ExecutionContext)
    (wall clock : Int) (runId : String) (call : ToolCall) (record : ApprovalRecord lib.sha256)
    (run root : StoredRun) (owner : String) (attempt : Nat) : Prop where
  stored : Stored lib s.approvals record.approvalId record
  intent : record.intent.runId = runId ∧ record.intent.toolCallId = call.id
  approved : record.status = .approved
  unexpired : clock < effectiveExpiry record.expiresAtMs (earliest run.deadlineAtMs root.deadlineAtMs)
  checkpoint : ∃ checkpoint pending, run.executionCheckpoint = some checkpoint ∧
    checkpoint.pending = some pending ∧ pending.call = call
  name : call.name = record.intent.toolName
  arguments : sameArguments lib call record.intent = .ok true
  preset : jsonIdentityDigest lib.sha256 (.obj run.agentPresetSnapshot) =
    .ok record.intent.presetFingerprint
  run : s.runs.get? runId = some run ∧ run.status = .running ∧
    cancellationRequested s runId = false
  root : s.runs.get? record.intent.rootRunId = some root ∧ root.status = .running ∧
    cancellationRequested s record.intent.rootRunId = false
  context : context.executionOwner = some owner ∧
    ∃ claimant, context.executionClaim = some (runId, claimant, attempt)
  lease : (LeaseStore.current s runId).heldBy owner wall ∧
    (LeaseStore.current s runId).attempt = attempt ∧ s.leases.get? runId ≠ none

section

variable {lib : PythonLibrary} {s s' : SqliteState} {context : ExecutionContext}
  {wall clock : Int} {runId : String} {call : ToolCall}

theorem getRun_eq_ok {run : StoredRun} (h : getRun runId s = .ok (run, s')) :
    s.runs.get? runId = some run ∧ s' = s := by
  replace h := read_bind_eq_ok.1 h
  cases hget : s.runs.get? runId with
  | none =>
    simp only [hget] at h
    cases h
  | some found =>
    simp only [hget] at h
    obtain ⟨heq, hs'⟩ := pure_eq_ok.1 h
    exact ⟨by rw [heq], hs'⟩

theorem now_eq_ok {now : Int} (h : SqliteApprovalStore.now clock s = .ok (now, s')) :
    now = clock ∧ s' = s := by
  obtain ⟨_, -, h⟩ := ofExcept_bind_eq_ok.1 h
  exact pure_eq_ok.1 h

theorem requireOwner_eq_ok {owner : String} {attempt : Nat}
    (h : requireOwner context wall runId s = .ok ((owner, attempt), s')) :
    (context.executionOwner = some owner ∧
        ∃ claimant, context.executionClaim = some (runId, claimant, attempt)) ∧
      (LeaseStore.current s runId).heldBy owner wall ∧
      (LeaseStore.current s runId).attempt = attempt ∧ s.leases.get? runId ≠ none ∧ s' = s := by
  replace h := read_bind_eq_ok.1 h
  cases hclaim : context.executionClaim with
  | none =>
    simp only [hclaim] at h
    exact absurd h not_fail_eq_ok
  | some claim =>
    obtain ⟨claimed, claimant, number⟩ := claim
    cases hlease : s.leases.get? runId with
    | none =>
      simp only [hclaim, hlease] at h
      exact absurd h not_fail_eq_ok
    | some lease =>
      cases howner : context.executionOwner with
      | none =>
        simp only [hclaim, hlease, howner] at h
        exact absurd h not_fail_eq_ok
      | some holder =>
        simp only [hclaim, hlease, howner] at h
        obtain ⟨hchecks, h⟩ := refuse_eq_ok.1 h
        simp only [not_or, not_not, not_le] at hchecks
        obtain ⟨hrun, hheld, hattempt, hlive⟩ := hchecks
        obtain ⟨heq, hs'⟩ := pure_eq_ok.1 h
        cases heq
        have hcurrent : LeaseStore.current s runId = lease := by
          simp [LeaseStore.current, hlease]
        rw [hcurrent]
        exact ⟨⟨rfl, claimant, by rw [hrun]⟩, ⟨hheld, hlive⟩, hattempt.symm, by simp, hs'⟩

theorem runState_eq_ok {intent : ApprovalIntent} {state : RunState}
    (h : runState lib intent s = .ok (state, s')) :
    ∃ run root, s.runs.get? intent.runId = some run ∧
      s.runs.get? intent.rootRunId = some root ∧
      state.canceled = (run.status ≠ .running || root.status ≠ .running ||
        cancellationRequested s intent.runId || cancellationRequested s intent.rootRunId) ∧
      state.deadline = earliest run.deadlineAtMs root.deadlineAtMs ∧
      jsonIdentityDigest lib.sha256 (.obj run.agentPresetSnapshot) = .ok state.fingerprint := by
  replace h := read_bind_eq_ok.1 h
  obtain ⟨-, h⟩ := refuse_eq_ok.1 h
  obtain ⟨run, s₁, hrun, h⟩ := Transaction.bind_eq_ok.1 h
  obtain ⟨hrun, hs₁⟩ := getRun_eq_ok hrun
  rw [hs₁] at h
  obtain ⟨root, s₂, hroot, h⟩ := Transaction.bind_eq_ok.1 h
  obtain ⟨hroot, -⟩ := getRun_eq_ok hroot
  obtain ⟨fingerprint, hfingerprint, h⟩ := ofExcept_bind_eq_ok.1 h
  obtain ⟨rfl, -⟩ := pure_eq_ok.1 h
  exact ⟨run, root, hrun, hroot, rfl, rfl, hfingerprint⟩

theorem checkCheckpoint_eq_ok {checkpoint : Option ExecutionCheckpoint} {intent : ApprovalIntent}
    {pending : PendingTool} (h : checkCheckpoint lib checkpoint call intent s = .ok (pending, s')) :
    (∃ c, checkpoint = some c ∧ c.pending = some pending) ∧ pending.call = call ∧
      call.name = intent.toolName ∧ sameArguments lib call intent = .ok true := by
  unfold checkCheckpoint at h
  cases hpending : checkpoint.bind (·.pending) with
  | none =>
    simp only [hpending] at h
    exact absurd h not_fail_eq_ok
  | some found =>
    simp only [hpending] at h
    obtain ⟨hsame, h⟩ := refuse_eq_ok.1 h
    simp only [not_or, not_not] at hsame
    obtain ⟨same, harguments, h⟩ := ofExcept_bind_eq_ok.1 h
    obtain ⟨htrue, h⟩ := refuse_eq_ok.1 h
    obtain ⟨rfl, -⟩ := pure_eq_ok.1 h
    rw [not_not.1 htrue] at harguments
    exact ⟨Option.bind_eq_some_iff.1 hpending, hsame.1, hsame.2, harguments⟩

theorem completedReceipt_of_none {record : ApprovalRecord lib.sha256} {completed : Bool}
    (hnone : s.toolReceipts.get? (record.intent.runId, call.id) = none)
    (h : completedReceipt lib record call s = .ok (completed, s')) : completed = false := by
  replace h := read_bind_eq_ok.1 h
  simp only [hnone] at h
  exact (pure_eq_ok.1 h).1

/-- The record of a Run and call is stored at their identifier. -/
theorem approvalOf_eq_some {callId id : String} (htable : Table lib s.approvals)
    (h : approvalOf s runId callId = some id) :
    identifier lib runId callId = .ok id ∧ ∃ row record, s.approvals.get? id = some row ∧
      RowHolds lib id row record ∧ record.intent.runId = runId ∧
        record.intent.toolCallId = callId := by
  unfold approvalOf at h
  split at h
  · obtain ⟨⟨key, row⟩, hfind, hkey⟩ := Option.map_eq_some_iff.1 h
    have hmatch := List.find?_some hfind
    have hmem := List.mem_of_find?_eq_some hfind
    simp only [Bool.and_eq_true, decide_eq_true_eq] at hmatch
    obtain rfl : key = id := hkey
    have hget : s.approvals.get? key = some row := Dict.mem_entries_iff.1 hmem
    obtain ⟨record, hrow⟩ := htable key row hget
    have hidentifier := hrow.identifier
    rw [hmatch.1, hmatch.2] at hidentifier
    exact ⟨hidentifier, row, record, hget, hrow, hrow.runId.trans hmatch.1,
      hrow.callId.trans hmatch.2⟩
  · cases h

/-- What `_dispatch_record` lets through, when the call has no receipt yet. -/
theorem dispatchRecord_eq_ok {record : ApprovalRecord lib.sha256} {id : String}
    (htable : Table lib s.approvals) (happroval : approvalOf s runId call.id = some id)
    (hnone : s.toolReceipts.get? (runId, call.id) = none)
    (h : dispatchRecord lib context wall clock runId call s = .ok (record, s')) :
    record.approvalId = id ∧ ∃ run root owner attempt,
      Dispatchable lib s context wall clock runId call record run root owner attempt := by
  obtain ⟨hidentifier, row, stored, hget, hrow, hrunId, hcallId⟩ :=
    approvalOf_eq_some htable happroval
  obtain ⟨_, s₁, henabled, h⟩ := Transaction.bind_eq_ok.1 h
  rw [readOnly_enabled.eq henabled] at h
  obtain ⟨⟨owner, attempt⟩, s₂, howner, h⟩ := Transaction.bind_eq_ok.1 h
  rw [(readOnly_requireOwner context wall runId).eq howner] at h
  obtain ⟨hcontext, hheld, hattempt, hleased, -⟩ := requireOwner_eq_ok howner
  obtain ⟨id', hid', h⟩ := ofExcept_bind_eq_ok.1 h
  obtain rfl : id' = id := Except.ok.inj (hid'.symm.trans hidentifier)
  obtain ⟨loaded, s₃, hload, h⟩ := Transaction.bind_eq_ok.1 h
  rw [(readOnly_load id').eq hload] at h
  obtain ⟨-, hloaded, -⟩ := load_eq_ok htable hload
  -- the row at the identifier is the row of this Run and call, whatever else hashes there
  have hsame : loaded = stored := hloaded.unique ⟨row, hget, hrow⟩
  obtain ⟨run, s₄, hrun, h⟩ := Transaction.bind_eq_ok.1 h
  obtain ⟨hrun, hs₄⟩ := getRun_eq_ok hrun
  rw [hs₄] at h
  obtain ⟨pending, s₅, hpending, h⟩ := Transaction.bind_eq_ok.1 h
  rw [(readOnly_checkCheckpoint run.executionCheckpoint call loaded.intent).eq hpending] at h
  obtain ⟨⟨checkpoint, hcheckpoint, hpending'⟩, hcall, hname, harguments⟩ :=
    checkCheckpoint_eq_ok hpending
  replace h := read_bind_eq_ok.1 h
  obtain ⟨-, h⟩ := refuse_eq_ok.1 h
  obtain ⟨completed, s₆, hcompleted, h⟩ := Transaction.bind_eq_ok.1 h
  rw [(readOnly_completedReceipt loaded call).eq hcompleted] at h
  have hno : s.toolReceipts.get? (loaded.intent.runId, call.id) = none := by
    rw [hsame, hrunId, hnone]
  rw [completedReceipt_of_none hno hcompleted] at h
  rcases ite_eq_ok.1 h with ⟨hfalse, -⟩ | ⟨-, h⟩
  · cases hfalse
  obtain ⟨state, s₇, hstate, h⟩ := Transaction.bind_eq_ok.1 h
  rw [(readOnly_runState loaded.intent).eq hstate] at h
  obtain ⟨run', root, hrun', hroot, hcanceled, hdeadline, hfingerprint⟩ := runState_eq_ok hstate
  obtain ⟨hgoing, h⟩ := refuse_eq_ok.1 h
  obtain ⟨happroved, h⟩ := refuse_eq_ok.1 h
  obtain ⟨now', s₈, hnow, h⟩ := Transaction.bind_eq_ok.1 h
  rw [(readOnly_now clock).eq hnow] at h
  obtain ⟨hnow', -⟩ := now_eq_ok hnow
  obtain ⟨hexpiry, h⟩ := refuse_eq_ok.1 h
  obtain ⟨hpreset, h⟩ := refuse_eq_ok.1 h
  obtain ⟨hrecord, -⟩ := pure_eq_ok.1 h
  rw [hrecord]
  have hrunId' : loaded.intent.runId = runId := by rw [hsame, hrunId]
  have hcallId' : loaded.intent.toolCallId = call.id := by rw [hsame, hcallId]
  rw [hrunId', hrun] at hrun'
  obtain rfl : run = run' := Option.some.inj hrun'
  rw [hcanceled, hrunId'] at hgoing
  simp only [Bool.or_eq_true, decide_eq_true_eq, ne_eq, not_or, not_not, Bool.not_eq_true]
    at hgoing
  obtain ⟨⟨⟨hrunning, hrootRunning⟩, hclear⟩, hrootClear⟩ := hgoing
  obtain ⟨row', -, hrow'⟩ := hloaded
  refine ⟨hrow'.approvalId, run, root, owner, attempt, ?_⟩
  exact {
    stored := by rw [hrow'.approvalId, hsame]; exact ⟨row, hget, hrow⟩
    intent := ⟨hrunId', hcallId'⟩
    approved := not_not.1 happroved
    unexpired := by rw [← hdeadline, ← hnow']; exact not_le.1 hexpiry
    checkpoint := ⟨checkpoint, pending, hcheckpoint, hpending', hcall⟩
    name := hname
    arguments := harguments
    preset := by rw [hfingerprint, not_not.1 hpreset]
    run := ⟨hrun, hrunning, hclear⟩
    root := ⟨hroot, hrootRunning, hrootClear⟩
    context := hcontext
    lease := ⟨hheld, hattempt, hleased⟩ }

end

/-! ## The transactions on a claim -/

/-- Claims and receipts. -/
def toolRows (s : SqliteState) := (s.claims, s.toolReceipts)

section

variable {lib : PythonLibrary} {s s' : SqliteState} {context : ExecutionContext}
  {wall clock : Int} {runId : String} {call : ToolCall}

variable {u : Unit}

theorem saveToolReceipt_eq_ok {key : String × String} {result : ToolHandlerResult}
    (h : saveToolReceipt key call result s = .ok (u, s')) :
    (∀ old, s.toolReceipts.get? key = some old → old = (call, result)) ∧
      s' = { s with toolReceipts := s.toolReceipts.set key (call, result) } := by
  replace h := read_bind_eq_ok.1 h
  cases hget : s.toolReceipts.get? key with
  | none =>
    simp only [hget] at h
    exact ⟨by simp, write_eq_ok.1 h⟩
  | some previous =>
    simp only [hget] at h
    rcases ite_eq_ok.1 h with ⟨-, h⟩ | ⟨hsame, h⟩
    · cases h
    · refine ⟨fun old hold => ?_, write_eq_ok.1 h⟩
      rw [← Option.some.inj hold]
      exact not_not.1 hsame

theorem dropClaim_eq_ok {key : String × String} (h : dropClaim key s = .ok (u, s')) :
    (s.claims.get? key).isSome = true ∧ s' = { s with claims := s.claims.erase key } := by
  replace h := read_bind_eq_ok.1 h
  obtain ⟨hsome, h⟩ := refuse_eq_ok.1 h
  exact ⟨by simpa [Option.isSome_iff_ne_none] using hsome, write_eq_ok.1 h⟩

/-- The claim of `executeBegin`, under an approval or not. -/
theorem claimCall_eq_ok {record : Option (ApprovalRecord lib.sha256)} {begun : Begun}
    (h : claimCall lib runId call record s = .ok (begun, s')) :
    ∃ approval, begun = .started approval ∧ approval.map Prod.fst = record.map (·.approvalId) ∧
      toolRows s' = (s.claims.set (runId, call.id) call, s.toolReceipts) := by
  cases record with
  | none =>
    replace h := write_bind_eq_ok.1 h
    obtain ⟨hbegun, hs'⟩ := pure_eq_ok.1 h
    exact ⟨none, hbegun, rfl, by rw [hs']; rfl⟩
  | some record =>
    replace h := read_bind_eq_ok.1 h
    cases hlease : s.leases.get? runId with
    | none =>
      simp only [hlease] at h
      cases h
    | some lease =>
      simp only [hlease] at h
      obtain ⟨entry, -, h⟩ := ofExcept_bind_eq_ok.1 h
      replace h := write_bind_eq_ok.1 h
      obtain ⟨hbegun, hs'⟩ := pure_eq_ok.1 h
      exact ⟨some (record.approvalId, entry), hbegun, rfl, by rw [hs']; rfl⟩

/-- **The first transaction of `execute_once`** replays the receipt there is, or finds neither
receipt nor claim and claims the call, under everything the approval of the call asks for. -/
theorem executeBegin_eq_ok {begun : Begun}
    (h : executeBegin lib context wall clock runId call s = .ok (begun, s')) :
    (∃ receipt, s.toolReceipts.get? (runId, call.id) = some receipt ∧ receipt.1 = call ∧
        begun = .replay { receipt.2 with fromCache := true } ∧ s' = s) ∨
      (s.toolReceipts.get? (runId, call.id) = none ∧ s.claims.get? (runId, call.id) = none ∧
        ∃ approval, begun = .started approval ∧
          toolRows s' = (s.claims.set (runId, call.id) call, s.toolReceipts) ∧
          (Table lib s.approvals → (approvalOf s runId call.id).isSome = true →
            approval.isSome = true ∧ ∃ record run root owner attempt,
              Dispatchable lib s context wall clock runId call record run root owner attempt)) := by
  replace h := read_bind_eq_ok.1 (transaction_eq_ok h)
  obtain ⟨record, s₁, hrecord, h⟩ := Transaction.bind_eq_ok.1 h
  rw [(readOnly_dispatchApproval context wall clock runId call _).eq hrecord] at h
  cases hreceipt : s.toolReceipts.get? (runId, call.id) with
  | some receipt =>
    simp only [hreceipt] at h
    obtain ⟨hsame, h⟩ := refuse_eq_ok.1 h
    obtain ⟨hbegun, hs'⟩ := pure_eq_ok.1 h
    exact Or.inl ⟨receipt, rfl, not_not.1 hsame, hbegun, hs'⟩
  | none =>
    simp only [hreceipt] at h
    rcases ite_eq_ok.1 h with ⟨-, h⟩ | ⟨hunclaimed, h⟩
    · cases h
    have hclaim : s.claims.get? (runId, call.id) = none := by simpa using hunclaimed
    obtain ⟨approval, hbegun, hkeys, hrows⟩ := claimCall_eq_ok h
    refine Or.inr ⟨rfl, hclaim, approval, hbegun, hrows, fun htable hgoverned => ?_⟩
    obtain ⟨id, hid⟩ := Option.isSome_iff_exists.1 hgoverned
    rw [hid] at hrecord
    obtain ⟨found, hfound, rfl⟩ := Transaction.map_eq_ok.1 hrecord
    obtain ⟨-, run, root, owner, attempt, hdispatch⟩ :=
      dispatchRecord_eq_ok htable hid hreceipt hfound
    refine ⟨?_, found, run, root, owner, attempt, hdispatch⟩
    cases approval with
    | none => cases hkeys
    | some p => rfl

theorem completeEntry_eq_ok {result : ToolHandlerResult}
    {approval : Option (String × ApprovalExecution)}
    (h : completeEntry context wall runId result approval s = .ok (u, s')) :
    toolRows s' = toolRows s ∧ (approval.isSome = true → ∃ owner attempt,
      requireOwner context wall runId s = .ok ((owner, attempt), s)) := by
  cases approval with
  | none => exact ⟨by rw [(pure_eq_ok.1 h).2], by simp⟩
  | some p =>
    obtain ⟨⟨owner, attempt⟩, s₁, howner, h⟩ := Transaction.bind_eq_ok.1 h
    have hs₁ := (readOnly_requireOwner context wall runId).eq howner
    rw [hs₁] at h howner
    replace h := read_bind_eq_ok.1 h
    obtain ⟨-, h⟩ := refuse_eq_ok.1 h
    exact ⟨by rw [write_eq_ok.1 h]; rfl, fun _ => ⟨owner, attempt, howner⟩⟩

/-- **The second transaction of `execute_once`** needs the claim, and under an approval the lease:
it stores the receipt, or finds the same one, and drops the claim. -/
theorem executeComplete_eq_ok {result : ToolHandlerResult}
    {approval : Option (String × ApprovalExecution)}
    (h : executeComplete context wall runId call approval result s = .ok (u, s')) :
    (s.claims.get? (runId, call.id)).isSome = true ∧
      (∀ old, s.toolReceipts.get? (runId, call.id) = some old → old = (call, result)) ∧
      toolRows s' = (s.claims.erase (runId, call.id),
        s.toolReceipts.set (runId, call.id) (call, result)) ∧
      (approval.isSome = true → ∃ owner attempt,
        requireOwner context wall runId s = .ok ((owner, attempt), s)) := by
  rcases ite_eq_ok.1 h with ⟨-, h⟩ | ⟨-, h⟩
  · cases h
  obtain ⟨_, s₁, hentry, h⟩ := Transaction.bind_eq_ok.1 (transaction_eq_ok h)
  obtain ⟨_, s₂, hsave, hdrop⟩ := Transaction.bind_eq_ok.1 h
  obtain ⟨hrows, howner⟩ := completeEntry_eq_ok hentry
  obtain ⟨hprevious, hs₂⟩ := saveToolReceipt_eq_ok hsave
  obtain ⟨hclaimed, hs'⟩ := dropClaim_eq_ok hdrop
  have hclaims : s₁.claims = s.claims := congrArg Prod.fst hrows
  have hreceipts : s₁.toolReceipts = s.toolReceipts := congrArg Prod.snd hrows
  rw [hs₂] at hclaimed hs'
  rw [hreceipts] at hprevious
  refine ⟨hclaims ▸ hclaimed, hprevious, ?_, howner⟩
  rw [hs', ← hclaims, ← hreceipts]
  rfl

/-- The receipt that evidence makes. -/
def Evidence.receipt (call : ToolCall) : Evidence → Option (ToolCall × ToolHandlerResult)
  | .result r => some (call, r)
  | .notExecuted => none

theorem storeEvidence_eq_ok {evidence : Evidence}
    (h : storeEvidence runId call evidence s = .ok (u, s')) :
    s'.claims = s.claims ∧
      match Evidence.receipt call evidence with
      | some receipt =>
        (∀ old, s.toolReceipts.get? (runId, call.id) = some old → old = receipt) ∧
          s'.toolReceipts = s.toolReceipts.set (runId, call.id) receipt
      | none => s'.toolReceipts = s.toolReceipts := by
  cases evidence with
  | result r =>
    obtain ⟨hprevious, hs'⟩ := saveToolReceipt_eq_ok h
    exact ⟨by rw [hs'], hprevious, by rw [hs']⟩
  | notExecuted =>
    obtain ⟨-, hs'⟩ := pure_eq_ok.1 h
    exact ⟨by rw [hs'], by rw [hs']; rfl⟩

/-- **A reconciliation** needs the claim and drops it; a result becomes the receipt. -/
theorem reconcileTool_eq_ok {evidence : Evidence}
    (h : reconcileTool lib wall runId call evidence s = .ok (u, s')) :
    s.claims.get? (runId, call.id) = some call ∧
      s'.claims = s.claims.erase (runId, call.id) ∧
      match Evidence.receipt call evidence with
      | some receipt =>
        (∀ old, s.toolReceipts.get? (runId, call.id) = some old → old = receipt) ∧
          s'.toolReceipts = s.toolReceipts.set (runId, call.id) receipt
      | none => s'.toolReceipts = s.toolReceipts := by
  replace h := read_bind_eq_ok.1 (transaction_eq_ok h)
  obtain ⟨hclaim, h⟩ := refuse_eq_ok.1 h
  obtain ⟨approval, s₁, happroval, h⟩ := Transaction.bind_eq_ok.1 h
  rw [(readOnly_reconcileApproval wall runId evidence _).eq happroval] at h
  obtain ⟨_, s₂, hstore, h⟩ := Transaction.bind_eq_ok.1 h
  obtain ⟨_, s₃, hsettle, h⟩ := Transaction.bind_eq_ok.1 h
  replace h := write_bind_eq_ok.1 h
  have hsettled : toolRows s₃ = toolRows s₂ := by
    cases approval with
    | none => rw [(pure_eq_ok.1 hsettle).2]
    | some p =>
      obtain ⟨approvalId, entry⟩ := p
      unfold settleEntry at hsettle
      rw [write_eq_ok.1 hsettle]
      rfl
  have hwoken := keeps_wake (f := toolRows) (fun _ _ _ => rfl) _ _ _ h
  have hclaims₃ : s₃.claims = s₂.claims := congrArg Prod.fst hsettled
  have hclaims : s'.claims = s₂.claims.erase (runId, call.id) := by
    rw [← hclaims₃]
    exact congrArg Prod.fst hwoken
  have hreceipts : s'.toolReceipts = s₂.toolReceipts :=
    (congrArg Prod.snd hwoken).trans (congrArg Prod.snd hsettled)
  obtain ⟨hkept, hevidence⟩ := storeEvidence_eq_ok hstore
  rw [hreceipts, hclaims, hkept]
  exact ⟨not_not.1 hclaim, rfl, hevidence⟩

end

/-! ## Counting starts -/

/-- The execution is of this call. -/
def Flight.about (f : Flight) (runId callId : String) : Bool := f.runId = runId && f.call.id = callId

/-- Executions of a call from the `n`-th on that have claimed it and not started. -/
def waiting (n : Nat) (runId callId : String) (state : SystemState) : Nat :=
  (state.flights.drop n).countP fun f => f.about runId callId && f.phase = .claimed

/-- One when the call can still be claimed: there is neither claim nor receipt. -/
def free (runId callId : String) (s : SqliteState) : Nat :=
  if s.claims.get? (runId, callId) = none ∧ s.toolReceipts.get? (runId, callId) = none then 1 else 0

/-- One when the event starts the operation of the call in an execution from the `n`-th on. -/
def starts (n : Nat) (runId callId : String) (state : SystemState) : Int × SystemOp → Nat
  | (_, .start flight) =>
    if n ≤ flight ∧ (state.flightIn flight .claimed).any (·.about runId callId) = true then 1 else 0
  | _ => 0

/-- The starts of a run. -/
def startsIn (lib : PythonLibrary) (n : Nat) (runId callId : String) :
    SystemState → List (Int × SystemOp) → Nat
  | _, [] => 0
  | state, event :: run =>
    starts n runId callId state event + startsIn lib n runId callId (state.step lib event) run

/-- The event is a committed `reconcile_tool` of the call with `not_executed`. -/
def reopens (lib : PythonLibrary) (runId callId : String) (state : SystemState) :
    Int × SystemOp → Bool
  | (wall, .store (.reconcileTool run call .notExecuted)) =>
    run = runId && call.id = callId &&
      (reconcileTool lib wall run call .notExecuted state.storage).toBool
  | _ => false

section

variable {α : Type} {p : α → Bool} {f : α → α}

theorem countP_modify_le (h : ∀ a, p (f a) = true → p a = true) (l : List α) (k : Nat) :
    (l.modify k f).countP p ≤ l.countP p := by
  induction l generalizing k with
  | nil => simp
  | cons a l ih =>
    cases k with
    | zero =>
      have ha := h a
      by_cases hfa : p (f a) = true
      · simp [hfa, ha hfa]
      · simp [List.countP_cons, hfa]
    | succ k =>
      have hl := ih k
      simp only [List.modify_succ_cons, List.countP_cons]
      omega

theorem countP_modify_lt {l : List α} {k : Nat} {a : α} (hk : l[k]? = some a) (ha : p a = true)
    (hfa : p (f a) = false) : (l.modify k f).countP p + 1 = l.countP p := by
  induction l generalizing k with
  | nil => simp at hk
  | cons b l ih =>
    cases k with
    | zero =>
      obtain rfl : b = a := by simpa using hk
      simp [ha, hfa]
    | succ k =>
      have hl := ih (by simpa using hk)
      simp only [List.modify_succ_cons, List.countP_cons]
      omega

end

section

variable {lib : PythonLibrary} {n flight : Nat} {runId callId : String} {state : SystemState}
  {phase : FlightPhase} {s s' : SqliteState}

theorem flightIn_eq_some {f : Flight} :
    state.flightIn flight phase = some f ↔ state.flights[flight]? = some f ∧ f.phase = phase := by
  unfold SystemState.flightIn
  rw [Option.filter_eq_some_iff]
  simp

theorem waiting_setPhase_le (hphase : phase ≠ .claimed) :
    waiting n runId callId (state.setPhase flight phase) ≤ waiting n runId callId state := by
  have hmap : ∀ f : Flight, (Flight.about { f with phase } runId callId &&
      decide (({ f with phase } : Flight).phase = .claimed)) = true →
      (f.about runId callId && decide (f.phase = .claimed)) = true := by
    intro f hf
    simp [hphase] at hf
  unfold waiting SystemState.setPhase
  by_cases hn : n ≤ flight
  · rw [List.drop_modify_of_ge _ _ _ _ hn]
    exact countP_modify_le hmap _ _
  · rw [List.drop_modify_of_lt _ _ _ _ (Nat.lt_of_not_le hn)]

theorem waiting_start {f : Flight} (hf : state.flightIn flight .claimed = some f)
    (habout : f.about runId callId = true) (hn : n ≤ flight) :
    waiting n runId callId (state.setPhase flight .started) + 1 = waiting n runId callId state := by
  obtain ⟨hget, hclaimed⟩ := flightIn_eq_some.1 hf
  unfold waiting SystemState.setPhase
  rw [List.drop_modify_of_ge _ _ _ _ hn]
  refine countP_modify_lt (a := f) ?_ (by simp [habout, hclaimed]) (by simp)
  rw [List.getElem?_drop, Nat.add_sub_cancel' hn]
  exact hget

theorem free_of_toolRows (h : toolRows s' = toolRows s) :
    free runId callId s' = free runId callId s := by
  have hclaims : s'.claims = s.claims := congrArg Prod.fst h
  have hreceipts : s'.toolReceipts = s.toolReceipts := congrArg Prod.snd h
  unfold free
  rw [hclaims, hreceipts]

/-- A claim takes the place of the call. -/
theorem free_claimed {run : String} {call : ToolCall}
    (hclaim : s.claims.get? (run, call.id) = none)
    (hreceipt : s.toolReceipts.get? (run, call.id) = none)
    (hrows : toolRows s' = (s.claims.set (run, call.id) call, s.toolReceipts)) :
    free runId callId s' + (if run = runId ∧ call.id = callId then 1 else 0) =
      free runId callId s := by
  have hclaims : s'.claims = s.claims.set (run, call.id) call := congrArg Prod.fst hrows
  have hreceipts : s'.toolReceipts = s.toolReceipts := congrArg Prod.snd hrows
  unfold free
  rw [hclaims, hreceipts, Dict.get?_set]
  by_cases hkey : run = runId ∧ call.id = callId
  · obtain ⟨rfl, rfl⟩ := hkey
    simp [hclaim, hreceipt]
  · have hne : (runId, callId) ≠ (run, call.id) := by
      rintro heq
      cases heq
      exact hkey ⟨rfl, rfl⟩
    simp [hkey, hne]

/-- Dropping the claim of a call frees no other one. -/
theorem free_erase_of_ne {key : String × String} (hne : (runId, callId) ≠ key)
    (hclaims : s'.claims = s.claims.erase key)
    (hreceipts : s'.toolReceipts.get? (runId, callId) = s.toolReceipts.get? (runId, callId)) :
    free runId callId s' = free runId callId s := by
  unfold free
  rw [hclaims, hreceipts, Dict.get?_erase_of_ne hne]

theorem free_settled {receipt : ToolCall × ToolHandlerResult}
    (hreceipt : s'.toolReceipts.get? (runId, callId) = some receipt) :
    free runId callId s' = 0 := by
  unfold free
  rw [hreceipt]
  simp

variable {wall : Int}

theorem free_complete {context : ExecutionContext} {run : String} {call : ToolCall}
    {approval : Option (String × ApprovalExecution)} {result : ToolHandlerResult} :
    free runId callId ((executeComplete context wall run call approval result).left s) ≤
      free runId callId s := by
  rcases left_cases (executeComplete context wall run call approval result) s with
    ⟨u, s', h, heq⟩ | ⟨-, heq⟩
  · obtain ⟨-, -, hrows, -⟩ := executeComplete_eq_ok h
    have hreceipts : s'.toolReceipts = s.toolReceipts.set (run, call.id) (call, result) :=
      congrArg Prod.snd hrows
    rw [heq]
    by_cases hkey : (runId, callId) = (run, call.id)
    · have hreceipt : s'.toolReceipts.get? (runId, callId) = some (call, result) := by
        rw [hreceipts, hkey, Dict.get?_set, if_pos rfl]
      rw [free_settled hreceipt]
      exact Nat.zero_le _
    · refine le_of_eq (free_erase_of_ne hkey (congrArg Prod.fst hrows) ?_)
      rw [hreceipts, Dict.get?_set_of_ne hkey]
  · rw [heq]

theorem free_reconcile {run : String} {call : ToolCall} {evidence : Evidence}
    (hkept : reopens lib runId callId state (wall, .store (.reconcileTool run call evidence)) =
      false) :
    free runId callId ((reconcileTool lib wall run call evidence).left state.storage) ≤
      free runId callId state.storage := by
  rcases left_cases (reconcileTool lib wall run call evidence) state.storage with
    ⟨u, s', h, heq⟩ | ⟨-, heq⟩
  · obtain ⟨-, hclaims, hevidence⟩ := reconcileTool_eq_ok h
    rw [heq]
    cases evidence with
    | result r =>
      obtain ⟨-, hreceipts⟩ := hevidence
      by_cases hkey : (runId, callId) = (run, call.id)
      · have hreceipt : s'.toolReceipts.get? (runId, callId) = some (call, r) := by
          rw [hreceipts, hkey, Dict.get?_set, if_pos rfl]
        rw [free_settled hreceipt]
        exact Nat.zero_le _
      · refine le_of_eq (free_erase_of_ne hkey hclaims ?_)
        rw [hreceipts, Dict.get?_set_of_ne hkey]
    | notExecuted =>
      have hreceipts : s'.toolReceipts = state.storage.toolReceipts := hevidence
      have hkey : (runId, callId) ≠ (run, call.id) := by
        rintro hkey
        cases hkey
        simp [reopens, h, Except.toBool] at hkept
      exact le_of_eq (free_erase_of_ne hkey hclaims (by rw [hreceipts]))
  · rw [heq]

theorem toolRows_of_dispatchRows {α : Type} {m : Tx α} (h : Keeps dispatchRows m) :
    toolRows (m.left s) = toolRows s := by
  have hrows := h.left_eq s
  exact Prod.ext (congrArg (fun rows => rows.2.2.1) hrows) (congrArg (fun rows => rows.2.1) hrows)

theorem toolRows_of_besideLeases (h : besideLeases s' = besideLeases s) :
    toolRows s' = toolRows s := by
  have hrows := congrArg toolRows h
  exact hrows

/-- Apart from a reconciliation, the accesses of the storage leave claims and receipts alone. -/
theorem toolRows_apply {op : StoreOp}
    (hop : ∀ run call evidence, op ≠ .reconcileTool run call evidence) :
    toolRows (op.apply lib wall s) = toolRows s := by
  cases op with
  | create clock intent expires => exact toolRows_of_dispatchRows (keeps_create (fun _ _ => rfl) _ _ _)
  | prepare =>
    exact toolRows_of_dispatchRows (keeps_prepare (fun _ _ => rfl) (fun _ _ => rfl) _ _ _ _ _ _ _)
  | decide =>
    exact toolRows_of_dispatchRows (keeps_decide (fun _ _ => rfl) (fun _ _ _ => rfl) _ _ _ _)
  | refresh clock approvalId => exact toolRows_of_dispatchRows (keeps_refresh (fun _ _ => rfl) _ _)
  | request =>
    exact toolRows_of_dispatchRows ((readOnly_request _ _ _ _ _ _).keeps _)
  | claimLease run owner duration =>
    exact toolRows_of_besideLeases ((LeaseStore.keeps_claim wall run owner duration).left_eq s)
  | renewLease context run owner duration =>
    exact toolRows_of_besideLeases
      ((LeaseStore.keeps_renew context wall run owner duration).left_eq s)
  | releaseLease context run owner =>
    exact toolRows_of_besideLeases ((LeaseStore.keeps_release context run owner).left_eq s)
  | requestCancellation run =>
    exact toolRows_of_besideLeases ((LeaseStore.keeps_requestCancellation wall run).left_eq s)
  | portWrite context guarded update =>
    have hrows := congrArg toolRows ((LeaseStore.keeps_portWrite context wall guarded update).left_eq s)
    exact hrows
  | reconcileTool run call evidence => exact absurd rfl (hop run call evidence)

theorem free_apply {op : StoreOp}
    (hkept : reopens lib runId callId state (wall, .store op) = false) :
    free runId callId (op.apply lib wall state.storage) ≤ free runId callId state.storage := by
  by_cases hop : ∃ run call evidence, op = .reconcileTool run call evidence
  · obtain ⟨run, call, evidence, rfl⟩ := hop
    exact free_reconcile hkept
  · refine le_of_eq (free_of_toolRows (toolRows_apply fun run call evidence heq => ?_))
    exact hop ⟨run, call, evidence, heq⟩

/-- **What is still to come, never grows**: a start uses up an execution that waits, a claim takes
the free place and waits, and only a reconciliation without execution frees the place again. -/
theorem starts_step {event : Int × SystemOp} (hn : n ≤ state.flights.length)
    (hkept : reopens lib runId callId state event = false) :
    starts n runId callId state event + waiting n runId callId (state.step lib event) +
        free runId callId (state.step lib event).storage ≤
      waiting n runId callId state + free runId callId state.storage := by
  obtain ⟨wall, op⟩ := event
  cases op with
  | store op =>
    have hfree := free_apply hkept
    show 0 + waiting n runId callId state + free runId callId (op.apply lib wall state.storage) ≤ _
    omega
  | begin context clock run call =>
    show 0 + waiting n runId callId (state.step lib _) + free runId callId (state.step lib _).storage ≤ _
    unfold SystemState.step
    cases hbegin : executeBegin lib context wall clock run call state.storage with
    | error e => simp only [hbegin]; omega
    | ok p =>
      obtain ⟨begun, storage⟩ := p
      rcases executeBegin_eq_ok hbegin with
        ⟨receipt, -, -, rfl, rfl⟩ | ⟨hreceipt, hclaim, approval, rfl, hrows, -⟩
      · simp only [hbegin]
        show 0 + waiting n runId callId state + free runId callId state.storage ≤ _
        omega
      · simp only [hbegin]
        have hfree : free runId callId storage + _ = _ := free_claimed hclaim hreceipt hrows
        have hwaiting : waiting n runId callId
            ⟨storage, state.flights ++ [⟨context, run, call, approval, .claimed⟩]⟩ =
            waiting n runId callId state + if run = runId ∧ call.id = callId then 1 else 0 := by
          unfold waiting
          rw [List.drop_append_of_le_length hn, List.countP_append]
          by_cases hkey : run = runId ∧ call.id = callId <;> simp [Flight.about, hkey]
        omega
  | start flight =>
    unfold SystemState.step
    cases hflight : state.flightIn flight .claimed with
    | none =>
      simp only [hflight, starts]
      simp
    | some f =>
      simp only [hflight, starts]
      by_cases hcounts : n ≤ flight ∧ f.about runId callId = true
      · have hwaiting := waiting_start hflight hcounts.2 hcounts.1
        have hstorage : (state.setPhase flight .started).storage = state.storage := rfl
        simp only [Option.any_some, hcounts, and_self, if_true, hstorage]
        omega
      · have hwaiting : waiting n runId callId (state.setPhase flight .started) ≤
            waiting n runId callId state := waiting_setPhase_le (by simp)
        have hstorage : (state.setPhase flight .started).storage = state.storage := rfl
        simp only [Option.any_some, hcounts, if_false, hstorage]
        omega
  | complete flight result =>
    show 0 + waiting n runId callId (state.step lib _) + free runId callId (state.step lib _).storage ≤ _
    unfold SystemState.step
    cases hflight : state.flightIn flight .started with
    | none => simp only [hflight]; omega
    | some f =>
      simp only [hflight]
      have hwaiting : waiting n runId callId (state.setPhase flight .ended) ≤
          waiting n runId callId state := waiting_setPhase_le (by simp)
      have hfree : free runId callId ((executeComplete f.context wall f.runId f.call f.approval
          result).left state.storage) ≤ free runId callId state.storage := free_complete
      show 0 + waiting n runId callId (state.setPhase flight .ended) + free runId callId
        ((executeComplete f.context wall f.runId f.call f.approval result).left state.storage) ≤ _
      omega
  | crash flight =>
    have hwaiting : waiting n runId callId (state.setPhase flight .ended) ≤
        waiting n runId callId state := waiting_setPhase_le (by simp)
    show 0 + waiting n runId callId (state.setPhase flight .ended) +
      free runId callId state.storage ≤ _
    omega

end

/-! ## Executions and where they come from -/

section

variable {lib : PythonLibrary} {state : SystemState} {k : Nat} {f f' : Flight}

/-- What comes after an execution is the same execution in a later phase. -/
def Flight.continues (f f' : Flight) : Prop := f' = { f with phase := f'.phase }

theorem get?_setPhase {flight : Nat} {phase : FlightPhase}
    (h : (state.setPhase flight phase).flights[k]? = some f') :
    ∃ f, state.flights[k]? = some f ∧ f.continues f' := by
  unfold SystemState.setPhase at h
  rw [List.getElem?_modify] at h
  obtain ⟨f, hf, rfl⟩ := Option.map_eq_some_iff.1 h
  refine ⟨f, hf, ?_⟩
  unfold Flight.continues
  split <;> rfl

/-- The event is the first transaction of this execution, and it committed. -/
def Begins (lib : PythonLibrary) (state : SystemState) (f : Flight) : Int × SystemOp → Prop
  | (wall, .begin context clock runId call) =>
    f.context = context ∧ f.runId = runId ∧ f.call = call ∧
      ∃ storage, executeBegin lib context wall clock runId call state.storage =
        .ok (.started f.approval, storage)
  | _ => False

/-- An execution was there, or it begins with the event. -/
theorem flights_step {event : Int × SystemOp}
    (h : (state.step lib event).flights[k]? = some f') :
    (∃ f, state.flights[k]? = some f ∧ f.continues f') ∨ Begins lib state f' event := by
  obtain ⟨wall, op⟩ := event
  have hsame : state.flights[k]? = some f' → ∃ f, state.flights[k]? = some f ∧ f.continues f' :=
    fun hget => ⟨f', hget, rfl⟩
  unfold SystemState.step at h
  cases op with
  | store op => exact Or.inl (hsame h)
  | begin context clock run call =>
    cases hbegin : executeBegin lib context wall clock run call state.storage with
    | error e =>
      simp only [hbegin] at h
      exact Or.inl (hsame h)
    | ok p =>
      obtain ⟨begun, storage⟩ := p
      cases begun with
      | replay result =>
        simp only [hbegin] at h
        exact Or.inl (hsame h)
      | started approval =>
        simp only [hbegin] at h
        rw [List.getElem?_append] at h
        split at h
        · exact Or.inl (hsame h)
        · have hmem := List.mem_of_getElem? h
          obtain rfl := List.mem_singleton.1 hmem
          exact Or.inr ⟨rfl, rfl, rfl, storage, hbegin⟩
  | start flight =>
    cases hflight : state.flightIn flight .claimed with
    | none =>
      simp only [hflight] at h
      exact Or.inl (hsame h)
    | some g =>
      simp only [hflight] at h
      exact Or.inl (get?_setPhase h)
  | complete flight result =>
    cases hflight : state.flightIn flight .started with
    | none =>
      simp only [hflight] at h
      exact Or.inl (hsame h)
    | some g =>
      simp only [hflight] at h
      exact Or.inl (get?_setPhase h)
  | crash flight => exact Or.inl (get?_setPhase h)

/-- Every execution began at some point of the run. -/
theorem begins_exec {start : SystemState} (hstart : start.flights = [])
    {run : List (Int × SystemOp)}
    (h : (exec (SystemState.step lib) start run).flights[k]? = some f) :
    ∃ before event after, run = before ++ event :: after ∧
      Begins lib (exec (SystemState.step lib) start before) f event := by
  -- the last event either began the execution or found it
  induction run using List.reverseRecOn generalizing f with
  | nil => simp [hstart] at h
  | append_singleton run event ih =>
    rw [exec_append] at h
    rcases flights_step h with ⟨g, hg, hsame⟩ | hbegins
    · obtain ⟨before, earlier, after, hrun, hbegins⟩ := ih hg
      refine ⟨before, earlier, after ++ [event], by rw [hrun]; simp, ?_⟩
      unfold Flight.continues at hsame
      rw [hsame]
      exact hbegins
    · exact ⟨run, event, [], rfl, hbegins⟩

theorem flights_length_step (event : Int × SystemOp) :
    state.flights.length ≤ (state.step lib event).flights.length := by
  obtain ⟨wall, op⟩ := event
  unfold SystemState.step
  cases op with
  | store op => exact le_rfl
  | begin context clock run call =>
    cases hbegin : executeBegin lib context wall clock run call state.storage with
    | error e => simp only [hbegin]; exact le_rfl
    | ok p =>
      obtain ⟨begun, storage⟩ := p
      cases begun <;> simp [hbegin]
  | start flight =>
    cases hflight : state.flightIn flight .claimed <;> simp [hflight, SystemState.setPhase]
  | complete flight result =>
    cases hflight : state.flightIn flight .started <;> simp [hflight, SystemState.setPhase]
  | crash flight => simp [SystemState.setPhase]

/-- **The starts to come** are bounded by what waits and what is free. -/
theorem startsIn_le {n : Nat} {runId callId : String} {run : List (Int × SystemOp)}
    (hn : n ≤ state.flights.length)
    (hrun : Along (SystemState.step lib) (fun s e => reopens lib runId callId s e = false) state
      run) :
    startsIn lib n runId callId state run ≤
      waiting n runId callId state + free runId callId state.storage := by
  induction run generalizing state with
  | nil => exact Nat.zero_le _
  | cons event run ih =>
    have hstep : starts n runId callId state event +
        waiting n runId callId (state.step lib event) +
          free runId callId (state.step lib event).storage ≤
        waiting n runId callId state + free runId callId state.storage :=
      starts_step hn hrun.1
    have hrest := ih (hn.trans (flights_length_step event)) hrun.2
    rw [startsIn]
    omega

/-! ## Receipts -/

/-- A stored receipt is never replaced. -/
theorem receipt_step {key : String × String} {receipt : ToolCall × ToolHandlerResult}
    (event : Int × SystemOp) (h : state.storage.toolReceipts.get? key = some receipt) :
    (state.step lib event).storage.toolReceipts.get? key = some receipt := by
  have hset : ∀ {s : SqliteState} {key' : String × String} {new : ToolCall × ToolHandlerResult},
      (∀ old, state.storage.toolReceipts.get? key' = some old → old = new) →
      s.toolReceipts = state.storage.toolReceipts.set key' new →
      s.toolReceipts.get? key = some receipt := by
    intro s key' new hprevious hwritten
    rw [hwritten, Dict.get?_set]
    split
    · rename_i hkey
      rw [hprevious receipt (hkey ▸ h)]
    · exact h
  have hkept : ∀ {s : SqliteState}, toolRows s = toolRows state.storage →
      s.toolReceipts.get? key = some receipt := by
    intro s hrows
    have hreceipts : s.toolReceipts = state.storage.toolReceipts := congrArg Prod.snd hrows
    rw [hreceipts, h]
  obtain ⟨wall, op⟩ := event
  unfold SystemState.step
  cases op with
  | store op =>
    by_cases hop : ∃ run call evidence, op = .reconcileTool run call evidence
    · obtain ⟨run, call, evidence, rfl⟩ := hop
      show ((reconcileTool lib wall run call evidence).left state.storage).toolReceipts.get? key = _
      rcases left_cases (reconcileTool lib wall run call evidence) state.storage with
        ⟨u, s', hm, heq⟩ | ⟨-, heq⟩
      · obtain ⟨-, -, hevidence⟩ := reconcileTool_eq_ok hm
        rw [heq]
        cases evidence with
        | result r => exact hset hevidence.1 hevidence.2
        | notExecuted =>
          have hreceipts : s'.toolReceipts = state.storage.toolReceipts := hevidence
          rw [hreceipts, h]
      · rw [heq, h]
    · exact hkept (toolRows_apply fun run call evidence heq => hop ⟨run, call, evidence, heq⟩)
  | begin context clock run call =>
    cases hbegin : executeBegin lib context wall clock run call state.storage with
    | error e =>
      simp only [hbegin]
      exact h
    | ok p =>
      obtain ⟨begun, storage⟩ := p
      rcases executeBegin_eq_ok hbegin with
        ⟨_, -, -, rfl, rfl⟩ | ⟨-, -, approval, rfl, hrows, -⟩
      · simp only [hbegin]
        exact h
      · have hreceipts : storage.toolReceipts = state.storage.toolReceipts :=
          congrArg Prod.snd hrows
        simp only [hbegin]
        rw [hreceipts, h]
  | start flight =>
    cases hflight : state.flightIn flight .claimed <;> simp only [hflight] <;> exact h
  | complete flight result =>
    cases hflight : state.flightIn flight .started with
    | none =>
      simp only [hflight]
      exact h
    | some g =>
      simp only [hflight]
      rcases left_cases (executeComplete g.context wall g.runId g.call g.approval result)
        state.storage with ⟨u, s', hm, heq⟩ | ⟨-, heq⟩
      · obtain ⟨-, hprevious, hrows, -⟩ := executeComplete_eq_ok hm
        rw [heq]
        exact hset hprevious (congrArg Prod.snd hrows)
      · rw [heq, h]
  | crash flight => exact h

theorem receipt_exec {key : String × String} {receipt : ToolCall × ToolHandlerResult}
    (run : List (Int × SystemOp)) (h : state.storage.toolReceipts.get? key = some receipt) :
    (exec (SystemState.step lib) state run).storage.toolReceipts.get? key = some receipt :=
  exec_induction_of_all
    (I := fun state : SystemState => state.storage.toolReceipts.get? key = some receipt)
    (fun _ event h => receipt_step event h) run h

/-- Without the lease of its attempt, the completion of an approved execution stores nothing. -/
theorem complete_superseded {wall : Int} {owner claimant : String} {attempt : Nat}
    (hf : state.flights[k]? = some f) (happroval : f.approval.isSome = true)
    (howner : f.context.executionOwner = some owner)
    (hclaim : f.context.executionClaim = some (f.runId, claimant, attempt))
    (hover : Over (LeaseStore.current state.storage f.runId) owner attempt wall)
    (result : ToolHandlerResult) :
    (state.step lib (wall, .complete k result)).storage = state.storage := by
  unfold SystemState.step
  cases hflight : state.flightIn k .started with
  | none => simp only [hflight]
  | some g =>
    simp only [hflight]
    obtain ⟨hg, -⟩ := flightIn_eq_some.1 hflight
    rw [hf] at hg
    obtain rfl := Option.some.inj hg
    rcases left_cases (executeComplete f.context wall f.runId f.call f.approval result)
      state.storage with ⟨u, s', hm, -⟩ | ⟨-, heq⟩
    · obtain ⟨-, -, -, hguard⟩ := executeComplete_eq_ok hm
      obtain ⟨owner', attempt', hrequired⟩ := hguard happroval
      obtain ⟨⟨howner', claimant', hclaim'⟩, hheld, hattempt, -⟩ := requireOwner_eq_ok hrequired
      rw [howner] at howner'
      cases howner'
      rw [hclaim] at hclaim'
      cases hclaim'
      rcases hover.2 with hlater | ⟨-, hidle⟩
      · omega
      · exact absurd hheld hidle
    · exact heq

end

/-! ## Approved dispatch -/

/-- The call has its approval record whenever it is begun. -/
def Governed (runId callId : String) (state : SystemState) : Int × SystemOp → Prop
  | (_, .begin _ _ run call) =>
    run = runId → call.id = callId → (approvalOf state.storage runId callId).isSome = true
  | _ => True

/-- An execution of a governed call was let through by a claim that checked everything. -/
theorem dispatchable_of_flight {lib : PythonLibrary} {version : Nat} {rows : RunRows}
    {run : List (Int × SystemOp)} {runId callId : String}
    (hgoverned : Along (SystemState.step lib) (Governed runId callId)
      (SystemState.initial version rows) run) {k : Nat} {f : Flight}
    (hf : (exec (SystemState.step lib) (.initial version rows) run).flights[k]? = some f)
    (habout : f.about runId callId = true) :
    ∃ before wall clock after approval storage record stored root owner attempt,
      run = before ++ (wall, .begin f.context clock runId f.call) :: after ∧
      f.approval = some approval ∧
      executeBegin lib f.context wall clock runId f.call
        (exec (SystemState.step lib) (.initial version rows) before).storage =
          .ok (.started (some approval), storage) ∧
      Dispatchable lib (exec (SystemState.step lib) (.initial version rows) before).storage
        f.context wall clock runId f.call record stored root owner attempt := by
  obtain ⟨before, event, after, hrun, hbegins⟩ := begins_exec rfl hf
  obtain ⟨wall, op⟩ := event
  unfold Flight.about at habout
  simp only [Bool.and_eq_true, decide_eq_true_eq] at habout
  obtain ⟨hrunId, hcallId⟩ := habout
  cases op with
  | store op => cases hbegins
  | start flight => cases hbegins
  | complete flight result => cases hbegins
  | crash flight => cases hbegins
  | begin _ clock =>
    obtain ⟨rfl, hrun', rfl, storage, hcommitted⟩ := hbegins
    rw [hrunId] at hrun'
    subst hrun'
    rw [hrun] at hgoverned
    obtain ⟨-, hevent, -⟩ := along_append.1 hgoverned
    have hrecord := hevent rfl hcallId
    rw [← hcallId] at hrecord
    rcases executeBegin_eq_ok hcommitted with ⟨_, -, -, hreplay, -⟩ | ⟨-, -, approval, hbegun, -, h⟩
    · cases hreplay
    · cases hbegun
      obtain ⟨hsome, record, stored, root, owner, attempt, hdispatch⟩ :=
        h (table_exec (table_initial version rows) before) hrecord
      obtain ⟨entry, hentry⟩ := Option.isSome_iff_exists.1 hsome
      rw [hentry] at hcommitted
      exact ⟨before, wall, clock, after, entry, storage, record, stored, root, owner, attempt, hrun,
        hentry, hcommitted, hdispatch⟩

theorem free_le_one (runId callId : String) (s : SqliteState) : free runId callId s ≤ 1 := by
  unfold free
  split <;> omega

/-- **Approved dispatch.**  In every run of the system in which a call has its approval record
whenever it is begun, at every point of the run:

* as long as no non-execution is reconciled, the executions that begin from here on start the
  operation at most once in all, and together with those that have claimed before and not started
  there is at most one start more than there are of the latter;
* an execution that starts was let through by a committed claim that found everything in order;
* the completion of an execution whose attempt is over leaves the storage as it is;
* a receipt stays as it is, and a call that begins after it replays it or raises. -/
theorem approved_dispatch {lib : PythonLibrary} {version : Nat} {rows : RunRows}
    {run : List (Int × SystemOp)} {runId callId : String}
    (hgoverned : Along (SystemState.step lib) (Governed runId callId)
      (SystemState.initial version rows) run) :
    let state := exec (SystemState.step lib) (.initial version rows) run
    (∀ after, Along (SystemState.step lib) (fun s e => reopens lib runId callId s e = false) state
        after →
      startsIn lib state.flights.length runId callId state after ≤ 1 ∧
        startsIn lib 0 runId callId state after ≤ waiting 0 runId callId state + 1) ∧
      (∀ time flight, starts 0 runId callId state (time, .start flight) = 1 → ∃ f,
        state.flights[flight]? = some f ∧ f.about runId callId = true ∧
        ∃ before wall clock after approval storage record stored root owner attempt,
          run = before ++ (wall, .begin f.context clock runId f.call) :: after ∧
          f.approval = some approval ∧
          executeBegin lib f.context wall clock runId f.call
            (exec (SystemState.step lib) (.initial version rows) before).storage =
              .ok (.started (some approval), storage) ∧
          Dispatchable lib (exec (SystemState.step lib) (.initial version rows) before).storage
            f.context wall clock runId f.call record stored root owner attempt) ∧
      (∀ wall flight f result owner claimant attempt, state.flights[flight]? = some f →
        f.about runId callId = true → f.context.executionOwner = some owner →
        f.context.executionClaim = some (runId, claimant, attempt) →
        Over (LeaseStore.current state.storage runId) owner attempt wall →
        (state.step lib (wall, .complete flight result)).storage = state.storage) ∧
      (∀ receipt, state.storage.toolReceipts.get? (runId, callId) = some receipt → ∀ after,
        let later := exec (SystemState.step lib) state after
        later.storage.toolReceipts.get? (runId, callId) = some receipt ∧
          ∀ context wall clock call begun storage, call.id = callId →
            executeBegin lib context wall clock runId call later.storage = .ok (begun, storage) →
            call = receipt.1 ∧ begun = .replay { receipt.2 with fromCache := true } ∧
              storage = later.storage) := by
  intro state
  refine ⟨fun after hafter => ?_, fun time flight hstart => ?_, ?_, fun receipt hreceipt after => ?_⟩
  · have hnew := startsIn_le le_rfl hafter
    have hall := startsIn_le (Nat.zero_le _) hafter
    have hfree := free_le_one runId callId state.storage
    have hnone : waiting state.flights.length runId callId state = 0 := by
      simp [waiting]
    omega
  · have hcounts : (state.flightIn flight .claimed).any (·.about runId callId) = true := by
      by_contra hno
      simp [starts, hno] at hstart
    obtain ⟨f, hf, habout⟩ := (Option.any_eq_true _ _).1 hcounts
    have hget := (flightIn_eq_some.1 hf).1
    exact ⟨f, hget, habout, dispatchable_of_flight hgoverned hget habout⟩
  · intro wall flight f result owner claimant attempt hf habout howner hclaim hover
    obtain ⟨_, _, _, _, approval, _, _, _, _, _, _, -, happroval, -⟩ :=
      dispatchable_of_flight hgoverned hf habout
    have hrunId : f.runId = runId := by
      simp only [Flight.about, Bool.and_eq_true, decide_eq_true_eq] at habout
      exact habout.1
    rw [← hrunId] at hclaim hover
    exact complete_superseded hf (by rw [happroval]; rfl) howner hclaim hover result
  · intro later
    have hkept : later.storage.toolReceipts.get? (runId, callId) = some receipt :=
      receipt_exec after hreceipt
    refine ⟨hkept, fun context wall clock call begun storage hcall hbegin => ?_⟩
    rw [← hcall] at hkept
    rcases executeBegin_eq_ok hbegin with ⟨found, hfound, hsame, hbegun, hs'⟩ | ⟨hnone, -⟩
    · rw [hkept] at hfound
      obtain rfl := Option.some.inj hfound
      exact ⟨hsame.symm, hbegun, hs'⟩
    · rw [hkept] at hnone
      cases hnone

/-! ### An execution that waits through a reconciliation -/

/-- The digest of the empty mapping. -/
def emptyDigest : String := "a9d5b22e12528d9116b6d33dc919ba3aa5302097976dd3caa6f0874e6ce3227b"

/-- An intent to call `write` without arguments. -/
def noteIntent : ApprovalIntent where
  runId := "r"
  rootRunId := "r"
  toolCallId := "c"
  toolName := "write"
  arguments := []
  presetFingerprint := emptyDigest
  bindingId := "b"
  bindingRevision := "1"
  scopeId := "s"
  scopeRevision := "1"
  effect := .write
  texts := by decide +kernel
  validated := by rfl
  bounded := by decide +kernel

/-- The identifier of its record. -/
def noteId : String := "e55787057c5c2b5ea157fe02a10829fc859f91a814b3aa405274c681bf602aba"

/-- The digest of the intent. -/
def noteDigest : String := "cb90c349777a076e6ff4a480b83ebcd50cd3b39ed104645f30754bf8fe098a67"

/-- SHA-256 on the three texts that are hashed below.  How many fields the hashed mapping has tells
them apart: none, the three of the key, the two of the intent. -/
def noteSha256 (text : String) : String :=
  match text.toByteArray.data.toList.drop 24 with
  | 48 :: _ => emptyDigest
  | 51 :: _ => noteId
  | 50 :: _ => noteDigest
  | _ => ""

/-- Python's library on the texts of these runs. -/
def noteLibrary : PythonLibrary where
  sha256 := noteSha256
  jsonLoads text := if text = "{}" then .ok (.obj []) else .error (.valueError "JSON")

/-- The call. -/
def noteCall : ToolCall := ⟨"c", "write", "{}"⟩

/-- The checkpoint that waits for the call. -/
def noteCheckpoint : ExecutionCheckpoint := ⟨"r", 1, [], [], some ⟨noteCall, "i", "m"⟩⟩

/-- A running Run with one settled model invocation, which asked for the call. -/
def noteRows : RunRows where
  runs := .set .empty "r" { freshRun "r" with
    modelAttemptIds := ["m"]
    modelUsageByInvocation := ["m"] }
  streams := .set .empty "st" ⟨"r", true, true⟩
  streamByInvocation := .set .empty "i" "st"

/-- The approval of the intent, as a command. -/
def noteCommand : ApprovalDecisionCommand where
  approvalId := noteId
  expectedRevision := 1
  intentDigest := noteDigest
  commandKey := "k"
  decision := .approve
  texts := by decide +kernel
  integers := by decide +kernel

/-- `w` prepares the call and the host approves it; `w` comes back, claims the call and stalls; its
lease lapses and the host reconciles the call as not executed. -/
def stalledRun : List (Int × SystemOp) :=
  [(0, .store (.claimLease "r" "w" 10)),
    (1, .store (.prepare (.bound "r" "w" 1) 1 1 noteCheckpoint noteIntent 1000)),
    (2, .store (.releaseLease (.bound "r" "w" 1) "r" "w")),
    (3, .store (.decide 3 noteCommand "p" (some true))),
    (4, .store (.claimLease "r" "w" 10)),
    (5, .begin (.bound "r" "w" 2) 5 "r" noteCall)]

/-- The host's word that the call was not executed. -/
def notExecutedEvent : Int × SystemOp := (20, .store (.reconcileTool "r" noteCall .notExecuted))

/-- `v` takes over and executes the call; then `w` goes on. -/
def resumedRun : List (Int × SystemOp) :=
  [(21, .store (.claimLease "r" "v" 10)), (22, .begin (.bound "r" "v" 3) 22 "r" noteCall),
    (23, .start 1), (24, .start 0)]

instance (runId callId : String) (state : SystemState) (event : Int × SystemOp) :
    Decidable (Governed runId callId state event) :=
  match event with
  | (_, .begin _ _ run call) => inferInstanceAs (Decidable (run = runId → call.id = callId →
      (approvalOf state.storage runId callId).isSome = true))
  | (_, .store _) => isTrue trivial
  | (_, .start _) => isTrue trivial
  | (_, .complete _ _) => isTrue trivial
  | (_, .crash _) => isTrue trivial

/-- The state the host leaves. -/
def stalledState : SystemState :=
  exec (SystemState.step noteLibrary) (.initial 5 noteRows) (stalledRun ++ [notExecutedEvent])

theorem stalledRun_facts :
    Along (SystemState.step noteLibrary) (Governed "r" "c") (SystemState.initial 5 noteRows)
        (stalledRun ++ [notExecutedEvent]) ∧
      reopens noteLibrary "r" "c"
        (exec (SystemState.step noteLibrary) (.initial 5 noteRows) stalledRun) notExecutedEvent =
          true ∧
      Along (SystemState.step noteLibrary) (Governed "r" "c") stalledState resumedRun ∧
      Along (SystemState.step noteLibrary) (fun s e => reopens noteLibrary "r" "c" s e = false)
        stalledState resumedRun ∧
      startsIn noteLibrary 0 "r" "c" stalledState resumedRun = 2 := by
  decide +kernel

theorem approved_dispatch_stalledRun :
    startsIn noteLibrary stalledState.flights.length "r" "c" stalledState resumedRun ≤ 1 := by
  obtain ⟨hgoverned, -, -, hafter, -⟩ := stalledRun_facts
  exact ((approved_dispatch hgoverned).1 resumedRun hafter).1

/-- Both executions start the operation after the reconciliation. -/
theorem starts_twice_after_reconciliation :
    ¬ ∀ (lib : PythonLibrary) (version : Nat) (rows : RunRows)
        (before after : List (Int × SystemOp)) (event : Int × SystemOp) (runId callId : String),
      Along (SystemState.step lib) (Governed runId callId) (SystemState.initial version rows)
        (before ++ [event] ++ after) →
      reopens lib runId callId (exec (SystemState.step lib) (.initial version rows) before) event =
        true →
      Along (SystemState.step lib) (fun s e => reopens lib runId callId s e = false)
        (exec (SystemState.step lib) (.initial version rows) (before ++ [event])) after →
      startsIn lib 0 runId callId
        (exec (SystemState.step lib) (.initial version rows) (before ++ [event])) after ≤ 1 := by
  intro h
  obtain ⟨hgoverned, hreopens, hresumed, hafter, htwice⟩ := stalledRun_facts
  have hbound : startsIn noteLibrary 0 "r" "c" stalledState resumedRun ≤ 1 :=
    h noteLibrary 5 noteRows stalledRun resumedRun notExecutedEvent "r" "c"
      (along_append.2 ⟨hgoverned, hresumed⟩) hreopens hafter
  rw [htwice] at hbound
  exact absurd hbound (by decide)

end Purra
