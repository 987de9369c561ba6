import Purra.Approvals.Invalidation
import Purra.Lib.Sequence

/-!
# Inspecting an approval

`inspect_approval_state` of `purra_sqlite/approvals.py` reads the record of the checkpointed call
without refreshing it, and works out by itself what a refresh would find.

* `inspectApprovalState` — the observation.
* `Foreseen` — the Run's own row tells what a refresh would find.
* `inspection_predicts_refresh` — the observed state is the refreshed one exactly then.
* `requested_cancellation_not_inspected` — a requested cancellation is not seen.
-/

namespace Purra

open Transaction StorageSession SqliteApprovalStore

/-- The `approvalState` of an observation. -/
inductive InspectedState where
  | unknown | none | missing
  | status (status : ApprovalStatus)
  deriving DecidableEq, Repr

/-- The `approvalCheckpointIntent` of an observation. -/
inductive CheckpointIntent where
  | unknown | matched | mismatch
  deriving DecidableEq, Repr

/-- The `approvalReceipt` of an observation. -/
inductive InspectedReceipt where
  | unknown | absent | complete
  deriving DecidableEq, Repr

/-- What `inspect_approval_state` returns. -/
structure ApprovalObservation where
  approvalState : InspectedState
  approvalRecords : Nat
  approvalUnknownReceipts : Nat
  approvalCheckpointIntent : CheckpointIntent
  approvalReceipt : InspectedReceipt
  deriving DecidableEq, Repr

namespace SqliteApprovalStore

variable (lib : PythonLibrary)

/-- The records of the rows. -/
def decodeAll : List (String × ApprovalRow) → Tx (List (ApprovalRecord lib.sha256))
  | [] => pure []
  | (approvalId, row) :: rows => do
    let record ← decode lib approvalId row
    let records ← decodeAll rows
    pure (record :: records)

/-- The record is about the checkpointed call and the saved preset. -/
def matchesCheckpoint (saved : StoredRun) (call : ToolCall) (intent : ApprovalIntent) :
    Except PyError Bool :=
  if intent.toolName ≠ call.name then .ok false
  else do
    let intended ← jsonIdentityDigest lib.sha256 (.obj intent.arguments)
    let called ← lib.jsonLoads call.argumentsJson
    let calledDigest ← jsonIdentityDigest lib.sha256 called
    if intended ≠ calledDigest then .ok false
    else do
      let preset ← jsonIdentityDigest lib.sha256 (.obj saved.agentPresetSnapshot)
      .ok (intent.presetFingerprint = preset)

/-- The status an open record is observed with. -/
def inspectedStatus (saved : StoredRun) (record : ApprovalRecord lib.sha256) (now : Int) :
    ApprovalStatus :=
  if record.status.openToRefresh then
    if saved.status ≠ .running then .canceled
    else if effectiveExpiry record.expiresAtMs saved.deadlineAtMs ≤ now then .expired
    else record.status
  else record.status

/-- The receipt is only looked for under a record that matches. -/
def matchedReceipt (record : ApprovalRecord lib.sha256) (call : ToolCall) (isMatched : Bool) :
    Tx Bool :=
  if isMatched then completedReceipt lib record call else pure false

/-- The observation about the checkpointed call. -/
def inspectCall (saved : StoredRun) (now : Int) (call : ToolCall)
    (observation : ApprovalObservation) :
    Option (ApprovalRecord lib.sha256) → Tx ApprovalObservation
  | none => pure { observation with approvalState := .missing, approvalReceipt := .absent }
  | some record => do
    let isMatched ← ofExcept (matchesCheckpoint lib saved call record.intent)
    let complete ← matchedReceipt lib record call isMatched
    pure { observation with
      approvalState := .status (inspectedStatus lib saved record now)
      approvalCheckpointIntent := if isMatched then .matched else .mismatch
      approvalReceipt := if complete then .complete else .absent }

/-- The observation as far as a checkpoint has a call. -/
def inspectPending (saved : StoredRun) (now : Int) (records : List (ApprovalRecord lib.sha256))
    (observation : ApprovalObservation) : Option PendingTool → Tx ApprovalObservation
  | none => pure observation
  | some pending => inspectCall lib saved now pending.call observation
      (records.find? fun record => record.intent.toolCallId = pending.call.id)

/-- `inspect_approval_state`, of the Run that is saved under `runId`. -/
def inspectApprovalState (runId : String) (saved : StoredRun) (now : Int) :
    Tx (Option ApprovalObservation) := do
  let state ← read
  if state.version ≠ 5 then pure none
  else do
    let records ← decodeAll lib (state.approvals.entries.filter fun p => p.2.runId = runId)
    let observation : ApprovalObservation := {
      approvalState := if records.isEmpty then .none else .unknown
      approvalRecords := records.length
      approvalUnknownReceipts := records.countP fun record =>
        (runId, record.intent.toolCallId) ∈ state.claims.keys
      approvalCheckpointIntent := .unknown
      approvalReceipt := .unknown }
    some <$> inspectPending lib saved now records observation
      (saved.executionCheckpoint.bind (·.pending))

end SqliteApprovalStore

section

variable {lib : PythonLibrary} {s s' : SqliteState} {id : String}
  {record : ApprovalRecord lib.sha256} {runId : String} {saved : StoredRun} {now : Int}

/-! ## The inspected record -/

/-- The rows decode to the records they hold. -/
theorem decodeAll_eq_ok {rows : List (String × ApprovalRow)}
    {records : List (ApprovalRecord lib.sha256)}
    (hrows : ∀ p ∈ rows, ∃ record, RowHolds lib p.1 p.2 record)
    (h : decodeAll lib rows s = .ok (records, s')) :
    List.Forall₂ (fun p record => RowHolds lib p.1 p.2 record) rows records ∧ s' = s := by
  induction rows generalizing records s' with
  | nil =>
    obtain ⟨rfl, rfl⟩ := pure_eq_ok.1 h
    exact ⟨.nil, rfl⟩
  | cons p rows ih =>
    obtain ⟨approvalId, row⟩ := p
    obtain ⟨first, s₁, hdecode, h⟩ := Transaction.bind_eq_ok.1 h
    obtain ⟨rest, s₂, hrest, h⟩ := Transaction.bind_eq_ok.1 h
    obtain ⟨found, hfound, hdecode⟩ := ofExcept_bind_eq_ok.1 hdecode
    obtain ⟨-, hdecode⟩ := refuse_eq_ok.1 hdecode
    obtain ⟨rfl, hs₁⟩ := pure_eq_ok.1 hdecode
    rw [hs₁] at hrest
    obtain ⟨hholds, hs₂⟩ := ih (fun p hp => hrows p (List.mem_cons_of_mem _ hp)) hrest
    obtain ⟨rfl, hs'⟩ := pure_eq_ok.1 h
    obtain ⟨held, hheld⟩ := hrows _ List.mem_cons_self
    have hsame : first = held := Except.ok.inj (hfound.symm.trans hheld.fromMapping)
    exact ⟨.cons (hsame ▸ hheld) hholds, hs'.trans hs₂⟩

/-- Among the records of a Run, a call has the one of its identifier. -/
theorem find?_of_stored {rows : List (String × ApprovalRow)}
    {records : List (ApprovalRecord lib.sha256)} {callId : String}
    (hholds : List.Forall₂ (fun p record => RowHolds lib p.1 p.2 record) rows records)
    (hrows : ∀ p ∈ rows, s.approvals.get? p.1 = some p.2 ∧ p.2.runId = runId)
    (hid : identifier lib runId callId = .ok id) (hstored : Stored lib s.approvals id record)
    {found : ApprovalRecord lib.sha256}
    (hfind : records.find? (fun record => record.intent.toolCallId = callId) = some found) :
    found = record ∧ record.intent.runId = runId := by
  have hcall : found.intent.toolCallId = callId := by simpa using List.find?_some hfind
  obtain ⟨p, hp, hfound⟩ := forall₂_mem_right hholds _ (List.mem_of_find?_eq_some hfind)
  obtain ⟨hget, hrun⟩ := hrows p hp
  have hsame : p.1 = id := by
    have hidentifier := hfound.identifier
    rw [hrun, ← hfound.callId, hcall, hid] at hidentifier
    exact (Except.ok.inj hidentifier).symm
  have hsame' : found = record := Stored.unique ⟨p.2, hsame ▸ hget, hsame ▸ hfound⟩ hstored
  exact ⟨hsame', hsame' ▸ hfound.runId.trans hrun⟩

/-- An observed status is that of the checkpointed call's record. -/
theorem inspectApprovalState_status {observation : ApprovalObservation} {pending : PendingTool}
    {status : ApprovalStatus} (htable : Table lib s.approvals)
    (hpending : saved.executionCheckpoint.bind (·.pending) = some pending)
    (hid : identifier lib runId pending.call.id = .ok id)
    (hstored : Stored lib s.approvals id record)
    (h : inspectApprovalState lib runId saved now s = .ok (some observation, s'))
    (hstatus : observation.approvalState = .status status) :
    status = inspectedStatus lib saved record now ∧ record.intent.runId = runId := by
  replace h := read_bind_eq_ok.1 h
  rcases ite_eq_ok.1 h with ⟨-, h⟩ | ⟨-, h⟩
  · cases (pure_eq_ok.1 h).1
  · obtain ⟨records, s₁, hrecords, h⟩ := Transaction.bind_eq_ok.1 h
    have hentries : ∀ p ∈ s.approvals.entries.filter (fun p => p.2.runId = runId),
        s.approvals.get? p.1 = some p.2 ∧ p.2.runId = runId := by
      intro p hp
      obtain ⟨hmem, hrun⟩ := List.mem_filter.1 hp
      exact ⟨Dict.mem_entries_iff.1 hmem, by simpa using hrun⟩
    obtain ⟨hholds, -⟩ := decodeAll_eq_ok (fun p hp => htable _ _ (hentries p hp).1) hrecords
    rw [hpending] at h
    obtain ⟨observed, hobserved, hsome⟩ := Transaction.map_eq_ok.1 h
    cases hsome
    unfold inspectPending at hobserved
    dsimp only at hobserved
    cases hfind : records.find? fun record => record.intent.toolCallId = pending.call.id with
    | none =>
      rw [hfind] at hobserved
      obtain ⟨rfl, -⟩ := pure_eq_ok.1 hobserved
      cases hstatus
    | some found =>
      rw [hfind] at hobserved
      obtain ⟨isMatched, -, hobserved⟩ := ofExcept_bind_eq_ok.1 hobserved
      obtain ⟨complete, s₂, -, hobserved⟩ := Transaction.bind_eq_ok.1 hobserved
      obtain ⟨rfl, -⟩ := pure_eq_ok.1 hobserved
      obtain ⟨rfl, hrun⟩ := find?_of_stored hholds hentries hid hstored hfind
      exact ⟨(InspectedState.status.inj hstatus).symm, hrun⟩

/-! ## Inspection and refresh -/

/-- The Run's own row tells what a refresh of the record would find: the record is closed, or the
Run is over, or nothing else ends it: the root is running, no cancellation is requested, and
the time is only up by the Run's own deadline. -/
def Foreseen (s : SqliteState) (record : ApprovalRecord lib.sha256) (now : Int) : Prop :=
  ∃ run root, s.runs.get? record.intent.runId = some run ∧
    s.runs.get? record.intent.rootRunId = some root ∧
      (record.status.openToRefresh = false ∨ run.status ≠ .running ∨
        ¬ RunOver s record.intent run root ∧
          (TimeUp record.expiresAtMs now run root → TimeUp record.expiresAtMs now run run))

theorem status_of_refresh {clock : Int} {record' : ApprovalRecord lib.sha256}
    (htable : Table lib s.approvals) (hstored : Stored lib s.approvals id record)
    (h : refresh lib clock id s = .ok (record', s')) :
    ∃ run root, s.runs.get? record.intent.runId = some run ∧
      s.runs.get? record.intent.rootRunId = some root ∧
      record'.status = if record.status.openToRefresh then
        (lapsedStatus s record.intent record.expiresAtMs clock run root).getD record.status
        else record.status := by
  obtain ⟨loaded, s₁, hload, h⟩ := Transaction.bind_eq_ok.1 (transaction_eq_ok h)
  obtain ⟨-, hloaded, hs₁⟩ := load_eq_ok htable hload
  obtain rfl := hstored.unique hloaded
  rw [hs₁] at h
  obtain ⟨now', s₂, hnow, h⟩ := Transaction.bind_eq_ok.1 h
  rw [(now_eq_ok hnow).1, (now_eq_ok hnow).2] at h
  obtain ⟨⟨found, fingerprint⟩, s₃, hrefresh, h⟩ := Transaction.bind_eq_ok.1 h
  obtain ⟨rfl, -⟩ := pure_eq_ok.1 h
  exact refreshRecord_status hrefresh

/-- A deadline of the root only shortens the time. -/
theorem timeUp_of_own {expires : Int} {run root : StoredRun} (h : TimeUp expires now run run) :
    TimeUp expires now run root := by
  unfold TimeUp effectiveExpiry earliest at h ⊢
  cases hrun : run.deadlineAtMs <;> cases hroot : root.deadlineAtMs <;>
    simp only [hrun] at h ⊢ <;> omega

theorem timeUp_own_iff {expires : Int} {run : StoredRun} :
    TimeUp expires now run run ↔ effectiveExpiry expires run.deadlineAtMs ≤ now := by
  unfold TimeUp effectiveExpiry earliest
  cases run.deadlineAtMs <;> simp

/-- The status that is observed is the status a refresh finds exactly when it is foreseen. -/
theorem inspectedStatus_eq_iff {run root : StoredRun}
    (hrun : s.runs.get? record.intent.runId = some run)
    (hroot : s.runs.get? record.intent.rootRunId = some root) :
    inspectedStatus lib run record now = (if record.status.openToRefresh then
        (lapsedStatus s record.intent record.expiresAtMs now run root).getD record.status
        else record.status) ↔ Foreseen s record now := by
  have hforeseen : Foreseen s record now ↔
      record.status.openToRefresh = false ∨ run.status ≠ .running ∨
        ¬ RunOver s record.intent run root ∧
          (TimeUp record.expiresAtMs now run root → TimeUp record.expiresAtMs now run run) := by
    constructor
    · rintro ⟨run', root', hrun', hroot', h⟩
      rw [hrun] at hrun'
      rw [hroot] at hroot'
      cases hrun'
      cases hroot'
      exact h
    · exact fun h => ⟨run, root, hrun, hroot, h⟩
  rw [hforeseen]
  unfold inspectedStatus
  cases hopen : record.status.openToRefresh with
  | false => simp
  | true =>
    have hcanceled : record.status ≠ .canceled := by
      intro h
      rw [h] at hopen
      cases hopen
    have hexpired : record.status ≠ .expired := by
      intro h
      rw [h] at hopen
      cases hopen
    simp only [if_true, ← timeUp_own_iff, Bool.true_eq_false, false_or]
    by_cases hrunning : run.status = .running
    · simp only [hrunning, ne_eq, not_true_eq_false, if_false, false_or]
      unfold lapsedStatus
      by_cases hover : RunOver s record.intent run root
      · -- the refresh cancels, and the observation does not know why
        simp only [hover, if_true, Option.getD_some, not_true_eq_false, false_and, iff_false]
        split
        · simp
        · exact hcanceled
      · simp only [hover, if_false, not_false_eq_true, true_and]
        by_cases hup : TimeUp record.expiresAtMs now run root
        · by_cases hown : TimeUp record.expiresAtMs now run run
          · simp [hup, hown]
          · simpa [hup, hown] using hexpired
        · have hown : ¬ TimeUp record.expiresAtMs now run run := fun h => hup (timeUp_of_own h)
          simp [hup, hown]
    · have hover : RunOver s record.intent run root := .inl hrunning
      simp [hrunning, lapsedStatus, hover]

end

/-- **Inspection.**  In every reachable state and at every clock, the status that is observed for
the record of the checkpointed call is the status a refresh persists exactly when the Run's own
row foresees it. -/
theorem inspection_predicts_refresh (lib : PythonLibrary) (version : Nat) (rows : RunRows)
    (events : List (Int × SystemOp)) (runId id : String) (saved : StoredRun)
    (pending : PendingTool) (record record' : ApprovalRecord lib.sha256) (now : Int)
    (observation : ApprovalObservation) (status : ApprovalStatus) (inspected refreshed : SqliteState) :
    let s := (exec (SystemState.step lib) (.initial version rows) events).storage
    saved.executionCheckpoint.bind (·.pending) = some pending →
    s.runs.get? runId = some saved →
    identifier lib runId pending.call.id = .ok id → Stored lib s.approvals id record →
    inspectApprovalState lib runId saved now s = .ok (some observation, inspected) →
    observation.approvalState = .status status →
    refresh lib now id s = .ok (record', refreshed) →
    (status = record'.status ↔ Foreseen s record now) := by
  intro s hpending hsaved hid hstored hinspect hstatus hrefresh
  have htable : Table lib s.approvals := table_exec (table_initial version rows) events
  obtain ⟨hobserved, hrunId⟩ :=
    inspectApprovalState_status htable hpending hid hstored hinspect hstatus
  obtain ⟨run, root, hrun, hroot, hfound⟩ := status_of_refresh htable hstored hrefresh
  have hsame : run = saved := by
    rw [hrunId, hsaved] at hrun
    exact (Option.some.inj hrun).symm
  rw [hobserved, hfound, ← hsame]
  exact inspectedStatus_eq_iff hrun hroot

/-! ### A cancellation that is only requested -/

/-- The Run, its checkpointed call, and the observation of it. -/
def observe (now : Int) : Tx (Option PendingTool × Option ApprovalObservation) := do
  let saved ← getRun "r"
  let observation ← inspectApprovalState noteLibrary "r" saved now
  pure (saved.executionCheckpoint.bind (·.pending), observation)

theorem observe_eq_ok {s : SqliteState} {now : Int} {pending : Option PendingTool}
    {observation : Option ApprovalObservation}
    (h : (observe now s).toOption.map (·.1) = some (pending, observation)) :
    ∃ saved s', s.runs.get? "r" = some saved ∧
      saved.executionCheckpoint.bind (·.pending) = pending ∧
      inspectApprovalState noteLibrary "r" saved now s = .ok (observation, s') := by
  cases hobserve : observe now s with
  | error e =>
    rw [hobserve] at h
    cases h
  | ok p =>
    rw [hobserve] at h
    obtain ⟨_, s₂⟩ := p
    cases h
    obtain ⟨saved, s₁, hsaved, hobserve⟩ := Transaction.bind_eq_ok.1 hobserve
    obtain ⟨hget, hs₁⟩ := getRun_eq_ok hsaved
    rw [hs₁] at hobserve
    obtain ⟨seen, s₃, hinspect, hobserve⟩ := Transaction.bind_eq_ok.1 hobserve
    obtain ⟨heq, -⟩ := pure_eq_ok.1 hobserve
    cases heq
    exact ⟨saved, s₃, hget, rfl, hinspect⟩

theorem refresh_status_eq {s : SqliteState} {now : Int} {status : ApprovalStatus}
    (h : (refresh noteLibrary now noteId s).toOption.map (·.1.status) = some status) :
    ∃ record s', refresh noteLibrary now noteId s = .ok (record, s') ∧ record.status = status := by
  cases hrefresh : refresh noteLibrary now noteId s with
  | error e =>
    rw [hrefresh] at h
    cases h
  | ok p =>
    rw [hrefresh] at h
    exact ⟨p.1, p.2, rfl, Option.some.inj h⟩

/-- `w` prepares the call; then a cancellation may be requested. -/
def preparedRun : List (Int × SystemOp) := stalledRun.take 2

def cancelingRun : List (Int × SystemOp) := preparedRun ++ [(2, .store (.requestCancellation "r"))]

/-- The observation of the waiting call. -/
def waitingObservation : ApprovalObservation := ⟨.status .pending, 1, 0, .matched, .absent⟩

theorem identifier_note : identifier noteLibrary "r" "c" = .ok noteId := by
  decide +kernel

theorem waiting_facts :
    (storedStatus (usedState preparedRun).storage noteId = some (ApprovalStatus.pending).value ∧
      (observe 2 (usedState preparedRun).storage).toOption.map (·.1) =
        some (some ⟨noteCall, "i", "m"⟩, some waitingObservation) ∧
      (refresh noteLibrary 2 noteId (usedState preparedRun).storage).toOption.map (·.1.status) =
        some .pending) ∧
    storedStatus (usedState cancelingRun).storage noteId = some (ApprovalStatus.pending).value ∧
      (observe 2 (usedState cancelingRun).storage).toOption.map (·.1) =
        some (some ⟨noteCall, "i", "m"⟩, some waitingObservation) ∧
      (refresh noteLibrary 2 noteId (usedState cancelingRun).storage).toOption.map (·.1.status) =
        some .canceled := by
  decide +kernel

theorem inspection_predicts_refresh_prepared :
    ∃ record, Stored noteLibrary (usedState preparedRun).storage.approvals noteId record ∧
      Foreseen (usedState preparedRun).storage record 2 := by
  obtain ⟨⟨hload, hobserve, hrefresh⟩, -⟩ := waiting_facts
  obtain ⟨record, hstored, -⟩ := stored_of_status (table_usedState preparedRun) hload
  obtain ⟨saved, inspected, hsaved, hpending, hinspect⟩ := observe_eq_ok hobserve
  obtain ⟨record', refreshed, hrefresh, hstatus⟩ := refresh_status_eq hrefresh
  have h := inspection_predicts_refresh noteLibrary 5 noteRows preparedRun "r" noteId saved
    ⟨noteCall, "i", "m"⟩ record record' 2 waitingObservation .pending inspected refreshed
  dsimp only at h
  rw [← usedState] at h
  exact ⟨_, hstored, (h hpending hsaved identifier_note hstored hinspect rfl hrefresh).1 hstatus.symm⟩

/-- The observation says pending where the refresh cancels. -/
theorem requested_cancellation_not_inspected :
    ¬ ∀ (lib : PythonLibrary) (version : Nat) (rows : RunRows) (events : List (Int × SystemOp))
        (runId id : String) (saved : StoredRun) (pending : PendingTool)
        (record record' : ApprovalRecord lib.sha256) (now : Int)
        (observation : ApprovalObservation) (status : ApprovalStatus)
        (inspected refreshed : SqliteState),
      let s := (exec (SystemState.step lib) (.initial version rows) events).storage
      saved.executionCheckpoint.bind (·.pending) = some pending →
      s.runs.get? runId = some saved →
      identifier lib runId pending.call.id = .ok id → Stored lib s.approvals id record →
      inspectApprovalState lib runId saved now s = .ok (some observation, inspected) →
      observation.approvalState = .status status →
      refresh lib now id s = .ok (record', refreshed) →
      status = record'.status := by
  intro h
  obtain ⟨-, hload, hobserve, hrefresh⟩ := waiting_facts
  obtain ⟨record, hstored, -⟩ := stored_of_status (table_usedState cancelingRun) hload
  obtain ⟨saved, inspected, hsaved, hpending, hinspect⟩ := observe_eq_ok hobserve
  obtain ⟨record', refreshed, hrefresh, hstatus⟩ := refresh_status_eq hrefresh
  replace h := h noteLibrary 5 noteRows cancelingRun "r" noteId saved ⟨noteCall, "i", "m"⟩ record
    record' 2 waitingObservation .pending inspected refreshed
  dsimp only at h
  rw [← usedState] at h
  have hsame := h hpending hsaved identifier_note hstored hinspect rfl hrefresh
  rw [hstatus] at hsame
  cases hsame

end Purra
