import Purra.Approvals.Dispatch

/-!
# What invalidates an approval

`_refresh` closes an open approval when its Run or the root has ended, when a cancellation of
either is requested, or when the time is up.  It looks at nothing else: an approval whose call is
claimed, or has its receipt, is closed like one that was never used.

* `ApprovalLapsed` — what `_refresh` looks for; `refreshRecord_status` says that it closes an open record
  exactly then.
* `Spares` — an event does not refresh a record that has lapsed.
* `used_approval_kept` — as long as no event does, an approved record stays as it is.
* `used_approval_expires` — an approval whose call is claimed, and which then expires.
-/

namespace Purra

open Transaction StorageSession SqliteApprovalStore

section

variable {lib : PythonLibrary} {s s' : SqliteState} {id : String} {row : ApprovalRow}
  {record record' : ApprovalRecord lib.sha256} {clock : Int} {fingerprint : String}

/-! ## Lapsed approvals -/

/-- The Run of an intent or its root is over, or one of them is to be canceled. -/
def RunOver (s : SqliteState) (intent : ApprovalIntent) (run root : StoredRun) : Prop :=
  run.status ≠ .running ∨ root.status ≠ .running ∨
    cancellationRequested s intent.runId = true ∨ cancellationRequested s intent.rootRunId = true

instance (s : SqliteState) (intent : ApprovalIntent) (run root : StoredRun) :
    Decidable (RunOver s intent run root) := inferInstanceAs (Decidable (_ ∨ _))

/-- The time of an approval is up, as the deadlines of its Run and of the root bound it. -/
def TimeUp (expiresAtMs clock : Int) (run root : StoredRun) : Prop :=
  effectiveExpiry expiresAtMs (earliest run.deadlineAtMs root.deadlineAtMs) ≤ clock

instance (expiresAtMs clock : Int) (run root : StoredRun) :
    Decidable (TimeUp expiresAtMs clock run root) := inferInstanceAs (Decidable (_ ≤ _))

/-- What `_refresh` looks for. -/
def ApprovalLapsed (s : SqliteState) (intent : ApprovalIntent) (expiresAtMs clock : Int) : Prop :=
  ∃ run root, s.runs.get? intent.runId = some run ∧ s.runs.get? intent.rootRunId = some root ∧
    (RunOver s intent run root ∨ TimeUp expiresAtMs clock run root)

/-- The status a refresh finds for an open record. -/
def lapsedStatus (s : SqliteState) (intent : ApprovalIntent) (expiresAtMs clock : Int)
    (run root : StoredRun) : Option ApprovalStatus :=
  if RunOver s intent run root then some .canceled
  else if TimeUp expiresAtMs clock run root then some .expired
  else none

variable {intent : ApprovalIntent} {expires : Int}

theorem runState_status {found : RunState} (h : runState lib intent s = .ok (found, s')) :
    ∃ run root, s.runs.get? intent.runId = some run ∧ s.runs.get? intent.rootRunId = some root ∧
      refreshedStatus found expires clock = lapsedStatus s intent expires clock run root := by
  obtain ⟨run, root, hrun, hroot, hcanceled, hdeadline, -⟩ := runState_eq_ok h
  refine ⟨run, root, hrun, hroot, ?_⟩
  unfold refreshedStatus lapsedStatus
  rw [hcanceled, hdeadline]
  have hover : (run.status ≠ .running || root.status ≠ .running ||
      cancellationRequested s intent.runId || cancellationRequested s intent.rootRunId) = true ↔
        RunOver s intent run root := by
    simp [RunOver, or_assoc]
  simp only [hover]
  rfl

/-- A refresh closes an open record that has lapsed, and leaves any other as it is. -/
theorem refreshRecord_status
    (h : refreshRecord lib record clock s = .ok ((record', fingerprint), s')) :
    ∃ run root, s.runs.get? record.intent.runId = some run ∧
      s.runs.get? record.intent.rootRunId = some root ∧
      record'.status = if record.status.openToRefresh then
        (lapsedStatus s record.intent record.expiresAtMs clock run root).getD record.status
        else record.status := by
  obtain ⟨found, s₁, hrun, h⟩ := Transaction.bind_eq_ok.1 h
  obtain ⟨run, root, hget, hroot, hlapsed⟩ :=
    runState_status hrun
  refine ⟨run, root, hget, hroot, ?_⟩
  rw [← hlapsed]
  cases hstatus : refreshedStatus found record.expiresAtMs clock with
  | none =>
    simp only [hstatus] at h
    obtain ⟨heq, -⟩ := pure_eq_ok.1 h
    cases heq
    split <;> rfl
  | some status =>
    simp only [hstatus] at h
    rcases ite_eq_ok.1 h with ⟨hopen, h⟩ | ⟨hclosed, h⟩
    · obtain ⟨closed, hclosed, h⟩ := ofExcept_bind_eq_ok.1 h
      obtain ⟨_, s₂, -, h⟩ := Transaction.bind_eq_ok.1 h
      obtain ⟨heq, -⟩ := pure_eq_ok.1 h
      cases heq
      rw [if_pos hopen]
      exact (ApprovalRecord.new_eq_ok.1 hclosed).2.2.2.1
    · obtain ⟨heq, -⟩ := pure_eq_ok.1 h
      cases heq
      rw [if_neg hclosed]

theorem lapsedStatus_eq_none {run root : StoredRun} :
    lapsedStatus s intent expires clock run root = none ↔
      ¬ RunOver s intent run root ∧ ¬ TimeUp expires clock run root := by
  unfold lapsedStatus
  split_ifs <;> simp_all

theorem approvalLapsed_iff {run root : StoredRun}
    (hrun : s.runs.get? intent.runId = some run) (hroot : s.runs.get? intent.rootRunId = some root) :
    ApprovalLapsed s intent expires clock ↔
      lapsedStatus s intent expires clock run root ≠ none := by
  rw [Ne, lapsedStatus_eq_none, ← not_or, not_not]
  constructor
  · rintro ⟨run', root', hrun', hroot', h⟩
    rw [hrun] at hrun'
    rw [hroot] at hroot'
    cases hrun'
    cases hroot'
    exact h
  · exact fun h => ⟨run, root, hrun, hroot, h⟩

instance (s : SqliteState) (intent : ApprovalIntent) (expires clock : Int) :
    Decidable (ApprovalLapsed s intent expires clock) :=
  match hrun : s.runs.get? intent.runId, hroot : s.runs.get? intent.rootRunId with
  | some run, some root =>
    decidable_of_iff (RunOver s intent run root ∨ TimeUp expires clock run root)
      ⟨fun h => ⟨run, root, hrun, hroot, h⟩, by
        rintro ⟨run', root', hrun', hroot', h⟩
        rw [hrun] at hrun'
        rw [hroot] at hroot'
        cases hrun'
        cases hroot'
        exact h⟩
  | none, _ => isFalse fun ⟨_, _, hrun', _⟩ => by
    rw [hrun] at hrun'
    cases hrun'
  | some _, none => isFalse fun ⟨_, _, _, hroot', _⟩ => by
    rw [hroot] at hroot'
    cases hroot'

/-- An approved record that has not lapsed survives a refresh. -/
theorem refreshRecord_spares (hget : s.approvals.get? id = some row)
    (hrow : RowHolds lib id row record)
    (hlapsed : ¬ ApprovalLapsed s record.intent record.expiresAtMs clock)
    (h : refreshRecord lib record clock s = .ok ((record', fingerprint), s')) :
    record' = record ∧ s' = s := by
  obtain ⟨run, root, hrun, hroot, hstatus⟩ := refreshRecord_status h
  have hnone : lapsedStatus s record.intent record.expiresAtMs clock run root = none :=
    not_not.1 fun hne => hlapsed ((approvalLapsed_iff hrun hroot).2 hne)
  have hsame : record'.status = record.status := by
    rw [hstatus, hnone]
    exact ite_self _
  rcases refreshRecord_eq_ok hget hrow h with hkept | ⟨hmoved, -, -⟩
  · exact hkept
  · have hmoves := hmoved.status
    rw [hsame] at hmoves
    cases hstatus : record.status <;> rw [hstatus] at hmoves <;> cases hmoves

/-! ## What the methods do to an approved record -/

theorem Stored.of_get? {rows rows' : Dict String ApprovalRow} (hstored : Stored lib rows id record)
    (h : rows'.get? id = rows.get? id) : Stored lib rows' id record := by
  obtain ⟨row, hget, hrow⟩ := hstored
  exact ⟨row, h.trans hget, hrow⟩

theorem approved_refresh {refreshed : String} (htable : Table lib s.approvals)
    (hstored : Stored lib s.approvals id record)
    (hspares : refreshed = id → ¬ ApprovalLapsed s record.intent record.expiresAtMs clock)
    (h : refresh lib clock refreshed s = .ok (record', s')) :
    Stored lib s'.approvals id record := by
  obtain ⟨loaded, s₁, hload, h⟩ := Transaction.bind_eq_ok.1 (transaction_eq_ok h)
  obtain ⟨-, ⟨row, hget, hrow⟩, hs₁⟩ := load_eq_ok htable hload
  rw [hs₁] at h
  obtain ⟨now', s₂, hnow, h⟩ := Transaction.bind_eq_ok.1 h
  rw [(now_eq_ok hnow).1, (now_eq_ok hnow).2] at h
  obtain ⟨⟨found, fingerprint⟩, s₃, hrefresh, h⟩ := Transaction.bind_eq_ok.1 h
  rw [(pure_eq_ok.1 h).2]
  by_cases hid : refreshed = id
  · subst hid
    obtain rfl := hstored.unique ⟨row, hget, hrow⟩
    rw [(refreshRecord_spares hget hrow (hspares rfl) hrefresh).2]
    exact hstored
  · rcases refreshRecord_eq_ok hget hrow hrefresh with ⟨-, rfl⟩ | ⟨-, -, row', -, rfl⟩
    · exact hstored
    · exact hstored.of_get? (by rw [get?_withRow, if_neg (Ne.symm hid)])

theorem approved_decide {command : ApprovalDecisionCommand} {principalId : String}
    {allowed : Option Bool} {reply : Except PyError ApprovalReceipt}
    (htable : Table lib s.approvals) (hstored : Stored lib s.approvals id record)
    (happroved : record.status = .approved)
    (h : decide lib clock command principalId allowed s = .ok (reply, s')) :
    Stored lib s'.approvals id record := by
  obtain ⟨-, -, -, found, hfound, houtcome⟩ := decide_eq_ok htable h
  rcases houtcome with ⟨-, -, -, -, -, rfl⟩ | ⟨-, -, hpending, houtcome⟩
  · exact hstored
  · -- only a pending record is decided, so it is another one
    have hid : id ≠ found.approvalId := by
      rintro rfl
      obtain ⟨row, hget, hrow⟩ := hfound
      rw [← hrow.approvalId] at hget hrow
      rw [hstored.unique ⟨row, hget, hrow⟩, hpending] at happroved
      cases happroved
    have hset : ∀ {row' : ApprovalRow},
        s'.approvals = s.approvals.set found.approvalId row' → Stored lib s'.approvals id record := by
      intro row' hwritten
      exact hstored.of_get? (by rw [hwritten, Dict.get?_set_of_ne hid])
    cases houtcome with
    | refused e kept => exact kept ▸ hstored
    | closed _ _ _ _ _ written => exact hset written
    | accepted _ _ _ _ _ written => exact hset written

theorem approved_create (htable : Table lib s.approvals)
    (hstored : Stored lib s.approvals id record)
    (h : create lib clock intent expires s = .ok (record', s')) :
    Stored lib s'.approvals id record := by
  obtain ⟨_, -, h⟩ := ofExcept_bind_eq_ok.1 h
  obtain ⟨created, hidentifier, h⟩ := ofExcept_bind_eq_ok.1 h
  rcases createRecord_eq_ok htable hidentifier (transaction_eq_ok h) with
    ⟨-, rfl⟩ | ⟨hmissing, -, row, -, rfl⟩
  · exact hstored
  · have hid : id ≠ created := by
      rintro rfl
      obtain ⟨found, hget, -⟩ := hstored
      rw [hmissing] at hget
      cases hget
    exact hstored.of_get? (by rw [get?_withRow, if_neg hid])

/-- What a Run is judged by: its status and its deadline. -/
def judged (s : SqliteState) (runId : String) : Option (RunStatus × Option Int) :=
  (s.runs.get? runId).map fun run => (run.status, run.deadlineAtMs)

/-- The commit of a checkpoint does not touch it. -/
theorem judged_commitNewCheckpoint {checkpoint : ExecutionCheckpoint}
    {u : Unit} (h : commitNewCheckpoint intent checkpoint s = .ok (u, s')) (runId : String) :
    judged s' runId = judged s runId := by
  obtain ⟨run, s₁, hrun, h⟩ := Transaction.bind_eq_ok.1 h
  rw [(getRun_eq_ok hrun).2] at h
  rcases ite_eq_ok.1 h with ⟨-, h⟩ | ⟨-, h⟩
  · rw [(pure_eq_ok.1 h).2]
  · obtain ⟨-, h⟩ := refuse_eq_ok.1 h
    obtain ⟨current, s₂, hcurrent, h⟩ := Transaction.bind_eq_ok.1 h
    obtain ⟨hget, hs₂⟩ := getRun_eq_ok hcurrent
    rw [hs₂] at h
    obtain ⟨-, h⟩ := refuse_eq_ok.1 h
    obtain ⟨-, h⟩ := refuse_eq_ok.1 h
    rw [write_eq_ok.1 h]
    unfold judged
    dsimp only
    rw [Dict.get?_set]
    split
    · rename_i hid
      rw [hid, hget]
      rfl
    · rfl

theorem approvalLapsed_congr (hleases : s'.leases = s.leases)
    (hjudged : ∀ runId, judged s' runId = judged s runId) :
    ApprovalLapsed s' intent expires clock → ApprovalLapsed s intent expires clock := by
  rintro ⟨run, root, hrun, hroot, h⟩
  have hsame : ∀ {runId : String} {run : StoredRun}, s'.runs.get? runId = some run →
      ∃ run', s.runs.get? runId = some run' ∧ run'.status = run.status ∧
        run'.deadlineAtMs = run.deadlineAtMs := by
    intro runId run hget
    have h := hjudged runId
    unfold judged at h
    rw [hget] at h
    obtain ⟨run', hget', heq⟩ := Option.map_eq_some_iff.1 h.symm
    exact ⟨run', hget', congrArg Prod.fst heq, congrArg Prod.snd heq⟩
  obtain ⟨run', hrun', hstatus, hdeadline⟩ := hsame hrun
  obtain ⟨root', hroot', hrootStatus, hrootDeadline⟩ := hsame hroot
  refine ⟨run', root', hrun', hroot', ?_⟩
  unfold RunOver TimeUp cancellationRequested at h ⊢
  rwa [hstatus, hrootStatus, hdeadline, hrootDeadline, ← hleases]

theorem approved_prepareTransaction {context : ExecutionContext} {wall later : Int}
    {checkpoint : ExecutionCheckpoint} {pending : PendingTool}
    {completed : Bool} {prepared : String} (htable : Table lib s.approvals)
    (hidentifier : identifier lib intent.runId intent.toolCallId = .ok prepared)
    (hstored : Stored lib s.approvals id record)
    (hspares : prepared = id → ¬ ApprovalLapsed s record.intent record.expiresAtMs later)
    (h : prepareTransaction lib context wall clock later checkpoint pending intent expires prepared
      s = .ok ((record', completed), s')) : Stored lib s'.approvals id record := by
  obtain ⟨_, s₁, howner, h⟩ := Transaction.bind_eq_ok.1 (transaction_eq_ok h)
  rw [(readOnly_requireOwner context wall intent.runId).eq howner] at h
  replace h := read_bind_eq_ok.1 h
  obtain ⟨-, h⟩ := refuse_eq_ok.1 h
  obtain ⟨created, s₂, hcreate, h⟩ := Transaction.bind_eq_ok.1 h
  obtain ⟨_, s₃, hcommit, h⟩ := Transaction.bind_eq_ok.1 h
  obtain ⟨now', s₄, hnow, h⟩ := Transaction.bind_eq_ok.1 h
  rw [(now_eq_ok hnow).1, (now_eq_ok hnow).2] at h
  obtain ⟨⟨refreshed, fingerprint⟩, s₅, hrefresh, h⟩ := Transaction.bind_eq_ok.1 h
  obtain ⟨completed', s₆, hreceipt, h⟩ := Transaction.bind_eq_ok.1 h
  have hcommitted : s₃.approvals = s₂.approvals :=
    keeps_commitNewCheckpoint (f := fun s : SqliteState => s.approvals) intent checkpoint
      (fun _ _ => rfl) _ _ _ hcommit
  have hleases : s₃.leases = s₂.leases :=
    keeps_commitNewCheckpoint (f := fun s : SqliteState => s.leases) intent checkpoint
      (fun _ _ => rfl) _ _ _ hcommit
  rw [(pure_eq_ok.1 h).2, (readOnly_completedReceipt refreshed pending.call).eq hreceipt]
  rcases createRecord_eq_ok htable hidentifier hcreate with
    ⟨⟨row, hget, hrow⟩, rfl⟩ | ⟨hmissing, -, row, hrow, rfl⟩
  · have hthere : Stored lib s₃.approvals id record := hcommitted.symm ▸ hstored
    rw [← hcommitted] at hget
    by_cases hid : prepared = id
    · subst hid
      obtain rfl := hthere.unique ⟨row, hget, hrow⟩
      have hspared : ¬ ApprovalLapsed s₃ record.intent record.expiresAtMs later := fun hlapsed =>
        hspares rfl (approvalLapsed_congr hleases (judged_commitNewCheckpoint hcommit) hlapsed)
      rw [(refreshRecord_spares hget hrow hspared hrefresh).2]
      exact hthere
    · rcases refreshRecord_eq_ok hget hrow hrefresh with ⟨-, rfl⟩ | ⟨-, -, row', -, rfl⟩
      · exact hthere
      · exact hthere.of_get? (by rw [get?_withRow, if_neg (Ne.symm hid)])
  · have hid : id ≠ prepared := by
      rintro rfl
      obtain ⟨found, hget, -⟩ := hstored
      rw [hmissing] at hget
      cases hget
    have hthere : Stored lib s₃.approvals id record := by
      rw [hcommitted]
      exact hstored.of_get? (by rw [get?_withRow, if_neg hid])
    have hget : s₃.approvals.get? prepared = some row := by
      rw [hcommitted, get?_withRow, if_pos rfl]
    rcases refreshRecord_eq_ok hget hrow hrefresh with ⟨-, rfl⟩ | ⟨-, -, row', -, rfl⟩
    · exact hthere
    · exact hthere.of_get? (by rw [get?_withRow, if_neg hid])

theorem approved_prepare {context : ExecutionContext} {wall later : Int}
    {checkpoint : ExecutionCheckpoint} {p : Prepared}
    (htable : Table lib s.approvals) (hstored : Stored lib s.approvals id record)
    (hspares : identifier lib intent.runId intent.toolCallId = .ok id →
      ¬ ApprovalLapsed s record.intent record.expiresAtMs later)
    (h : prepare lib context wall clock later checkpoint intent expires s = .ok (p, s')) :
    Stored lib s'.approvals id record := by
  unfold prepare at h
  cases hpending : checkpoint.pending with
  | none =>
    simp only [hpending] at h
    exact absurd h not_raise_eq_ok
  | some pending =>
    simp only [hpending] at h
    obtain ⟨_, -, h⟩ := ofExcept_bind_eq_ok.1 h
    obtain ⟨-, h⟩ := refuse_eq_ok.1 h
    obtain ⟨_, -, h⟩ := ofExcept_bind_eq_ok.1 h
    obtain ⟨-, h⟩ := refuse_eq_ok.1 h
    obtain ⟨prepared, hidentifier, h⟩ := ofExcept_bind_eq_ok.1 h
    obtain ⟨⟨final, completed⟩, s₁, hprepare, h⟩ := Transaction.bind_eq_ok.1 h
    have hs' : s' = s₁ := by
      rcases ite_eq_ok.1 h with ⟨-, h⟩ | ⟨-, h⟩
      · exact (pure_eq_ok.1 h).2
      · cases hstatus : final.status <;> simp only [hstatus] at h <;> exact (pure_eq_ok.1 h).2
    rw [hs']
    exact approved_prepareTransaction htable hidentifier hstored
      (fun hid => hspares (hid ▸ hidentifier)) hprepare

end

/-! ## Runs -/

section

variable {lib : PythonLibrary} {id : String} {record : ApprovalRecord lib.sha256}

variable (lib id record) in
/-- The event does not refresh the record when it has lapsed. -/
def Spares (state : SystemState) (event : Int × SystemOp) : Prop :=
  match event.2 with
  | .store (.refresh clock refreshed) =>
    refreshed = id → ¬ ApprovalLapsed state.storage record.intent record.expiresAtMs clock
  | .store (.prepare _ _ later _ intent _) =>
    identifier lib intent.runId intent.toolCallId = .ok id →
      ¬ ApprovalLapsed state.storage record.intent record.expiresAtMs later
  | _ => True

theorem stored_left {α : Type} {m : Tx α} {s : SqliteState} (hstored : Stored lib s.approvals id record)
    (h : ∀ a s', m s = .ok (a, s') → Stored lib s'.approvals id record) :
    Stored lib (m.left s).approvals id record := by
  rcases left_cases m s with ⟨a, s', hm, heq⟩ | ⟨-, heq⟩
  · rw [heq]
    exact h a s' hm
  · rw [heq]
    exact hstored

/-- An event that spares an approved record leaves it as it is. -/
theorem approved_step {state : SystemState} {event : Int × SystemOp}
    (htable : Table lib state.storage.approvals)
    (hstored : Stored lib state.storage.approvals id record) (happroved : record.status = .approved)
    (hspares : Spares lib id record state event) :
    Stored lib (state.step lib event).storage.approvals id record := by
  obtain ⟨wall, op⟩ := event
  have hkept : ∀ {rows : Dict String ApprovalRow}, rows = state.storage.approvals →
      Stored lib rows id record := by
    rintro _ rfl
    exact hstored
  cases op with
  | store op =>
    cases op with
    | create clock intent expires =>
      exact stored_left hstored fun _ _ h => approved_create htable hstored h
    | prepare =>
      exact stored_left hstored fun _ _ h => approved_prepare htable hstored hspares h
    | decide =>
      exact stored_left hstored fun _ _ h => approved_decide htable hstored happroved h
    | refresh clock approvalId =>
      exact stored_left hstored fun _ _ h => approved_refresh htable hstored hspares h
    | request context clock run call binding =>
      exact stored_left hstored fun _ _ h => by
        rw [(readOnly_request context wall clock run call binding).eq h]
        exact hstored
    | claimLease run owner duration =>
      exact hkept (approvals_of_besideLeases
        ((LeaseStore.keeps_claim wall run owner duration).left_eq _))
    | renewLease context run owner duration =>
      exact hkept (approvals_of_besideLeases
        ((LeaseStore.keeps_renew context wall run owner duration).left_eq _))
    | releaseLease context run owner =>
      exact hkept (approvals_of_besideLeases
        ((LeaseStore.keeps_release context run owner).left_eq _))
    | requestCancellation run =>
      exact hkept (approvals_of_besideLeases
        ((LeaseStore.keeps_requestCancellation wall run).left_eq _))
    | portWrite context guarded update =>
      have hrows := (LeaseStore.keeps_portWrite context wall guarded update).left_eq state.storage
      have happrovals := congrArg SqliteState.approvals hrows
      exact hkept happrovals
    | reconcileTool run call evidence =>
      exact hkept (approvals_of_grantRows ((ToolIdempotency.keeps_reconcileTool (fun _ _ _ => rfl)
        (fun _ _ => rfl) (fun _ _ _ => rfl) wall run call evidence).left_eq _))
  | begin =>
    exact hkept (approvals_of_grantRows (grantRows_step lib state (by rfl)))
  | start flight => exact hkept (approvals_of_grantRows (grantRows_step lib state (by rfl)))
  | complete flight result =>
    exact hkept (approvals_of_grantRows (grantRows_step lib state (by rfl)))
  | crash flight => exact hkept (approvals_of_grantRows (grantRows_step lib state (by rfl)))

theorem approved_exec {state : SystemState} {run : List (Int × SystemOp)}
    (htable : Table lib state.storage.approvals)
    (hstored : Stored lib state.storage.approvals id record) (happroved : record.status = .approved)
    (hspares : Along (SystemState.step lib) (Spares lib id record) state run) :
    Stored lib (exec (SystemState.step lib) state run).storage.approvals id record := by
  have hboth := exec_induction
    (I := fun state : SystemState => Table lib state.storage.approvals ∧
      Stored lib state.storage.approvals id record)
    (fun s event hevent h => ⟨(approvalsStep_step lib s event h.1).table h.1,
      approved_step h.1 h.2 happroved hevent⟩) hspares ⟨htable, hstored⟩
  exact hboth.2

/-- The call of an approval is claimed, or has its receipt. -/
def Used (state : SystemState) (id : String) : Prop :=
  (state.storage.approvalExecutions.get? id).isSome = true

/-- **Used approvals.**  In every run, an approved record whose call is claimed or complete stays as
it is as long as no refresh or preparation meets it lapsed; and a refresh that returns leaves it
as it is exactly when it has not lapsed. -/
theorem used_approval_kept (lib : PythonLibrary) (version : Nat) (rows : RunRows)
    (before : List (Int × SystemOp)) (id : String) (record : ApprovalRecord lib.sha256) :
    let state := exec (SystemState.step lib) (.initial version rows) before
    Stored lib state.storage.approvals id record → record.status = .approved → Used state id →
      (∀ after, Along (SystemState.step lib) (Spares lib id record) state after →
        Stored lib (exec (SystemState.step lib) state after).storage.approvals id record) ∧
      ∀ clock record' storage, refresh lib clock id state.storage = .ok (record', storage) →
        (record' = record ↔ ¬ ApprovalLapsed state.storage record.intent record.expiresAtMs clock) := by
  intro state hstored happroved _
  have htable : Table lib state.storage.approvals := table_exec (table_initial version rows) before
  refine ⟨fun after hspares => approved_exec htable hstored happroved hspares, ?_⟩
  intro clock record' storage h
  obtain ⟨loaded, s₁, hload, h⟩ := Transaction.bind_eq_ok.1 (transaction_eq_ok h)
  obtain ⟨-, ⟨row, hget, hrow⟩, hs₁⟩ := load_eq_ok htable hload
  rw [hs₁] at h
  obtain ⟨now', s₂, hnow, h⟩ := Transaction.bind_eq_ok.1 h
  rw [(now_eq_ok hnow).1, (now_eq_ok hnow).2] at h
  obtain ⟨⟨found, fingerprint⟩, s₃, hrefresh, h⟩ := Transaction.bind_eq_ok.1 h
  obtain ⟨rfl, -⟩ := pure_eq_ok.1 h
  obtain rfl := hstored.unique ⟨row, hget, hrow⟩
  constructor
  · intro hsame
    obtain ⟨run, root, hrun, hroot, hstatus⟩ := refreshRecord_status hrefresh
    rw [approvalLapsed_iff hrun hroot, not_not]
    have hopen : ApprovalStatus.approved.openToRefresh = true := rfl
    rw [hsame, happroved, if_pos hopen] at hstatus
    cases hlapsed : lapsedStatus state.storage record.intent record.expiresAtMs clock run root with
    | none => rfl
    | some status =>
      rw [hlapsed] at hstatus
      unfold lapsedStatus at hlapsed
      split_ifs at hlapsed <;> cases hlapsed <;> cases hstatus
  · exact fun hlapsed => (refreshRecord_spares hget hrow hlapsed hrefresh).1

end

/-! ### An approval that expires while its call runs -/

/-- What is loaded is stored. -/
theorem stored_of_load {lib : PythonLibrary} {s : SqliteState} {id : String} {β : Type}
    {f : ApprovalRecord lib.sha256 → β} {b : β} (htable : Table lib s.approvals)
    (h : ((load lib id s).toOption.map Prod.fst).map f = some b) :
    ∃ record, Stored lib s.approvals id record ∧ f record = b := by
  cases hload : load lib id s with
  | error e =>
    rw [hload] at h
    cases h
  | ok p =>
    rw [hload] at h
    exact ⟨p.1, (load_eq_ok htable hload).2.1, Option.some.inj h⟩

/-- The status a row is stored with. -/
def storedStatus (s : SqliteState) (id : String) : Option String :=
  (s.approvals.get? id).bind fun row => match Json.field? row.body "status" with
    | some (.str status) => some status
    | _ => none

theorem stored_of_status {lib : PythonLibrary} {s : SqliteState} {id : String}
    {status : ApprovalStatus} (htable : Table lib s.approvals)
    (h : storedStatus s id = some status.value) :
    ∃ record, Stored lib s.approvals id record ∧ record.status = status := by
  obtain ⟨row, hget, h⟩ := Option.bind_eq_some_iff.1 h
  obtain ⟨record, hrow⟩ := htable id row hget
  refine ⟨record, ⟨row, hget, hrow⟩, ?_⟩
  obtain ⟨digest, -, hbody⟩ := bind_eq_ok hrow.body
  rw [← Except.ok.inj hbody] at h
  have hvalue : record.status.value = status.value := Option.some.inj h
  have htext := ApprovalStatus.ofText_value record.status
  rw [hvalue, ApprovalStatus.ofText_value] at htext
  exact (Except.ok.inj htext).symm

/-- The state after a run in which `w` claims the approved call. -/
def usedState (run : List (Int × SystemOp)) : SystemState :=
  exec (SystemState.step noteLibrary) (.initial 5 noteRows) run

theorem table_usedState (run : List (Int × SystemOp)) :
    Table noteLibrary (usedState run).storage.approvals :=
  table_exec (table_initial 5 noteRows) run

/-- A refresh of the approval. -/
def refreshAt (clock : Int) : List (Int × SystemOp) := [(clock, .store (.refresh clock noteId))]

theorem usedState_facts :
    ((load noteLibrary noteId (usedState stalledRun).storage).toOption.map Prod.fst).map
        (fun record => (record.status, decide
          (ApprovalLapsed (usedState stalledRun).storage record.intent record.expiresAtMs 6))) =
        some (.approved, false) ∧
      ((usedState stalledRun).storage.approvalExecutions.get? noteId).isSome = true ∧
      storedStatus (exec (SystemState.step noteLibrary) (usedState stalledRun)
        (refreshAt 2000)).storage noteId = some (ApprovalStatus.expired).value := by
  decide +kernel

theorem used_approval_kept_note :
    ∃ record, record.status = .approved ∧ Stored noteLibrary
      (exec (SystemState.step noteLibrary) (usedState stalledRun) (refreshAt 6)).storage.approvals
      noteId record := by
  obtain ⟨hload, hused, -⟩ := usedState_facts
  obtain ⟨record, hstored, hrecord⟩ := stored_of_load (table_usedState stalledRun) hload
  obtain ⟨happroved, hnot⟩ := Prod.mk.inj hrecord
  have hlapsed := of_decide_eq_false hnot
  have hspares : Along (SystemState.step noteLibrary) (Spares noteLibrary noteId record)
      (usedState stalledRun) (refreshAt 6) := ⟨fun _ => hlapsed, trivial⟩
  have h := used_approval_kept noteLibrary 5 noteRows stalledRun noteId record
  dsimp only at h
  rw [← usedState] at h
  exact ⟨record, happroved, (h hstored happroved hused).1 (refreshAt 6) hspares⟩

/-- The refresh closes the approval of the call that is executed. -/
theorem used_approval_expires :
    ¬ ∀ (lib : PythonLibrary) (version : Nat) (rows : RunRows) (before after : List (Int × SystemOp))
        (id : String) (record record' : ApprovalRecord lib.sha256),
      let state := exec (SystemState.step lib) (.initial version rows) before
      Stored lib state.storage.approvals id record → record.status = .approved → Used state id →
        Stored lib (exec (SystemState.step lib) state after).storage.approvals id record' →
          record'.status = record.status ∧ record'.revision = record.revision := by
  intro h
  obtain ⟨hload, hused, hlater⟩ := usedState_facts
  obtain ⟨record, hstored, hrecord⟩ := stored_of_load (table_usedState stalledRun) hload
  have htable : Table noteLibrary
      (exec (SystemState.step noteLibrary) (usedState stalledRun) (refreshAt 2000)).storage.approvals :=
    table_exec (table_usedState stalledRun) (refreshAt 2000)
  obtain ⟨record', hstored', hexpired⟩ := stored_of_status htable hlater
  replace h := h noteLibrary 5 noteRows stalledRun (refreshAt 2000) noteId record record'
  dsimp only at h
  rw [← usedState] at h
  obtain ⟨happroved, -⟩ := Prod.mk.inj hrecord
  have hsame := (h hstored happroved hused hstored').1
  rw [hexpired, happroved] at hsame
  cases hsame

end Purra
