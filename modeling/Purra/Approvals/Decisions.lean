import Purra.Approvals.LeaseFencing

/-!
# The life of an approval record

Authorization happens on an earlier read, so a decision meets whatever the record has
become in between: an expiry, a cancellation, another decision.  What keeps the table
sound is that each transaction saves at most one record, and that what it saves is a
record again, with every check of its constructor passed.

* `RecordMoved` — what one save does to a record: one revision further along the lifecycle.
* `ApprovalsStep` — what one event does to the table; every event is one
  (`approvalsStep_step`).
* `RowHolds`, `Table` — a row holds a record; every row of the table does.
* `approval_lifecycle` — records move forward only, audits and ended records are
  frozen, accepted commands replay, refused ones change nothing, and what was saved
  loads.
-/

namespace Purra

open Transaction StorageSession SqliteApprovalStore

/-! ## Rows and records -/

/-- The row at this identifier holds this record. -/
structure RowHolds (lib : PythonLibrary) (id : String) (row : ApprovalRow)
    (record : ApprovalRecord lib.sha256) : Prop where
  approvalId : record.approvalId = id
  runId : record.intent.runId = row.runId
  callId : record.intent.toolCallId = row.callId
  body : record.toMapping = .ok row.body
  identifier : identifier lib row.runId row.callId = .ok id

/-- Every row of the table holds a record. -/
def Table (lib : PythonLibrary) (rows : Dict String ApprovalRow) : Prop :=
  ∀ id row, rows.get? id = some row → ∃ record, RowHolds lib id row record

/-- The record is stored at its identifier. -/
def Stored (lib : PythonLibrary) (rows : Dict String ApprovalRow) (id : String)
    (record : ApprovalRecord lib.sha256) : Prop :=
  ∃ row, rows.get? id = some row ∧ RowHolds lib id row record

section

variable {lib : PythonLibrary} {id : String} {row : ApprovalRow}
  {record record' : ApprovalRecord lib.sha256}

theorem RowHolds.fromMapping (h : RowHolds lib id row record) :
    ApprovalRecord.fromMapping lib.sha256 row.body = .ok record :=
  ApprovalRecord.fromMapping_toMapping h.body

theorem RowHolds.unique (h : RowHolds lib id row record) (h' : RowHolds lib id row record') :
    record = record' := Except.ok.inj (h.fromMapping.symm.trans h'.fromMapping)

theorem Stored.unique {rows : Dict String ApprovalRow} (h : Stored lib rows id record)
    (h' : Stored lib rows id record') : record = record' := by
  obtain ⟨row, hget, hrow⟩ := h
  obtain ⟨row', hget', hrow'⟩ := h'
  rw [hget] at hget'
  cases hget'
  exact hrow.unique hrow'

/-- A new record: pending at its first revision. -/
structure Fresh (record : ApprovalRecord lib.sha256) : Prop where
  status : record.status = .pending
  revision : record.revision = 1
  audit : record.decisionAudit = none

/-- One save moves a record one revision along its lifecycle; its audit is set at most once. -/
structure RecordMoved (record record' : ApprovalRecord lib.sha256) : Prop where
  approvalId : record'.approvalId = record.approvalId
  intent : record'.intent = record.intent
  createdAtMs : record'.createdAtMs = record.createdAtMs
  expiresAtMs : record'.expiresAtMs = record.expiresAtMs
  status : record.status.movesTo record'.status = true
  revision : record'.revision = record.revision + 1
  audit : record'.decisionAudit = record.decisionAudit ∨ record.decisionAudit = none

/-- A saved record of the same call is held by the row it is saved in. -/
theorem RowHolds.saved (h : RowHolds lib id row record) (hid : record'.approvalId = record.approvalId)
    (hintent : record'.intent = record.intent) {body : Json.Object}
    (hbody : record'.toMapping = .ok body) : RowHolds lib id { row with body } record' where
  approvalId := hid.trans h.approvalId
  runId := by rw [hintent]; exact h.runId
  callId := by rw [hintent]; exact h.callId
  body := hbody
  identifier := h.identifier

end

/-! ## What the methods of the store do -/

section

variable {lib : PythonLibrary} {s s' : SqliteState} {id : String} {row : ApprovalRow}
  {record record' : ApprovalRecord lib.sha256} {clock : Int}

theorem not_fail_eq_ok {α : Type} {code : String} {a : α} :
    ¬ (fail code : Tx α) s = .ok (a, s') := by
  intro h
  cases h

theorem enabled_eq_ok {u : Unit} (h : enabled s = .ok (u, s')) : s.version = 5 ∧ s' = s := by
  replace h := read_bind_eq_ok.1 h
  obtain ⟨hversion, h⟩ := refuse_eq_ok.1 h
  exact ⟨not_not.1 hversion, (pure_eq_ok.1 h).2⟩

theorem load_eq_ok (htable : Table lib s.approvals) (h : load lib id s = .ok (record, s')) :
    s.version = 5 ∧ Stored lib s.approvals id record ∧ s' = s := by
  have hsame := readOnly_load id |>.eq h
  obtain ⟨_, -, h⟩ := ofExcept_bind_eq_ok.1 h
  obtain ⟨_, s₁, henabled, h⟩ := Transaction.bind_eq_ok.1 h
  obtain ⟨hversion, hs₁⟩ := enabled_eq_ok henabled
  rw [hs₁] at h
  replace h := read_bind_eq_ok.1 h
  cases hget : s.approvals.get? id with
  | none =>
    simp only [hget] at h
    exact absurd h not_fail_eq_ok
  | some row =>
    simp only [hget] at h
    obtain ⟨loaded, hloaded, h⟩ := ofExcept_bind_eq_ok.1 h
    obtain ⟨-, h⟩ := refuse_eq_ok.1 h
    obtain ⟨rfl, -⟩ := pure_eq_ok.1 h
    obtain ⟨stored, hstored⟩ := htable id row hget
    have heq : record = stored := Except.ok.inj (hloaded.symm.trans hstored.fromMapping)
    exact ⟨hversion, ⟨row, hget, heq ▸ hstored⟩, hsame⟩

/-- What was saved loads. -/
theorem load_of_stored (hversion : s.version = 5) (h : Stored lib s.approvals id record) :
    load lib id s = .ok (record, s) := by
  obtain ⟨row, hget, hrow⟩ := h
  have htext : checkText id "id" = .ok () :=
    ApprovalRecord.checkText_eq_ok.2 (hrow.approvalId ▸ record.fields_checked.1)
  have hkey : ¬ (record.approvalId ≠ id ∨
      (record.intent.runId, record.intent.toolCallId) ≠ (row.runId, row.callId)) := by
    rw [hrow.approvalId, hrow.runId, hrow.callId]
    simp
  refine ofExcept_bind_eq_ok.2 ⟨(), htext, ?_⟩
  have henabled : enabled s = .ok ((), s) :=
    read_bind_eq_ok.2 (refuse_eq_ok.2 ⟨not_not.2 hversion, rfl⟩)
  refine Transaction.bind_eq_ok.2 ⟨(), s, henabled, read_bind_eq_ok.2 ?_⟩
  simp only [hget]
  exact ofExcept_bind_eq_ok.2
    ⟨record, hrow.fromMapping, refuse_eq_ok.2 ⟨hkey, pure_eq_ok.2 ⟨rfl, rfl⟩⟩⟩

/-- The state with another row in the approval table. -/
def withRow (s : SqliteState) (id : String) (row : ApprovalRow) : SqliteState :=
  { s with approvals := s.approvals.set id row }

/-- Saving a record over the one it comes from. -/
theorem save_stored {u : Unit} (hget : s.approvals.get? id = some row)
    (hrow : RowHolds lib id row record) (hid : record'.approvalId = record.approvalId)
    (hintent : record'.intent = record.intent) (h : save lib record' s = .ok (u, s')) :
    ∃ row', RowHolds lib id row' record' ∧ s' = withRow s id row' := by
  obtain ⟨body, hbody, h⟩ := ofExcept_bind_eq_ok.1 h
  replace h := read_bind_eq_ok.1 h
  have hkey : record'.approvalId = id := hid.trans hrow.approvalId
  simp only [hkey, hget] at h
  exact ⟨_, hrow.saved hid hintent hbody, write_eq_ok.1 h⟩

/-- Saving the record of a call for the first time. -/
theorem save_new {u : Unit} (hget : s.approvals.get? record.approvalId = none)
    (hidentifier : identifier lib record.intent.runId record.intent.toolCallId =
      .ok record.approvalId) (h : save lib record s = .ok (u, s')) :
    ∃ row, RowHolds lib record.approvalId row record ∧ s' = withRow s record.approvalId row := by
  obtain ⟨body, hbody, h⟩ := ofExcept_bind_eq_ok.1 h
  replace h := read_bind_eq_ok.1 h
  simp only [hget] at h
  obtain ⟨-, h⟩ := refuse_eq_ok.1 h
  exact ⟨⟨record.intent.runId, record.intent.toolCallId, body⟩,
    ⟨rfl, rfl, rfl, hbody, hidentifier⟩, write_eq_ok.1 h⟩

variable {expires : Int}

theorem refreshedStatus_eq_some {run : RunState} {status : ApprovalStatus}
    (h : refreshedStatus run expires clock = some status) :
    status = .expired ∨ status = .canceled := by
  unfold refreshedStatus at h
  split at h
  · exact Or.inr (Option.some.inj h).symm
  · split at h
    · exact Or.inl (Option.some.inj h).symm
    · cases h

/-- A refresh leaves an open record as it is, or closes it. -/
theorem refreshRecord_eq_ok {fingerprint : String} (hget : s.approvals.get? id = some row)
    (hrow : RowHolds lib id row record)
    (h : refreshRecord lib record clock s = .ok ((record', fingerprint), s')) :
    (record' = record ∧ s' = s) ∨
      (RecordMoved record record' ∧ (record'.status = .expired ∨ record'.status = .canceled) ∧
        ∃ row', RowHolds lib id row' record' ∧ s' = withRow s id row') := by
  obtain ⟨run, s₁, hrun, h⟩ := Transaction.bind_eq_ok.1 h
  rw [(readOnly_runState record.intent).eq hrun] at h
  have hkept : ∀ {p : ApprovalRecord lib.sha256 × String},
      (pure (record, run.fingerprint) : Tx _) s = .ok (p, s') → p.1 = record ∧ s' = s := by
    intro p hp
    obtain ⟨rfl, rfl⟩ := pure_eq_ok.1 hp
    exact ⟨rfl, rfl⟩
  cases hstatus : refreshedStatus run record.expiresAtMs clock with
  | none =>
    simp only [hstatus] at h
    exact Or.inl (hkept h)
  | some status =>
    simp only [hstatus] at h
    rcases ite_eq_ok.1 h with ⟨hopen, h⟩ | ⟨-, h⟩
    · obtain ⟨closed, hclosed, h⟩ := ofExcept_bind_eq_ok.1 h
      obtain ⟨_, s₂, hsave, h⟩ := Transaction.bind_eq_ok.1 h
      obtain ⟨heq, rfl⟩ := pure_eq_ok.1 h
      cases heq
      obtain ⟨hid, hintent, hrevision, hto, hcreated, hexpires, haudit⟩ :=
        ApprovalRecord.new_eq_ok.1 hclosed
      have hclosing := refreshedStatus_eq_some hstatus
      have hmoves : record.status.movesTo record'.status = true := by
        rw [hto]
        unfold ApprovalStatus.openToRefresh at hopen
        rcases hclosing with rfl | rfl <;> cases hfrom : record.status <;>
          simp_all [ApprovalStatus.movesTo]
      exact Or.inr ⟨⟨hid, hintent, hcreated, hexpires, hmoves, hrevision, Or.inl haudit⟩,
        hto ▸ hclosing, save_stored hget hrow hid hintent hsave⟩
    · exact Or.inl (hkept h)

variable {command : ApprovalDecisionCommand} {principalId : String}

/-- The decision of a pending record. -/
theorem decided_eq_ok {now : Int} (hpending : record.status = .pending)
    (h : decided lib record command principalId now = .ok record') :
    RecordMoved record record' ∧
      record'.decisionAudit = some ⟨command, principalId, now, record.revision + 1⟩ := by
  obtain ⟨hid, hintent, hrevision, hto, hcreated, hexpires, haudit⟩ :=
    ApprovalRecord.new_eq_ok.1 h
  have hmoves : record.status.movesTo record'.status = true := by
    rw [hpending, hto]
    cases command.decision <;> rfl
  exact ⟨⟨hid, hintent, hcreated, hexpires, hmoves, hrevision,
    Or.inr (record.audit_of_pending hpending)⟩, haudit⟩

/-- How `decide` ends when the command is new: refused as it was, refused by a record it closes, or
accepted. -/
inductive DecideOutcome (record : ApprovalRecord lib.sha256) (command : ApprovalDecisionCommand)
    (principalId : String) (rows rows' : Dict String ApprovalRow) :
    Except PyError ApprovalReceipt → Prop where
  | refused (e : PyError) (kept : rows' = rows) :
      DecideOutcome record command principalId rows rows' (.error e)
  | closed (e : PyError) (record' : ApprovalRecord lib.sha256) (row' : ApprovalRow)
      (moved : RecordMoved record record') (after : RowHolds lib record.approvalId row' record')
      (written : rows' = rows.set record.approvalId row') :
      DecideOutcome record command principalId rows rows' (.error e)
  | accepted (now : Int) (record' : ApprovalRecord lib.sha256) (row' : ApprovalRow)
      (moved : RecordMoved record record') (after : RowHolds lib record.approvalId row' record')
      (written : rows' = rows.set record.approvalId row')
      (audit : record'.decisionAudit = some ⟨command, principalId, now, record.revision + 1⟩) :
      DecideOutcome record command principalId rows rows' (receipt lib record')

theorem decideRecord_eq_ok
    {reply : Except PyError ApprovalReceipt} (hget : s.approvals.get? id = some row)
    (hrow : RowHolds lib id row record)
    (h : decideRecord lib clock command principalId record s = .ok (reply, s')) :
    record.intent.digest lib.sha256 = .ok command.intentDigest ∧
      record.revision = command.expectedRevision ∧ record.status = .pending ∧
      DecideOutcome record command principalId s.approvals s'.approvals reply := by
  obtain ⟨digest, hdigest, h⟩ := ofExcept_bind_eq_ok.1 h
  obtain ⟨hcurrent, h⟩ := refuse_eq_ok.1 h
  simp only [not_or, not_not] at hcurrent
  obtain ⟨hrevision, hsame, hpending⟩ := hcurrent
  rw [hsame] at hdigest
  refine ⟨hdigest, hrevision, hpending, ?_⟩
  obtain ⟨now', s₁, hnow, h⟩ := Transaction.bind_eq_ok.1 h
  rw [(readOnly_now clock).eq hnow] at h
  obtain ⟨⟨refreshed, fingerprint⟩, s₂, hrefresh, h⟩ := Transaction.bind_eq_ok.1 h
  rcases refreshRecord_eq_ok hget hrow hrefresh with ⟨hsame, hs₂⟩ | ⟨hmoved, hto, row', hrow', hs₂⟩
  · simp only [hsame, hs₂, hpending] at h
    rcases ite_eq_ok.1 h with ⟨hclosed, -⟩ | ⟨-, h⟩
    · simp at hclosed
    rcases ite_eq_ok.1 h with ⟨-, h⟩ | ⟨-, h⟩
    · obtain ⟨rfl, hs'⟩ := pure_eq_ok.1 h
      exact .refused _ (by rw [hs'])
    obtain ⟨accepted, haccepted, h⟩ := ofExcept_bind_eq_ok.1 h
    obtain ⟨_, s₃, hsave, h⟩ := Transaction.bind_eq_ok.1 h
    obtain ⟨_, s₄, hwake, h⟩ := Transaction.bind_eq_ok.1 h
    obtain ⟨hreply, hs'⟩ := pure_eq_ok.1 h
    obtain ⟨hmoved, haudit⟩ := decided_eq_ok hpending haccepted
    obtain ⟨row', hrow', hs₃⟩ := save_stored hget hrow hmoved.approvalId hmoved.intent hsave
    have hwoken : s₄.approvals = s₃.approvals :=
      keeps_wake (f := fun s : SqliteState => s.approvals) (fun _ _ _ => rfl) _ _ _ hwake
    have hwritten : s'.approvals = s.approvals.set record.approvalId row' := by
      rw [hs', hwoken, hs₃, hrow.approvalId]
      rfl
    rw [hreply]
    exact .accepted now' accepted row' hmoved (hrow.approvalId ▸ hrow') hwritten haudit
  · have hclosed : refreshed.status = .expired ∨ refreshed.status = .canceled := hto
    simp only [hclosed, if_true] at h
    obtain ⟨rfl, hs'⟩ := pure_eq_ok.1 h
    have hwritten : s'.approvals = s.approvals.set record.approvalId row' := by
      rw [hs', hs₂, hrow.approvalId]
      rfl
    exact .closed _ refreshed row' hmoved (hrow.approvalId ▸ hrow') hwritten

/-- What `decide` met when it did not raise: a command it had accepted before, or a pending record
at the command's revision. -/
theorem decide_eq_ok {allowed : Option Bool} {reply : Except PyError ApprovalReceipt}
    (htable : Table lib s.approvals)
    (h : decide lib clock command principalId allowed s = .ok (reply, s')) :
    s.version = 5 ∧ checkText principalId "principal" = .ok () ∧ allowed = some true ∧
      ∃ record, Stored lib s.approvals command.approvalId record ∧
        ((∃ audit, record.decisionAudit = some audit ∧ audit.command = command ∧
            audit.principalId = principalId ∧ reply = receipt lib record ∧ s' = s) ∨
          (record.intent.digest lib.sha256 = .ok command.intentDigest ∧
            record.revision = command.expectedRevision ∧ record.status = .pending ∧
            DecideOutcome record command principalId s.approvals s'.approvals reply)) := by
  obtain ⟨_, hprincipal, h⟩ := ofExcept_bind_eq_ok.1 h
  cases allowed with
  | none => exact absurd h not_fail_eq_ok
  | some answer =>
    cases answer with
    | false => exact absurd h not_fail_eq_ok
    | true =>
      obtain ⟨record, s₁, hload, h⟩ := Transaction.bind_eq_ok.1 (transaction_eq_ok h)
      obtain ⟨hversion, hstored, hs₁⟩ := load_eq_ok htable hload
      rw [hs₁] at h
      refine ⟨hversion, hprincipal, rfl, record, hstored, ?_⟩
      obtain ⟨row, hget, hrow⟩ := hstored
      cases haudit : record.decisionAudit with
      | none =>
        simp only [haudit] at h
        exact Or.inr (decideRecord_eq_ok hget hrow h)
      | some audit =>
        simp only [haudit] at h
        rcases ite_eq_ok.1 h with ⟨-, h⟩ | ⟨-, h⟩
        · obtain ⟨hsame, h⟩ := refuse_eq_ok.1 h
          simp only [not_or, not_not] at hsame
          obtain ⟨hreply, hs'⟩ := pure_eq_ok.1 h
          exact Or.inl ⟨audit, rfl, hsame.2, hsame.1, hreply, hs'⟩
        · exact Or.inr (decideRecord_eq_ok hget hrow h)

variable {intent : ApprovalIntent}

/-- Creating finds the record of the call, or saves a new one. -/
theorem createRecord_eq_ok (htable : Table lib s.approvals)
    (hidentifier : identifier lib intent.runId intent.toolCallId = .ok id)
    (h : createRecord lib clock intent expires id s = .ok (record, s')) :
    (Stored lib s.approvals id record ∧ s' = s) ∨
      (s.approvals.get? id = none ∧ Fresh record ∧
        ∃ row, RowHolds lib id row record ∧ s' = withRow s id row) := by
  obtain ⟨_, s₁, henabled, h⟩ := Transaction.bind_eq_ok.1 h
  rw [(enabled_eq_ok henabled).2] at h
  obtain ⟨run, s₂, hrun, h⟩ := Transaction.bind_eq_ok.1 h
  rw [(readOnly_runState intent).eq hrun] at h
  obtain ⟨-, h⟩ := refuse_eq_ok.1 h
  obtain ⟨-, h⟩ := refuse_eq_ok.1 h
  replace h := read_bind_eq_ok.1 h
  cases hget : s.approvals.get? id with
  | some row =>
    simp only [hget] at h
    obtain ⟨loaded, s₃, hload, h⟩ := Transaction.bind_eq_ok.1 h
    obtain ⟨-, hstored, hs₃⟩ := load_eq_ok htable hload
    obtain ⟨_, -, h⟩ := ofExcept_bind_eq_ok.1 h
    obtain ⟨_, -, h⟩ := ofExcept_bind_eq_ok.1 h
    obtain ⟨-, h⟩ := refuse_eq_ok.1 h
    obtain ⟨hsame, hs'⟩ := pure_eq_ok.1 h
    exact Or.inl ⟨hsame ▸ hstored, hs'.trans hs₃⟩
  | none =>
    simp only [hget] at h
    obtain ⟨now', s₃, hnow, h⟩ := Transaction.bind_eq_ok.1 h
    rw [(readOnly_now clock).eq hnow] at h
    obtain ⟨-, h⟩ := refuse_eq_ok.1 h
    obtain ⟨created, hcreated, h⟩ := ofExcept_bind_eq_ok.1 h
    obtain ⟨_, s₄, hsave, h⟩ := Transaction.bind_eq_ok.1 h
    obtain ⟨hsame, hs'⟩ := pure_eq_ok.1 h
    obtain ⟨hid, hintent, hrevision, hstatus, -, -, haudit⟩ := ApprovalRecord.new_eq_ok.1 hcreated
    rw [← hid] at hget
    rw [← hintent, ← hid] at hidentifier
    have hnew := save_new hget hidentifier hsave
    rw [hsame, hs']
    rw [hid] at hnew
    exact Or.inr ⟨rfl, ⟨hstatus, hrevision, haudit⟩, hnew⟩

/-- What one event does to the approval table: at most one record is saved, a new one or one that
moved. -/
inductive ApprovalsStep (lib : PythonLibrary) (rows rows' : Dict String ApprovalRow) : Prop where
  | kept (same : rows' = rows)
  | moved (id : String) (row' : ApprovalRow) (record record' : ApprovalRecord lib.sha256)
      (stored : Stored lib rows id record) (moved : RecordMoved record record')
      (after : RowHolds lib id row' record')
      (written : ∀ k, rows'.get? k = if k = id then some row' else rows.get? k)
  | created (id : String) (row' : ApprovalRow) (record record' : ApprovalRecord lib.sha256)
      (missing : rows.get? id = none) (fresh : Fresh record)
      (moved : record' = record ∨ RecordMoved record record') (after : RowHolds lib id row' record')
      (written : ∀ k, rows'.get? k = if k = id then some row' else rows.get? k)

theorem get?_withRow (s : SqliteState) (id : String) (row : ApprovalRow) (k : String) :
    (withRow s id row).approvals.get? k = if k = id then some row else s.approvals.get? k :=
  Dict.get?_set _ _ _ _

theorem approvalsStep_create (htable : Table lib s.approvals)
    (h : create lib clock intent expires s = .ok (record, s')) :
    ApprovalsStep lib s.approvals s'.approvals := by
  obtain ⟨_, -, h⟩ := ofExcept_bind_eq_ok.1 h
  obtain ⟨id, hidentifier, h⟩ := ofExcept_bind_eq_ok.1 h
  rcases createRecord_eq_ok htable hidentifier (transaction_eq_ok h) with
    ⟨-, hs'⟩ | ⟨hmissing, hfresh, row, hrow, hs'⟩
  · exact .kept (by rw [hs'])
  · refine .created id row record record hmissing hfresh (Or.inl rfl) hrow fun k => ?_
    rw [hs', get?_withRow]

theorem approvalsStep_refresh (htable : Table lib s.approvals)
    (h : refresh lib clock id s = .ok (record', s')) :
    ApprovalsStep lib s.approvals s'.approvals := by
  obtain ⟨record, s₁, hload, h⟩ := Transaction.bind_eq_ok.1 (transaction_eq_ok h)
  obtain ⟨-, ⟨row, hget, hrow⟩, hs₁⟩ := load_eq_ok htable hload
  rw [hs₁] at h
  obtain ⟨now', s₂, hnow, h⟩ := Transaction.bind_eq_ok.1 h
  rw [(readOnly_now clock).eq hnow] at h
  obtain ⟨⟨refreshed, fingerprint⟩, s₃, hrefresh, h⟩ := Transaction.bind_eq_ok.1 h
  obtain ⟨-, hs'⟩ := pure_eq_ok.1 h
  rcases refreshRecord_eq_ok hget hrow hrefresh with ⟨-, hs₃⟩ | ⟨hmoved, -, row', hrow', hs₃⟩
  · exact .kept (by rw [hs', hs₃])
  · refine .moved id row' record refreshed ⟨row, hget, hrow⟩ hmoved hrow' fun k => ?_
    rw [hs', hs₃, get?_withRow]

theorem approvalsStep_decide {allowed : Option Bool} {reply : Except PyError ApprovalReceipt}
    (htable : Table lib s.approvals)
    (h : decide lib clock command principalId allowed s = .ok (reply, s')) :
    ApprovalsStep lib s.approvals s'.approvals := by
  obtain ⟨-, -, -, record, hstored, houtcome⟩ := decide_eq_ok htable h
  rcases houtcome with ⟨-, -, -, -, -, hs'⟩ | ⟨-, -, -, houtcome⟩
  · exact .kept (by rw [hs'])
  · have hid : record.approvalId = command.approvalId := by
      obtain ⟨row, -, hrow⟩ := hstored
      exact hrow.approvalId
    have hset : ∀ {record' row'}, RecordMoved record record' → RowHolds lib record.approvalId row' record' →
        s'.approvals = s.approvals.set record.approvalId row' →
        ApprovalsStep lib s.approvals s'.approvals := by
      intro record' row' hmoved hafter hwritten
      refine .moved _ row' record record' (hid ▸ hstored) hmoved hafter fun k => ?_
      rw [hwritten, Dict.get?_set]
    cases houtcome with
    | refused e kept => exact .kept kept
    | closed _ _ _ moved after written => exact hset moved after written
    | accepted _ _ _ moved after written => exact hset moved after written

/-- `prepare` creates or finds the record and refreshes it in the same transaction, so a record may
be new and closed at once. -/
theorem approvalsStep_prepareTransaction {context : ExecutionContext} {wall later : Int}
    {checkpoint : ExecutionCheckpoint} {pending : PendingTool}
    {completed : Bool} (htable : Table lib s.approvals)
    (hidentifier : identifier lib intent.runId intent.toolCallId = .ok id)
    (h : prepareTransaction lib context wall clock later checkpoint pending intent expires id s =
      .ok ((record', completed), s')) : ApprovalsStep lib s.approvals s'.approvals := by
  obtain ⟨_, s₁, howner, h⟩ := Transaction.bind_eq_ok.1 (transaction_eq_ok h)
  rw [(readOnly_requireOwner context wall intent.runId).eq howner] at h
  replace h := read_bind_eq_ok.1 h
  obtain ⟨-, h⟩ := refuse_eq_ok.1 h
  obtain ⟨record, s₂, hcreate, h⟩ := Transaction.bind_eq_ok.1 h
  obtain ⟨_, s₃, hcommit, h⟩ := Transaction.bind_eq_ok.1 h
  obtain ⟨now', s₄, hnow, h⟩ := Transaction.bind_eq_ok.1 h
  rw [(readOnly_now later).eq hnow] at h
  obtain ⟨⟨refreshed, fingerprint⟩, s₅, hrefresh, h⟩ := Transaction.bind_eq_ok.1 h
  obtain ⟨completed', s₆, hreceipt, h⟩ := Transaction.bind_eq_ok.1 h
  have hcommitted : s₃.approvals = s₂.approvals :=
    keeps_commitNewCheckpoint (f := fun s : SqliteState => s.approvals) intent checkpoint
      (fun _ _ => rfl) _ _ _ hcommit
  have hs' : s'.approvals = s₅.approvals := by
    rw [(pure_eq_ok.1 h).2, (readOnly_completedReceipt refreshed pending.call).eq hreceipt]
  rw [hs']
  rcases createRecord_eq_ok htable hidentifier hcreate with
    ⟨⟨row, hget, hrow⟩, hs₂⟩ | ⟨hmissing, hfresh, row, hrow, hs₂⟩
  · have hsame : s₃.approvals = s.approvals := by rw [hcommitted, hs₂]
    rw [← hsame] at hget
    rcases refreshRecord_eq_ok hget hrow hrefresh with ⟨-, hs₅⟩ | ⟨hmoved, -, row', hrow', hs₅⟩
    · exact .kept (by rw [hs₅, hsame])
    · refine .moved id row' record refreshed ⟨row, hsame ▸ hget, hrow⟩ hmoved hrow' fun k => ?_
      rw [hs₅, get?_withRow, hsame]
  · have hwritten : ∀ k, s₃.approvals.get? k = if k = id then some row else s.approvals.get? k := by
      intro k
      rw [hcommitted, hs₂, get?_withRow]
    have hget : s₃.approvals.get? id = some row := by rw [hwritten, if_pos rfl]
    rcases refreshRecord_eq_ok hget hrow hrefresh with
      ⟨hsame, hs₅⟩ | ⟨hmoved, -, row', hrow', hs₅⟩
    · exact .created id row record refreshed hmissing hfresh (Or.inl hsame) (hsame ▸ hrow)
        fun k => by rw [hs₅, hwritten]
    · refine .created id row' record refreshed hmissing hfresh (Or.inr hmoved) hrow' fun k => ?_
      rw [hs₅, get?_withRow, hwritten]
      by_cases hk : k = id
      · rw [if_pos hk, if_pos hk]
      · rw [if_neg hk, if_neg hk, if_neg hk]

theorem approvalsStep_prepare {context : ExecutionContext} {wall later : Int}
    {checkpoint : ExecutionCheckpoint} {p : Prepared} (htable : Table lib s.approvals)
    (h : prepare lib context wall clock later checkpoint intent expires s = .ok (p, s')) :
    ApprovalsStep lib s.approvals s'.approvals := by
  unfold prepare at h
  cases hpending : checkpoint.pending with
  | none =>
    simp only [hpending] at h
    exact absurd h not_raise_eq_ok
  | some pending =>
    simp only [hpending] at h
    obtain ⟨_, -, h⟩ := ofExcept_bind_eq_ok.1 h
    obtain ⟨-, h⟩ := refuse_eq_ok.1 h
    obtain ⟨_, -, h⟩ := ofExcept_bind_eq_ok.1 h
    obtain ⟨-, h⟩ := refuse_eq_ok.1 h
    obtain ⟨id, hidentifier, h⟩ := ofExcept_bind_eq_ok.1 h
    obtain ⟨⟨final, completed⟩, s₁, hprepare, h⟩ := Transaction.bind_eq_ok.1 h
    have hs' : s' = s₁ := by
      rcases ite_eq_ok.1 h with ⟨-, h⟩ | ⟨-, h⟩
      · exact (pure_eq_ok.1 h).2
      · cases hstatus : final.status <;> simp only [hstatus] at h <;> exact (pure_eq_ok.1 h).2
    rw [hs']
    exact approvalsStep_prepareTransaction htable hidentifier hprepare

end

/-! ## Every event is a step of the table -/

section

variable {lib : PythonLibrary} {s : SqliteState}

theorem approvalsStep_left {α : Type} {m : Tx α}
    (h : ∀ a s', m s = .ok (a, s') → ApprovalsStep lib s.approvals s'.approvals) :
    ApprovalsStep lib s.approvals (m.left s).approvals := by
  rcases left_cases m s with ⟨a, s', hm, heq⟩ | ⟨-, heq⟩
  · rw [heq]
    exact h a s' hm
  · rw [heq]
    exact .kept rfl

/-- **Every event saves at most one record**, as the lifecycle allows. -/
theorem approvalsStep_step (lib : PythonLibrary) (state : SystemState) (event : Int × SystemOp)
    (htable : Table lib state.storage.approvals) :
    ApprovalsStep lib state.storage.approvals (state.step lib event).storage.approvals := by
  obtain ⟨wall, op⟩ := event
  cases op with
  | store op =>
    cases op with
    | create clock intent expires =>
      exact approvalsStep_left fun _ _ h => approvalsStep_create htable h
    | prepare =>
      exact approvalsStep_left fun _ _ h => approvalsStep_prepare htable h
    | decide =>
      exact approvalsStep_left fun _ _ h => approvalsStep_decide htable h
    | refresh clock approvalId =>
      exact approvalsStep_left fun _ _ h => approvalsStep_refresh htable h
    | request context clock run call binding =>
      exact approvalsStep_left fun _ _ h =>
        .kept (by rw [(readOnly_request context wall clock run call binding).eq h])
    | claimLease run owner duration =>
      exact .kept (approvals_of_besideLeases ((LeaseStore.keeps_claim wall run owner duration).left_eq _))
    | renewLease context run owner duration =>
      exact .kept
        (approvals_of_besideLeases ((LeaseStore.keeps_renew context wall run owner duration).left_eq _))
    | releaseLease context run owner =>
      exact .kept (approvals_of_besideLeases ((LeaseStore.keeps_release context run owner).left_eq _))
    | requestCancellation run =>
      exact .kept (approvals_of_besideLeases ((LeaseStore.keeps_requestCancellation wall run).left_eq _))
    | portWrite context guarded update =>
      have hkept := (LeaseStore.keeps_portWrite context wall guarded update).left_eq state.storage
      have happrovals := congrArg SqliteState.approvals hkept
      exact .kept happrovals
    | reconcileTool run call evidence =>
      exact .kept
        (approvals_of_grantRows ((ToolIdempotency.keeps_reconcileTool (fun _ _ _ => rfl) (fun _ _ => rfl)
      (fun _ _ _ => rfl) wall run call evidence).left_eq _))
  | begin =>
    exact .kept (approvals_of_grantRows (grantRows_step lib state (by rfl)))
  | start flight => exact .kept (approvals_of_grantRows (grantRows_step lib state (by rfl)))
  | complete flight result => exact .kept (approvals_of_grantRows (grantRows_step lib state (by rfl)))
  | crash flight => exact .kept (approvals_of_grantRows (grantRows_step lib state (by rfl)))

end

/-! ## What the steps of the table keep -/

section

variable {lib : PythonLibrary} {rows rows' : Dict String ApprovalRow} {id : String}
  {record record' : ApprovalRecord lib.sha256}

theorem ApprovalsStep.table (h : ApprovalsStep lib rows rows') (htable : Table lib rows) :
    Table lib rows' := by
  have hset : ∀ {id row' record'}, RowHolds lib id row' record' →
      (∀ k, rows'.get? k = if k = id then some row' else rows.get? k) → Table lib rows' := by
    intro id row' record' hafter hwritten k row hget
    rw [hwritten] at hget
    by_cases hk : k = id
    · rw [if_pos hk] at hget
      cases hget
      exact ⟨record', hk ▸ hafter⟩
    · rw [if_neg hk] at hget
      exact htable k row hget
  cases h with
  | kept same => exact same ▸ htable
  | moved _ _ _ _ _ _ after written => exact hset after written
  | created _ _ _ _ _ _ _ after written => exact hset after written

/-- A stored record stays, or moves once. -/
theorem ApprovalsStep.stored (h : ApprovalsStep lib rows rows') (hstored : Stored lib rows id record) :
    ∃ record', Stored lib rows' id record' ∧ (record' = record ∨ RecordMoved record record') := by
  cases h with
  | kept same => exact ⟨record, same ▸ hstored, Or.inl rfl⟩
  | moved id₁ row' _ record' stored moved after written =>
    by_cases hid : id = id₁
    · subst hid
      obtain rfl := hstored.unique stored
      exact ⟨record', ⟨row', by rw [written, if_pos rfl], after⟩, Or.inr moved⟩
    · obtain ⟨row, hget, hrow⟩ := hstored
      exact ⟨record, ⟨row, by rw [written, if_neg hid, hget], hrow⟩, Or.inl rfl⟩
  | created id₁ _ _ _ missing _ _ _ written =>
    obtain ⟨row, hget, hrow⟩ := hstored
    have hid : id ≠ id₁ := by
      rintro rfl
      rw [missing] at hget
      cases hget
    exact ⟨record, ⟨row, by rw [written, if_neg hid, hget], hrow⟩, Or.inl rfl⟩

/-- A record that appears is new, or new and already moved. -/
theorem ApprovalsStep.appears (h : ApprovalsStep lib rows rows') (hmissing : rows.get? id = none)
    (hstored : Stored lib rows' id record') :
    ∃ record, Fresh record ∧ (record' = record ∨ RecordMoved record record') := by
  cases h with
  | kept same =>
    obtain ⟨row, hget, -⟩ := hstored
    rw [same, hmissing] at hget
    cases hget
  | moved id₁ _ _ _ stored _ _ written =>
    obtain ⟨row, hget, -⟩ := hstored
    obtain ⟨row₂, hget₂, -⟩ := stored
    have hid : id ≠ id₁ := by
      rintro rfl
      rw [hmissing] at hget₂
      cases hget₂
    rw [written, if_neg hid, hmissing] at hget
    cases hget
  | created id₁ _ record₁ _ _ fresh moved after written =>
    obtain ⟨row, hget, hrow⟩ := hstored
    rw [written] at hget
    by_cases hid : id = id₁
    · rw [if_pos hid] at hget
      cases hget
      obtain rfl := hrow.unique (hid ▸ after)
      exact ⟨record₁, fresh, moved⟩
    · rw [if_neg hid, hmissing] at hget
      cases hget

/-- How a record stands to an earlier state of itself. -/
structure Later (record record' : ApprovalRecord lib.sha256) : Prop where
  approvalId : record'.approvalId = record.approvalId
  intent : record'.intent = record.intent
  audit : record.decisionAudit.isSome = true → record'.decisionAudit = record.decisionAudit
  ended : record.status.ended = true → record' = record

theorem Later.refl (record : ApprovalRecord lib.sha256) : Later record record :=
  ⟨rfl, rfl, fun _ => rfl, fun _ => rfl⟩

theorem Later.trans {record'' : ApprovalRecord lib.sha256} (h : Later record record')
    (h' : Later record' record'') : Later record record'' where
  approvalId := h'.approvalId.trans h.approvalId
  intent := h'.intent.trans h.intent
  audit := fun hsome => by rw [h'.audit (by rwa [h.audit hsome]), h.audit hsome]
  ended := fun hended => by
    obtain rfl := h.ended hended
    exact h'.ended hended

theorem RecordMoved.later (h : RecordMoved record record') : Later record record' where
  approvalId := h.approvalId
  intent := h.intent
  audit := fun hsome => h.audit.resolve_right fun hnone => by simp [hnone] at hsome
  ended := fun hended => by
    have hmoves := h.status
    rw [ApprovalStatus.movesTo_of_ended hended] at hmoves
    cases hmoves

end

/-! ## Runs -/

section

variable {lib : PythonLibrary}

theorem table_exec {state : SystemState} (htable : Table lib state.storage.approvals)
    (run : List (Int × SystemOp)) :
    Table lib (exec (SystemState.step lib) state run).storage.approvals :=
  exec_induction_of_all (I := fun state : SystemState => Table lib state.storage.approvals)
    (fun s event h => (approvalsStep_step lib s event h).table h) run htable

theorem version_exec (state : SystemState) (run : List (Int × SystemOp)) :
    (exec (SystemState.step lib) state run).storage.version = state.storage.version :=
  exec_induction_of_all
    (I := fun later : SystemState => later.storage.version = state.storage.version)
    (fun s event h => (version_step lib s event).trans h) run rfl

theorem table_initial (version : Nat) (rows : RunRows) :
    Table lib (SystemState.initial version rows).storage.approvals := by
  intro id row hget
  cases hget

theorem stored_exec {state : SystemState} (htable : Table lib state.storage.approvals)
    (run : List (Int × SystemOp)) {id : String} {record : ApprovalRecord lib.sha256}
    (hstored : Stored lib state.storage.approvals id record) :
    ∃ record', Stored lib (exec (SystemState.step lib) state run).storage.approvals id record' ∧
      Later record record' := by
  induction run generalizing state record with
  | nil => exact ⟨record, hstored, .refl record⟩
  | cons event run ih =>
    have hstep := approvalsStep_step lib state event htable
    obtain ⟨record₁, hstored₁, hmoved⟩ := hstep.stored hstored
    have hlater : Later record record₁ := by
      rcases hmoved with rfl | hmoved
      · exact .refl record₁
      · exact hmoved.later
    obtain ⟨record₂, hstored₂, hlater₂⟩ := ih (hstep.table htable) hstored₁
    exact ⟨record₂, hstored₂, hlater.trans hlater₂⟩

/-! ### Replays and refusals -/

section

variable {s s' : SqliteState} {clock : Int} {command : ApprovalDecisionCommand}
  {principalId : String}

theorem transaction_of_ok {α : Type} {body : Tx α} {a : α} (hversion : s'.version = 5)
    (h : body s = .ok (a, s')) : transaction body s = .ok (a, s') := by
  have hcheck : ¬ (s'.version = 4 ∧ hasToolReadyCheckpoint s' = true) := by
    rw [hversion]
    simp
  exact Transaction.bind_eq_ok.2
    ⟨a, s', h, read_bind_eq_ok.2 (refuse_eq_ok.2 ⟨hcheck, pure_eq_ok.2 ⟨rfl, rfl⟩⟩)⟩

/-- What an accepted command leaves: the record of its decision. -/
theorem decide_accepted {allowed : Option Bool} {answer : ApprovalReceipt}
    (htable : Table lib s.approvals)
    (h : decide lib clock command principalId allowed s = .ok (.ok answer, s')) :
    s.version = 5 ∧ checkText principalId "principal" = .ok () ∧
      ∃ record audit, Stored lib s'.approvals command.approvalId record ∧
        record.decisionAudit = some audit ∧ audit.command = command ∧
        audit.principalId = principalId ∧ receipt lib record = .ok answer := by
  obtain ⟨hversion, hprincipal, -, record, hstored, houtcome⟩ := decide_eq_ok htable h
  refine ⟨hversion, hprincipal, ?_⟩
  rcases houtcome with ⟨audit, haudit, hcommand, hby, hreply, hs'⟩ | ⟨-, -, -, houtcome⟩
  · exact ⟨record, audit, hs' ▸ hstored, haudit, hcommand, hby, hreply.symm⟩
  · have hid : record.approvalId = command.approvalId := by
      obtain ⟨row, -, hrow⟩ := hstored
      exact hrow.approvalId
    generalize hreply : (Except.ok answer : Except PyError ApprovalReceipt) = reply at houtcome
    cases houtcome with
    | refused e kept => cases hreply
    | closed => cases hreply
    | accepted _ record' row' _ after written audit =>
      rw [hid] at after written
      refine ⟨record', _, ⟨row', ?_, after⟩, audit, rfl, rfl, rfl⟩
      rw [written, Dict.get?_set, if_pos rfl]

/-- **A replay answers with the original receipt** and leaves the storage as it is. -/
theorem decide_replay {record record' : ApprovalRecord lib.sha256} {audit : DecisionAudit}
    {answer : ApprovalReceipt} (hversion : s.version = 5)
    (hprincipal : checkText audit.principalId "principal" = .ok ())
    (haudit : record.decisionAudit = some audit) (hanswer : receipt lib record = .ok answer)
    (hlater : Later record record')
    (hstored : Stored lib s.approvals audit.command.approvalId record') :
    decide lib clock audit.command audit.principalId (some true) s = .ok (.ok answer, s) := by
  have haudit' : record'.decisionAudit = some audit := by
    rw [hlater.audit (by rw [haudit]; rfl), haudit]
  have hanswer' : receipt lib record' = .ok answer := by
    unfold receipt at hanswer ⊢
    rw [haudit', hlater.intent, hlater.approvalId]
    rwa [haudit] at hanswer
  refine ofExcept_bind_eq_ok.2 ⟨(), hprincipal, transaction_of_ok hversion ?_⟩
  refine Transaction.bind_eq_ok.2 ⟨record', s, load_of_stored hversion hstored, ?_⟩
  simp only [haudit']
  refine ite_eq_ok.2 (Or.inl ⟨trivial, refuse_eq_ok.2 ⟨by simp, pure_eq_ok.2 ⟨hanswer'.symm, rfl⟩⟩⟩)

/-- A command does not fit a record: its key was used for other content or by another principal, its
revision is stale, or it names another intent. -/
def Unfit (record : ApprovalRecord lib.sha256) (command : ApprovalDecisionCommand)
    (principalId : String) : Prop :=
  (∃ audit, record.decisionAudit = some audit ∧ audit.command.commandKey = command.commandKey ∧
      (audit.principalId ≠ principalId ∨ audit.command ≠ command)) ∨
    record.revision ≠ command.expectedRevision ∨
    record.intent.digest lib.sha256 ≠ .ok command.intentDigest

theorem decide_unfit {allowed : Option Bool} {record : ApprovalRecord lib.sha256}
    (htable : Table lib s.approvals) (hstored : Stored lib s.approvals command.approvalId record)
    (hunfit : Unfit record command principalId) :
    (decide lib clock command principalId allowed).left s = s := by
  rcases left_cases (decide lib clock command principalId allowed) s with
    ⟨reply, s', h, heq⟩ | ⟨-, heq⟩
  · obtain ⟨-, -, -, record', hstored', houtcome⟩ := decide_eq_ok htable h
    obtain rfl := hstored.unique hstored'
    rcases houtcome with ⟨-, -, -, -, -, hs'⟩ | ⟨hdigest, hrevision, hpending, -⟩
    · rw [heq, hs']
    · rcases hunfit with ⟨audit, haudit, -⟩ | hstale | hother
      · rw [record.audit_of_pending hpending] at haudit
        cases haudit
      · exact absurd hrevision hstale
      · exact absurd hdigest hother
  · exact heq

end

/-- **The life of an approval.**  At every point of every run, under any clock: every row loads as
the record that was saved in it; an event leaves a record alone or moves it once; a record that
appears is new; an audit, once set, and a record that has ended stay as they are for the rest of the
run; an accepted command is answered with its receipt whenever it is replayed, and the replay
changes nothing; and a command that does not fit the record changes nothing. -/
theorem approval_lifecycle (lib : PythonLibrary) (version : Nat) (rows : RunRows)
    (run : List (Int × SystemOp)) :
    let state := exec (SystemState.step lib) (.initial version rows) run
    (∀ id row, state.storage.approvals.get? id = some row → ∃ record, RowHolds lib id row record ∧
        ApprovalRecord.fromMapping lib.sha256 row.body = .ok record ∧
        (version = 5 → load lib id state.storage = .ok (record, state.storage))) ∧
      (∀ event id record, Stored lib state.storage.approvals id record →
        ∃ record', Stored lib (state.step lib event).storage.approvals id record' ∧
          (record' = record ∨ RecordMoved record record')) ∧
      (∀ event id record', state.storage.approvals.get? id = none →
        Stored lib (state.step lib event).storage.approvals id record' →
        ∃ record, Fresh record ∧ (record' = record ∨ RecordMoved record record')) ∧
      (∀ run' id record, Stored lib state.storage.approvals id record →
        ∃ record', Stored lib (exec (SystemState.step lib) state run').storage.approvals id record' ∧
          Later record record') ∧
      (∀ clock command principalId allowed answer storage,
        decide lib clock command principalId allowed state.storage = .ok (.ok answer, storage) →
        ∀ run' clock', let later := exec (SystemState.step lib) { state with storage } run'
          decide lib clock' command principalId (some true) later.storage =
            .ok (.ok answer, later.storage)) ∧
      (∀ clock command principalId allowed record,
        Stored lib state.storage.approvals command.approvalId record →
        Unfit record command principalId →
        (decide lib clock command principalId allowed).left state.storage = state.storage) := by
  intro state
  have htable : Table lib state.storage.approvals := table_exec (table_initial version rows) run
  refine ⟨fun id row hget => ?_, fun event id record hstored =>
    (approvalsStep_step lib state event htable).stored hstored,
    fun event id record' hmissing hstored =>
      (approvalsStep_step lib state event htable).appears hmissing hstored,
    fun run' id record hstored => stored_exec htable run' hstored, ?_,
    fun clock command principalId allowed record hstored hunfit =>
      decide_unfit htable hstored hunfit⟩
  · obtain ⟨record, hrow⟩ := htable id row hget
    refine ⟨record, hrow, hrow.fromMapping, fun hversion => ?_⟩
    have hkept : state.storage.version = version := version_exec _ run
    exact load_of_stored (hkept.trans hversion) ⟨row, hget, hrow⟩
  · intro clock command principalId allowed answer storage hdecide run' clock' later
    obtain ⟨hversion, hprincipal, record, audit, hstored, haudit, rfl, rfl, hanswer⟩ :=
      decide_accepted htable hdecide
    have hafter : Table lib storage.approvals := (approvalsStep_decide htable hdecide).table htable
    let decided : SystemState := { state with storage }
    obtain ⟨record', hstored', hlater⟩ : ∃ record',
        Stored lib (exec (SystemState.step lib) decided run').storage.approvals _ record' ∧
          Later record record' := stored_exec hafter run' hstored
    have hkept : later.storage.version = 5 := by
      rw [version_exec, ← hversion]
      have hrows : dispatchRows _ = dispatchRows _ :=
        keeps_decide (fun _ _ => rfl) (fun _ _ _ => rfl) clock audit.command audit.principalId
          allowed _ _ _ hdecide
      exact congrArg (fun rows => rows.1) hrows
    exact decide_replay hkept hprincipal haudit hanswer hlater hstored'

end

end Purra
