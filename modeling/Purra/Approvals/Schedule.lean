import Mathlib
import Purra.Lib.Revision
import Purra.Approvals.LeaseFencing

/-!
# The recovery schedule

Hints for the recovery worker, one row for each Run that is registered
(`purra_sqlite/recovery_schedule.py`).  `check` reads a row and hands out its revision as a
token; `settle` writes the row if the revision is still the token's.  A Run without a row
borrows the scope's counter for a token, and `prune_recovery_schedule` takes rows away, so
that a row may come, go and come back between the two.

`schedule_fenced` says that no token survives this: every write and every removal moves the
counter past all tokens that were handed out (`Purra.Lib.Revision`).
-/

namespace Purra

open Transaction StorageSession

/-- `SqliteRecoverySchedule`, as its constructor accepts it. -/
structure SqliteRecoverySchedule where
  interval : Int
  maximum : Int
  maxFailures : Option Int
  interval_pos : 0 < interval
  interval_le : interval ≤ maximum
  maximum_le : maximum ≤ 2147483647
  maxFailures_bounds : ∀ limit ∈ maxFailures, 1 ≤ limit ∧ limit ≤ 31

namespace RecoverySchedule

/-! ## The methods -/

/-- `next_revision`. -/
def nextRevision (state : SqliteState) (current : Int) : Except PyError Int := do
  checkInteger state.recoveryScheduleRevision
  let revision := max state.recoveryScheduleRevision current + 1
  checkInteger revision
  .ok revision

/-- A row is written under a new revision. -/
def putRow (runId : String) (row : ScheduleRow) : Tx Unit :=
  write fun state => { state with
    recoverySchedule := state.recoverySchedule.set runId row
    recoveryScheduleRevision := row.revision }

/-- What `check` returns. -/
structure Eligibility where
  revision : Option Int
  reason : Option String

/-- `check`. -/
def check (schedule : SqliteRecoverySchedule) (clock : Int) (runId : String) : Tx Eligibility := do
  let state ← read
  let row ← ofExcept (row state runId)
  if schedule.maxFailures.any (· ≤ row.failures) = true then pure ⟨none, some "retry_exhausted"⟩
  else do
    ofExcept (checkInteger clock)
    if clock < row.notBeforeMs then pure ⟨none, some "retry_not_due"⟩
    else pure ⟨some row.revision, none⟩

/-- The failures a row counts after a scan. -/
def failuresAfter (row : ScheduleRow) (failed : Bool) : Int :=
  if failed then min (row.failures + 1) 31 else 0

/-- `min(max_backoff, interval * 2 ** failures)`. -/
def delay (schedule : SqliteRecoverySchedule) (failures : Int) : Int :=
  min schedule.maximum (schedule.interval * 2 ^ failures.toNat)

/-- `settle`. -/
def settle (schedule : SqliteRecoverySchedule) (clock : Int) (runId : String) (revision : Int)
    (failed : Bool) : Tx Bool := do
  ofExcept (checkInteger revision)
  transaction do
    let state ← read
    let row ← ofExcept (row state runId)
    if row.revision ≠ revision then pure false
    else do
      let failures := failuresAfter row failed
      let next ← ofExcept (nextRevision state revision)
      ofExcept (checkInteger clock)
      ofExcept (checkInteger (clock + delay schedule failures))
      putRow runId ⟨next, failures, clock + delay schedule failures⟩
      pure true

/-- `SqliteRecoverySchedule.wake`. -/
def wakeRun (runId : String) : Tx Int :=
  transaction do
    let state ← read
    let row ← ofExcept (row state runId)
    let revision ← ofExcept (nextRevision state row.revision)
    putRow runId ⟨revision, 0, 0⟩
    pure revision

/-- `remove_recovery_schedule`. -/
def removeRow (runId : String) : Tx Bool := do
  let state ← read
  let row ← ofExcept (row state runId)
  if runId ∉ state.recoverySchedule.keys then pure false
  else do
    let revision ← ofExcept (nextRevision state row.revision)
    write fun state => { state with
      recoverySchedule := state.recoverySchedule.erase runId
      recoveryScheduleRevision := revision }
    pure true

/-- The loop of `prune_recovery_schedule`. -/
def pruneRuns : List String → Tx (List String)
  | [] => pure []
  | runId :: rest => do
    let saved ← getRun runId
    let removed ← if saved.status ≠ .running then removeRow runId else pure false
    let others ← pruneRuns rest
    pure (if removed then runId :: others else others)

/-- `prune_recovery_schedule`. -/
def prune (runIds : List String) : Tx (List String) := transaction (pruneRuns (Dict.fromKeys runIds))

end RecoverySchedule

/-! ## The system -/

/-- One call on the schedule, or any other event of the scope. -/
inductive ScheduleOp where
  | system (event : Int × SystemOp)
  | check (schedule : SqliteRecoverySchedule) (clock : Int) (runId : String)
  | settle (schedule : SqliteRecoverySchedule) (clock : Int) (runId : String) (revision : Int)
      (failed : Bool)
  | wake (runId : String)
  | prune (runIds : List String)

/-- The state after a call; approvals and reconciliations wake a Run on their own. -/
def ScheduleOp.step (lib : PythonLibrary) (state : SystemState) : ScheduleOp → SystemState
  | .system event => state.step lib event
  | .check schedule clock runId =>
    { state with storage := (RecoverySchedule.check schedule clock runId).left state.storage }
  | .settle schedule clock runId revision failed =>
    { state with
      storage := (RecoverySchedule.settle schedule clock runId revision failed).left state.storage }
  | .wake runId => { state with storage := (RecoverySchedule.wakeRun runId).left state.storage }
  | .prune runIds => { state with storage := (RecoverySchedule.prune runIds).left state.storage }

/-! ## What is written -/

/-- The rows of the schedule and its counter. -/
def schedule (s : SqliteState) : Dict String ScheduleRow × Int :=
  (s.recoverySchedule, s.recoveryScheduleRevision)

/-- The revisions of the rows, and the counter. -/
def revisions (s : SqliteState) : Revisions String Int where
  counter := s.recoveryScheduleRevision
  row runId := (s.recoverySchedule.get? runId).map (·.revision)

/-- A row is written under a revision past the counter. -/
structure RowWritten (s s' : SqliteState) (runId : String) (row : ScheduleRow) : Prop where
  ahead : s.recoveryScheduleRevision < row.revision
  schedule_eq : schedule s' = (s.recoverySchedule.set runId row, row.revision)

/-- A row is removed, and the counter moves on. -/
structure RowRemoved (s s' : SqliteState) (runId : String) (revision : Int) : Prop where
  ahead : s.recoveryScheduleRevision < revision
  schedule_eq : schedule s' = (s.recoverySchedule.erase runId, revision)

section

variable {s s' : SqliteState} {runId : String} {row : ScheduleRow} {revision : Int}

theorem revisions_of_schedule (h : schedule s' = schedule s) : revisions s' = revisions s := by
  obtain ⟨hrows, hcounter⟩ := Prod.mk.inj h
  unfold revisions
  rw [hrows, hcounter]

theorem RowWritten.get? (h : RowWritten s s' runId row) (other : String) :
    s'.recoverySchedule.get? other =
      if other = runId then some row else s.recoverySchedule.get? other := by
  rw [(Prod.mk.inj h.schedule_eq).1, Dict.get?_set]

theorem RowWritten.counter (h : RowWritten s s' runId row) :
    s'.recoveryScheduleRevision = row.revision := (Prod.mk.inj h.schedule_eq).2

theorem RowWritten.touched (h : RowWritten s s' runId row) :
    Revisions.Touched runId (revisions s) (revisions s') where
  ahead := by
    show s.recoveryScheduleRevision < s'.recoveryScheduleRevision
    rw [h.counter]
    exact h.ahead
  row r hr := by
    have hget : (s'.recoverySchedule.get? runId).map (·.revision) = some r := hr
    rw [h.get?, if_pos rfl] at hget
    show r = s'.recoveryScheduleRevision
    rw [h.counter]
    exact (Option.some.inj hget).symm
  others other hother := by
    show (s'.recoverySchedule.get? other).map _ = (s.recoverySchedule.get? other).map _
    rw [h.get?, if_neg hother]

theorem RowRemoved.touched (h : RowRemoved s s' runId revision) :
    Revisions.Touched runId (revisions s) (revisions s') where
  ahead := by
    show s.recoveryScheduleRevision < s'.recoveryScheduleRevision
    rw [(Prod.mk.inj h.schedule_eq).2]
    exact h.ahead
  row r hr := by
    have hget : (s'.recoverySchedule.get? runId).map (·.revision) = some r := hr
    rw [(Prod.mk.inj h.schedule_eq).1, Dict.get?_erase_self] at hget
    cases hget
  others other hother := by
    show (s'.recoverySchedule.get? other).map _ = (s.recoverySchedule.get? other).map _
    rw [(Prod.mk.inj h.schedule_eq).1, Dict.get?_erase_of_ne hother]

end

/-! ## What the methods do -/

namespace RecoverySchedule

section

variable {s s' : SqliteState} {runId : String} {row : ScheduleRow} {current revision : Int}

/-- The row a reader of the schedule works with. -/
def seen (s : SqliteState) (runId : String) : ScheduleRow :=
  (s.recoverySchedule.get? runId).getD ⟨s.recoveryScheduleRevision, 0, 0⟩

/-- Its revision is the token of the Run. -/
theorem seen_revision (s : SqliteState) (runId : String) :
    (seen s runId).revision = (revisions s).token runId := by
  unfold seen Revisions.token revisions
  cases hget : s.recoverySchedule.get? runId <;> simp [hget]

theorem row_eq_ok (h : RecoverySchedule.row s runId = .ok row) :
    row = seen s runId ∧ 0 ≤ row.failures := by
  unfold RecoverySchedule.row at h
  by_cases hblank : strip runId = ""
  · rw [if_pos hblank] at h
    cases h
  · rw [if_neg hblank] at h
    obtain ⟨_, -, h⟩ := bind_eq_ok h
    obtain ⟨_, -, h⟩ := bind_eq_ok h
    obtain ⟨_, hfailures, h⟩ := bind_eq_ok h
    obtain ⟨_, -, h⟩ := bind_eq_ok h
    cases h
    refine ⟨rfl, ?_⟩
    unfold checkInteger at hfailures
    by_cases hbounds : 0 ≤ (seen s runId).failures ∧ (seen s runId).failures < safeInteger
    · exact hbounds.1
    · unfold seen at hbounds
      rw [if_neg hbounds] at hfailures
      cases hfailures

theorem nextRevision_eq_ok (h : nextRevision s current = .ok revision) :
    s.recoveryScheduleRevision < revision := by
  obtain ⟨_, -, h⟩ := bind_eq_ok h
  obtain ⟨_, -, h⟩ := bind_eq_ok h
  cases h
  have hmax := le_max_left s.recoveryScheduleRevision current
  omega

/-- What putting a row under a new revision leaves. -/
theorem putRow_written (h : s.recoveryScheduleRevision < row.revision)
    (hput : putRow runId row s = .ok ((), s')) : RowWritten s s' runId row := by
  rw [write_eq_ok.1 hput]
  exact ⟨h, rfl⟩

/-- A token is the revision of the row a check found. -/
theorem check_eq_ok {schedule : SqliteRecoverySchedule} {clock token : Int} {reason : Option String}
    (h : check schedule clock runId s = .ok (⟨some token, reason⟩, s')) :
    token = (revisions s).token runId := by
  obtain ⟨row, hrow, h⟩ := ofExcept_bind_eq_ok.1 (read_bind_eq_ok.1 h)
  rcases ite_eq_ok.1 h with ⟨-, h⟩ | ⟨-, h⟩
  · cases (pure_eq_ok.1 h).1
  · obtain ⟨_, -, h⟩ := ofExcept_bind_eq_ok.1 h
    rcases ite_eq_ok.1 h with ⟨-, h⟩ | ⟨-, h⟩
    · cases (pure_eq_ok.1 h).1
    · have htoken : token = row.revision :=
        Option.some.inj (congrArg Eligibility.revision (pure_eq_ok.1 h).1)
      rw [htoken, (row_eq_ok hrow).1, seen_revision]

theorem readOnly_check (schedule : SqliteRecoverySchedule) (clock : Int) (runId : String) :
    ReadOnly (check schedule clock runId) :=
  keeps_read_bind fun _ => keeps_ofExcept_bind fun _ => keeps_ite (keeps_pure _)
    (keeps_ofExcept_bind fun _ => keeps_ite (keeps_pure _) (keeps_pure _))

/-- What a settlement leaves: the row is written if the token is the Run's, and nothing is
otherwise. -/
theorem settle_eq_ok {schedule : SqliteRecoverySchedule} {clock token : Int} {failed written : Bool}
    (h : settle schedule clock runId token failed s = .ok (written, s')) :
    (written = false ∧ s' = s) ∨
      (written = true ∧ token = (revisions s).token runId ∧ 0 ≤ (seen s runId).failures ∧
        ∃ revision, RowWritten s s' runId ⟨revision, failuresAfter (seen s runId) failed,
          clock + delay schedule (failuresAfter (seen s runId) failed)⟩) := by
  obtain ⟨_, -, h⟩ := ofExcept_bind_eq_ok.1 h
  obtain ⟨row, hrow, h⟩ := ofExcept_bind_eq_ok.1 (read_bind_eq_ok.1 (transaction_eq_ok h))
  obtain ⟨hseen, hfailures⟩ := row_eq_ok hrow
  rw [hseen] at h hfailures
  rcases ite_eq_ok.1 h with ⟨-, h⟩ | ⟨hsame, h⟩
  · exact Or.inl (pure_eq_ok.1 h)
  · obtain ⟨next, hnext, h⟩ := ofExcept_bind_eq_ok.1 h
    obtain ⟨_, -, h⟩ := ofExcept_bind_eq_ok.1 h
    obtain ⟨_, -, h⟩ := ofExcept_bind_eq_ok.1 h
    obtain ⟨_, s₁, hput, h⟩ := Transaction.bind_eq_ok.1 h
    obtain ⟨hwritten, hs'⟩ := pure_eq_ok.1 h
    rw [hs']
    rw [seen_revision, not_not] at hsame
    exact Or.inr ⟨hwritten, hsame.symm, hfailures, next,
      putRow_written (nextRevision_eq_ok hnext) hput⟩

theorem wakeRun_eq_ok (h : wakeRun runId s = .ok (revision, s')) :
    RowWritten s s' runId ⟨revision, 0, 0⟩ := by
  obtain ⟨row, -, h⟩ := ofExcept_bind_eq_ok.1 (read_bind_eq_ok.1 (transaction_eq_ok h))
  obtain ⟨next, hnext, h⟩ := ofExcept_bind_eq_ok.1 h
  obtain ⟨_, s₁, hput, h⟩ := Transaction.bind_eq_ok.1 h
  obtain ⟨hrevision, hs'⟩ := pure_eq_ok.1 h
  rw [hs', hrevision]
  exact putRow_written (nextRevision_eq_ok hnext) hput

theorem removeRow_eq_ok {removed : Bool} (h : removeRow runId s = .ok (removed, s')) :
    s' = s ∨ ∃ revision, RowRemoved s s' runId revision := by
  obtain ⟨row, -, h⟩ := ofExcept_bind_eq_ok.1 (read_bind_eq_ok.1 h)
  rcases ite_eq_ok.1 h with ⟨-, h⟩ | ⟨-, h⟩
  · exact Or.inl (pure_eq_ok.1 h).2
  · obtain ⟨next, hnext, h⟩ := ofExcept_bind_eq_ok.1 h
    replace h := write_bind_eq_ok.1 h
    rw [(pure_eq_ok.1 h).2]
    exact Or.inr ⟨next, nextRevision_eq_ok hnext, rfl⟩

end

end RecoverySchedule

open RecoverySchedule

/-- Rows were only removed. -/
structure Pruned (s s' : SqliteState) : Prop where
  moves : Revisions.Moves (revisions s) (revisions s')
  get? : ∀ runId, s'.recoverySchedule.get? runId = s.recoverySchedule.get? runId ∨
    s'.recoverySchedule.get? runId = none

/-- At most one row was written, with nothing to wait for: what approvals and reconciliations do. -/
def Hinted (s s' : SqliteState) : Prop :=
  schedule s' = schedule s ∨ ∃ runId revision, RowWritten s s' runId ⟨revision, 0, 0⟩

section

variable {s s' s'' : SqliteState} {runId : String} {revision : Int}

theorem Pruned.refl (s : SqliteState) : Pruned s s := ⟨.refl, fun _ => Or.inl rfl⟩

theorem Pruned.trans (h : Pruned s s') (h' : Pruned s' s'') : Pruned s s'' := by
  refine ⟨h.moves.trans h'.moves, fun runId => ?_⟩
  rcases h'.get? runId with hget' | hnone
  · rcases h.get? runId with hget | hnone
    · exact Or.inl (hget'.trans hget)
    · exact Or.inr (hget'.trans hnone)
  · exact Or.inr hnone

theorem RowRemoved.pruned (h : RowRemoved s s' runId revision) : Pruned s s' := by
  refine ⟨.single ⟨runId, h.touched⟩, fun other => ?_⟩
  rw [(Prod.mk.inj h.schedule_eq).1]
  by_cases hother : other = runId
  · rw [hother, Dict.get?_erase_self]
    exact Or.inr rfl
  · rw [Dict.get?_erase_of_ne hother]
    exact Or.inl rfl

theorem pruneRuns_pruned {runIds removed : List String}
    (h : pruneRuns runIds s = .ok (removed, s')) : Pruned s s' := by
  induction runIds generalizing s removed with
  | nil =>
    rw [(pure_eq_ok.1 h).2]
    exact Pruned.refl s
  | cons runId rest ih =>
    obtain ⟨saved, s₁, hget, h⟩ := Transaction.bind_eq_ok.1 h
    rw [ReadOnly.eq (keeps_getRun _) hget] at h
    have hrest : ∀ {gone : Bool} {s₂ : SqliteState} {all : List String},
        (pruneRuns rest >>= fun others => pure (if gone then runId :: others else others)) s₂ =
          .ok (all, s') → Pruned s₂ s' := by
      intro gone s₂ all h
      obtain ⟨others, s₃, hothers, h⟩ := Transaction.bind_eq_ok.1 h
      rw [← (pure_eq_ok.1 h).2] at hothers
      exact ih hothers
    rcases ite_eq_ok.1 h with ⟨-, h⟩ | ⟨-, h⟩
    · obtain ⟨gone, s₂, hremove, h⟩ := Transaction.bind_eq_ok.1 h
      rcases removeRow_eq_ok hremove with hs₂ | ⟨revision, hremoved⟩
      · rw [hs₂] at h
        exact hrest h
      · exact hremoved.pruned.trans (hrest h)
    · exact hrest h

theorem Hinted.of_schedule_left {t : SqliteState} (h : schedule t = schedule s)
    (hhinted : Hinted t s') : Hinted s s' := by
  rcases hhinted with hkept | ⟨runId, revision, hwritten⟩
  · exact Or.inl (hkept.trans h)
  · refine Or.inr ⟨runId, revision, ?_, ?_⟩
    · rw [← (Prod.mk.inj h).2]
      exact hwritten.ahead
    · rw [← (Prod.mk.inj h).1]
      exact hwritten.schedule_eq

/-- Whatever the transaction commits, it gave a hint at most. -/
def Hints {α : Type} (m : Tx α) : Prop := ∀ s a s', m s = .ok (a, s') → Hinted s s'

variable {α β : Type} {m : Tx α} {f : α → Tx β}

theorem hints_of_keeps (hm : Keeps schedule m) : Hints m :=
  fun s a s' h => Or.inl (hm s a s' h)

theorem hints_bind (hm : Keeps schedule m) (hf : ∀ a, Hints (f a)) : Hints (m >>= f) := by
  intro s b s' h
  obtain ⟨a, s₁, hma, hfa⟩ := Transaction.bind_eq_ok.1 h
  exact Hinted.of_schedule_left (hm s a s₁ hma) (hf a s₁ b s' hfa)

theorem hints_bind_pure (hm : Hints m) (g : α → β) : Hints (m >>= fun a => pure (g a)) := by
  intro s b s' h
  obtain ⟨a, s₁, hma, hfa⟩ := Transaction.bind_eq_ok.1 h
  rw [(pure_eq_ok.1 hfa).2]
  exact hm s a s₁ hma

theorem hints_ite {c : Prop} [Decidable c] {m' : Tx α} (hm : Hints m) (hm' : Hints m') :
    Hints (if c then m else m') := by
  by_cases hc : c
  · rw [if_pos hc]
    exact hm
  · rw [if_neg hc]
    exact hm'

theorem hints_transaction (hm : Hints m) : Hints (transaction m) :=
  fun s a s' h => hm s a s' (transaction_eq_ok h)

theorem hints_wake (runId : String) : Hints (RecoverySchedule.wake runId) := by
  intro s u s' h
  obtain ⟨row, -, h⟩ := ofExcept_bind_eq_ok.1 (read_bind_eq_ok.1 h)
  rcases ite_eq_ok.1 h with ⟨-, h⟩ | ⟨-, h⟩
  · rw [(pure_eq_ok.1 h).2]
    exact Or.inl rfl
  · obtain ⟨_, -, h⟩ := ofExcept_bind_eq_ok.1 h
    rw [write_eq_ok.1 h]
    refine Or.inr ⟨runId, _, ?_, rfl⟩
    have hmax := le_max_left s.recoveryScheduleRevision row.revision
    show s.recoveryScheduleRevision < max s.recoveryScheduleRevision row.revision + 1
    omega

end

section

variable {lib : PythonLibrary}

theorem hints_decideRecord (clock : Int) (command : ApprovalDecisionCommand) (principalId : String)
    (record : ApprovalRecord lib.sha256) :
    Hints (SqliteApprovalStore.decideRecord lib clock command principalId record) := by
  refine hints_bind (keeps_ofExcept _) fun _ => hints_ite (hints_of_keeps (keeps_raise _)) ?_
  refine hints_bind ((SqliteApprovalStore.readOnly_now _).keeps _) fun _ =>
    hints_bind (SqliteApprovalStore.keeps_refreshRecord (fun _ _ => rfl) _ _) fun _ =>
      hints_ite (hints_of_keeps (keeps_pure _)) (hints_ite (hints_of_keeps (keeps_pure _)) ?_)
  exact hints_bind (keeps_ofExcept _) fun _ =>
    hints_bind (SqliteApprovalStore.keeps_save (fun _ _ => rfl) _) fun _ =>
      hints_bind_pure (hints_wake _) _

theorem hints_decide (clock : Int) (command : ApprovalDecisionCommand) (principalId : String)
    (allowed : Option Bool) :
    Hints (SqliteApprovalStore.decide lib clock command principalId allowed) := by
  refine hints_bind (keeps_ofExcept _) fun _ => ?_
  cases allowed with
  | none => exact hints_of_keeps (keeps_raise _)
  | some answer =>
    cases answer with
    | false => exact hints_of_keeps (keeps_raise _)
    | true =>
      refine hints_transaction (hints_bind ((SqliteApprovalStore.readOnly_load _).keeps _)
        fun record => ?_)
      cases record.decisionAudit with
      | none => exact hints_decideRecord _ _ _ _
      | some audit =>
        exact hints_ite (hints_ite (hints_of_keeps (keeps_raise _)) (hints_of_keeps (keeps_pure _)))
          (hints_decideRecord _ _ _ _)

theorem hints_reconcileTool (wall : Int) (runId : String) (call : ToolCall)
    (evidence : ToolIdempotency.Evidence) :
    Hints (ToolIdempotency.reconcileTool lib wall runId call evidence) := by
  refine hints_transaction (hints_bind keeps_read fun _ =>
    hints_ite (hints_of_keeps (keeps_raise _)) ?_)
  exact hints_bind ((ToolIdempotency.readOnly_reconcileApproval _ _ _ _).keeps _) fun approval =>
    hints_bind (ToolIdempotency.keeps_storeEvidence (fun _ _ => rfl) _ _ _) fun _ =>
      hints_bind (ToolIdempotency.keeps_settleEntry (fun _ _ _ => rfl) _ approval) fun _ =>
        hints_bind (keeps_write fun _ => rfl) fun _ => hints_wake _

theorem Hints.left {α : Type} {m : Tx α} (hm : Hints m) (s : SqliteState) : Hinted s (m.left s) :=
  left_rel (R := Hinted) (fun _ => Or.inl rfl) hm s

theorem schedule_of_besideLeases {s s' : SqliteState} (h : besideLeases s' = besideLeases s) :
    schedule s' = schedule s := by
  have hschedule := congrArg schedule h
  exact hschedule

theorem schedule_of_besideRuns {s s' : SqliteState} (h : besideRuns s' = besideRuns s) :
    schedule s' = schedule s := by
  have hschedule := congrArg schedule h
  exact hschedule

/-- No operation of the store does more than give a hint. -/
theorem hinted_apply (wall : Int) (s : SqliteState) (op : StoreOp) :
    Hinted s (op.apply lib wall s) := by
  cases op with
  | create clock intent expires =>
    exact Or.inl ((SqliteApprovalStore.keeps_create (fun _ _ => rfl) _ _ _).left_eq s)
  | prepare =>
    exact Or.inl ((SqliteApprovalStore.keeps_prepare (fun _ _ => rfl) (fun _ _ => rfl)
      _ _ _ _ _ _ _).left_eq s)
  | decide => exact (hints_decide _ _ _ _).left s
  | refresh clock approvalId =>
    exact Or.inl ((SqliteApprovalStore.keeps_refresh (fun _ _ => rfl) _ _).left_eq s)
  | request =>
    exact Or.inl (((SqliteApprovalStore.readOnly_request _ _ _ _ _ _).keeps _).left_eq s)
  | claimLease run owner duration =>
    exact Or.inl (schedule_of_besideLeases ((LeaseStore.keeps_claim _ _ _ _).left_eq s))
  | renewLease =>
    exact Or.inl (schedule_of_besideLeases ((LeaseStore.keeps_renew _ _ _ _ _).left_eq s))
  | releaseLease context run owner =>
    exact Or.inl (schedule_of_besideLeases ((LeaseStore.keeps_release _ _ _).left_eq s))
  | requestCancellation run =>
    exact Or.inl (schedule_of_besideLeases ((LeaseStore.keeps_requestCancellation _ _).left_eq s))
  | portWrite context guarded update =>
    exact Or.inl (schedule_of_besideRuns ((LeaseStore.keeps_portWrite _ _ _ _).left_eq s))
  | reconcileTool run call evidence => exact (hints_reconcileTool _ _ _ _).left s

theorem hinted_step (lib : PythonLibrary) (state : SystemState) (event : Int × SystemOp) :
    Hinted state.storage (state.step lib event).storage := by
  obtain ⟨wall, op⟩ := event
  unfold SystemState.step
  cases op with
  | store op => exact hinted_apply wall state.storage op
  | begin context clock run call =>
    cases hbegin : ToolIdempotency.executeBegin lib context wall clock run call state.storage with
    | error e => exact Or.inl (by simp only [hbegin])
    | ok p =>
      obtain ⟨begun, storage⟩ := p
      have hkept : schedule storage = schedule state.storage :=
        ToolIdempotency.keeps_executeBegin (fun _ _ _ => rfl) context wall clock run call _ _ _
          hbegin
      cases begun <;> exact Or.inl (by simpa only [hbegin] using hkept)
  | start flight =>
    cases hflight : state.flightIn flight .claimed with
    | none => exact Or.inl (by simp only [hflight])
    | some f =>
      refine Or.inl ?_
      simp only [hflight]
      rfl
  | complete flight result =>
    cases hflight : state.flightIn flight .started with
    | none => exact Or.inl (by simp only [hflight])
    | some f =>
      refine Or.inl ?_
      simp only [hflight]
      exact (ToolIdempotency.keeps_executeComplete (fun _ _ _ => rfl) (fun _ _ => rfl)
        _ _ _ _ _ _).left_eq _
  | crash flight => exact Or.inl rfl

end

/-! ## One step -/

/-- A row is new after a step. -/
def Wrote (s s' : SqliteState) (runId : String) (row : ScheduleRow) : Prop :=
  s'.recoverySchedule.get? runId = some row ∧ s.recoverySchedule.get? runId ≠ some row

/-- What a call may write for a Run, in the state it finds. -/
def ScheduleOp.Gives (s : SqliteState) (runId : String) (row : ScheduleRow) : ScheduleOp → Prop
  | .settle schedule clock settled token failed =>
    settled = runId ∧ (RecoverySchedule.settle schedule clock settled token failed).reply s = .ok true ∧
      row.failures = failuresAfter (seen s runId) failed ∧
      row.notBeforeMs = clock + delay schedule row.failures
  | .wake woken =>
    woken = runId ∧ row.failures = 0 ∧ row.notBeforeMs = 0
  | .system _ => row.failures = 0 ∧ row.notBeforeMs = 0
  | .check .. | .prune .. => False

/-- One step writes one row, or none and takes some away. -/
inductive ScheduleStep (s s' : SqliteState) (op : ScheduleOp) : Prop where
  | wrote {runId : String} {row : ScheduleRow} (written : RowWritten s s' runId row)
      (gives : op.Gives s runId row) (failures : 0 ≤ row.failures ∧ row.failures ≤ 31)
  | pruned (h : Pruned s s')

section

variable {s s' : SqliteState} {op : ScheduleOp} {runId : String} {row : ScheduleRow}

theorem pruned_of_schedule (h : schedule s' = schedule s) : Pruned s s' := by
  refine ⟨?_, fun runId => Or.inl ?_⟩
  · rw [revisions_of_schedule h]
    exact .refl
  · rw [(Prod.mk.inj h).1]

theorem failuresAfter_bounds {failed : Bool} (h : 0 ≤ row.failures) :
    0 ≤ failuresAfter row failed ∧ failuresAfter row failed ≤ 31 := by
  unfold failuresAfter
  cases failed with
  | true =>
    simp only [if_true]
    omega
  | false => simp

/-- **What one event can do to the schedule.** -/
theorem scheduleStep_step (lib : PythonLibrary) (state : SystemState) (op : ScheduleOp) :
    ScheduleStep state.storage (op.step lib state).storage op := by
  cases op with
  | system event =>
    rcases hinted_step lib state event with hkept | ⟨runId, revision, hwritten⟩
    · exact .pruned (pruned_of_schedule hkept)
    · exact .wrote hwritten ⟨rfl, rfl⟩ ⟨le_refl 0, by simp⟩
  | check options clock runId =>
    have hkept := (readOnly_check options clock runId).left_eq state.storage
    exact .pruned (pruned_of_schedule (congrArg schedule hkept))
  | settle schedule clock runId token failed =>
    show ScheduleStep state.storage ((settle schedule clock runId token failed).left state.storage) _
    rcases left_cases (settle schedule clock runId token failed) state.storage with
      ⟨written, s', hsettle, hleft⟩ | ⟨-, hleft⟩
    · rw [hleft]
      rcases settle_eq_ok hsettle with ⟨-, hkept⟩ | ⟨hwrote, -, hfailures, revision, hwritten⟩
      · rw [hkept]
        exact .pruned (Pruned.refl _)
      · rw [hwrote] at hsettle
        exact .wrote hwritten ⟨rfl, reply_eq_ok.2 ⟨s', hsettle⟩, rfl, rfl⟩
          (failuresAfter_bounds hfailures)
    · rw [hleft]
      exact .pruned (Pruned.refl _)
  | wake runId =>
    show ScheduleStep state.storage ((wakeRun runId).left state.storage) _
    rcases left_cases (wakeRun runId) state.storage with ⟨revision, s', hwake, hleft⟩ | ⟨-, hleft⟩
    · rw [hleft]
      exact .wrote (wakeRun_eq_ok hwake) ⟨rfl, rfl, rfl⟩ ⟨le_refl 0, by simp⟩
    · rw [hleft]
      exact .pruned (Pruned.refl _)
  | prune runIds =>
    refine .pruned (left_rel (R := Pruned) Pruned.refl (fun s removed s' h => ?_) state.storage)
    exact pruneRuns_pruned (transaction_eq_ok h)

theorem ScheduleStep.moves (h : ScheduleStep s s' op) :
    Revisions.Moves (revisions s) (revisions s') := by
  cases h with
  | wrote written gives failures => exact .single ⟨_, written.touched⟩
  | pruned h => exact h.moves

/-- A Run whose token has not moved has the row it had. -/
theorem ScheduleStep.get?_eq (h : ScheduleStep s s' op) (hs : (revisions s).Bounded)
    (htoken : (revisions s').token runId = (revisions s).token runId) :
    s'.recoverySchedule.get? runId = s.recoverySchedule.get? runId := by
  cases h with
  | @wrote written _ hwritten gives failures =>
    rw [hwritten.get?]
    by_cases hrun : runId = written
    · rw [hrun] at htoken
      exact absurd htoken (hwritten.touched.token_lt hs).ne'
    · rw [if_neg hrun]
  | pruned h =>
    rcases h.get? runId with hget | hnone
    · exact hget
    · by_contra hne
      have hrow : (revisions s').row runId ≠ (revisions s).row runId := by
        intro hrow
        have hmap : (s'.recoverySchedule.get? runId).map (·.revision) =
            (s.recoverySchedule.get? runId).map (·.revision) := hrow
        rw [hnone, Option.map_none, eq_comm, Option.map_eq_none_iff] at hmap
        exact hne (hnone.trans hmap.symm)
      exact absurd htoken (h.moves.token_lt hs hrow).ne'

/-- The row a step wrote. -/
theorem ScheduleStep.of_wrote (h : ScheduleStep s s' op) (hwrote : Wrote s s' runId row) :
    RowWritten s s' runId row ∧ op.Gives s runId row ∧ 0 ≤ row.failures ∧ row.failures ≤ 31 := by
  obtain ⟨hget, hne⟩ := hwrote
  cases h with
  | @wrote written _ hwritten gives failures =>
    rw [hwritten.get?] at hget
    by_cases hrun : runId = written
    · rw [if_pos hrun] at hget
      cases hget
      rw [hrun]
      exact ⟨hwritten, gives, failures⟩
    · rw [if_neg hrun] at hget
      exact absurd hget hne
  | pruned h =>
    rcases h.get? runId with hkept | hnone
    · exact absurd (hkept.symm.trans hget) hne
    · rw [hnone] at hget
      cases hget

/-- A row under a revision past the counter is new. -/
theorem RowWritten.wrote (h : RowWritten s s' runId row) (hs : (revisions s).Bounded) :
    Wrote s s' runId row := by
  refine ⟨by rw [h.get?, if_pos rfl], fun hget => ?_⟩
  have hle : row.revision ≤ s.recoveryScheduleRevision := by
    refine hs runId row.revision ?_
    show (s.recoverySchedule.get? runId).map _ = _
    rw [hget, Option.map_some]
  exact absurd h.ahead hle.not_gt

/-- A settlement writes the row of its Run, or nothing. -/
theorem settle_left {options : SqliteRecoverySchedule} {clock token : Int} {failed : Bool}
    (hs : (revisions s).Bounded) :
    if (settle options clock runId token failed).reply s = .ok true then
      ∃ row, Wrote s ((settle options clock runId token failed).left s) runId row
    else (settle options clock runId token failed).left s = s := by
  have hreply := reply_eq_ok (m := settle options clock runId token failed) (s := s) (a := true)
  rcases left_cases (settle options clock runId token failed) s with
    ⟨written, s', hsettle, hleft⟩ | ⟨⟨e, hraised⟩, hleft⟩
  · rcases settle_eq_ok hsettle with ⟨hfalse, hkept⟩ | ⟨htrue, -, -, revision, hwritten⟩
    · rw [if_neg]
      · exact hleft.trans hkept
      · rw [hreply, hsettle, hfalse]
        rintro ⟨_, h⟩
        cases h
    · rw [htrue] at hsettle
      rw [if_pos (hreply.2 ⟨s', hsettle⟩), hleft]
      exact ⟨_, hwritten.wrote hs⟩
  · rw [if_neg]
    · exact hleft
    · rw [hreply, hraised]
      rintro ⟨_, h⟩
      cases h

theorem wakeRun_left {revision : Int} (hs : (revisions s).Bounded)
    (h : (wakeRun runId).reply s = .ok revision) :
    Wrote s ((wakeRun runId).left s) runId ⟨revision, 0, 0⟩ := by
  obtain ⟨s', hwake⟩ := reply_eq_ok.1 h
  rw [left_of_ok hwake]
  exact (wakeRun_eq_ok hwake).wrote hs

end

/-! ## Every run -/

section

variable (lib : PythonLibrary) (version : Nat) (rows : RunRows)

/-- The storage after a run of a fresh scope. -/
def stateAfter (run : List ScheduleOp) : SqliteState :=
  (exec (ScheduleOp.step lib) (SystemState.initial version rows) run).storage

variable {lib version rows}

theorem scheduleStep_stateAfter (run : List ScheduleOp) (op : ScheduleOp) :
    ScheduleStep (stateAfter lib version rows run) (stateAfter lib version rows (run ++ [op])) op := by
  unfold stateAfter
  rw [exec_append]
  exact scheduleStep_step lib _ op

theorem moves_exec (state : SystemState) (run : List ScheduleOp) :
    Revisions.Moves (revisions state.storage)
      (revisions (exec (ScheduleOp.step lib) state run).storage) := by
  induction run generalizing state with
  | nil => exact .refl
  | cons op run ih => exact (scheduleStep_step lib state op).moves.trans (ih _)

theorem moves_stateAfter (before between : List ScheduleOp) :
    Revisions.Moves (revisions (stateAfter lib version rows before))
      (revisions (stateAfter lib version rows (before ++ between))) := by
  unfold stateAfter
  rw [exec_append]
  exact moves_exec _ between

theorem bounded_stateAfter (run : List ScheduleOp) :
    (revisions (stateAfter lib version rows run)).Bounded :=
  Revisions.Moves.bounded (moves_exec (SystemState.initial version rows) run)
    fun runId revision h => by cases h

/-- Between two states with the same token of a Run, its row stays. -/
theorem get?_eq_of_token {runId : String} {before : List ScheduleOp} :
    ∀ {between part : List ScheduleOp},
      (revisions (stateAfter lib version rows (before ++ between))).token runId =
        (revisions (stateAfter lib version rows before)).token runId →
      part <+: between →
      (stateAfter lib version rows (before ++ part)).recoverySchedule.get? runId =
        (stateAfter lib version rows before).recoverySchedule.get? runId := by
  intro between part htoken hpart
  induction part using List.reverseRecOn with
  | nil => rw [List.append_nil]
  | append_singleton part op ih =>
    obtain ⟨rest, rfl⟩ := hpart
    have hpart : part <+: part ++ [op] ++ rest := ⟨[op] ++ rest, by simp⟩
    rw [← ih hpart]
    -- the token is squeezed between its values at the two ends
    have hfirst : Revisions.Moves (revisions (stateAfter lib version rows before))
        (revisions (stateAfter lib version rows (before ++ part))) := moves_stateAfter before part
    have hstep : ScheduleStep (stateAfter lib version rows (before ++ part))
        (stateAfter lib version rows (before ++ part ++ [op])) op :=
      scheduleStep_stateAfter (before ++ part) op
    have hlast : Revisions.Moves (revisions (stateAfter lib version rows (before ++ part ++ [op])))
        (revisions (stateAfter lib version rows (before ++ part ++ [op] ++ rest))) :=
      moves_stateAfter (before ++ part ++ [op]) rest
    simp only [List.append_assoc] at hstep hlast htoken ⊢
    have h₁ := hfirst.token_le (bounded_stateAfter _) runId
    have h₂ := hstep.moves.token_le (bounded_stateAfter _) runId
    have h₃ := hlast.token_le (bounded_stateAfter _) runId
    exact hstep.get?_eq (bounded_stateAfter _) (by omega)

theorem exec_concat (run : List ScheduleOp) (op : ScheduleOp) :
    stateAfter lib version rows (run ++ [op]) =
      (op.step lib (exec (ScheduleOp.step lib) (SystemState.initial version rows) run)).storage := by
  unfold stateAfter
  rw [exec_append]
  rfl

/-- Every row there is was written by a step of the run. -/
theorem exists_wrote {run : List ScheduleOp} {runId : String} {row : ScheduleRow}
    (h : (stateAfter lib version rows run).recoverySchedule.get? runId = some row) :
    ∃ before op after, run = before ++ op :: after ∧
      Wrote (stateAfter lib version rows before) (stateAfter lib version rows (before ++ [op]))
        runId row := by
  induction run using List.reverseRecOn with
  | nil => cases h
  | append_singleton run op ih =>
    by_cases hold : (stateAfter lib version rows run).recoverySchedule.get? runId = some row
    · obtain ⟨before, op', after, hrun, hwrote⟩ := ih hold
      refine ⟨before, op', after ++ [op], ?_, hwrote⟩
      rw [hrun, List.append_assoc, List.cons_append]
    · exact ⟨run, op, [], rfl, h, hold⟩

/-- Two steps that write, one after the other, write under rising revisions. -/
theorem revision_lt_of_wrote {before between : List ScheduleOp} {op op' : ScheduleOp}
    {runId runId' : String} {row row' : ScheduleRow}
    (h : Wrote (stateAfter lib version rows before) (stateAfter lib version rows (before ++ [op]))
      runId row)
    (h' : Wrote (stateAfter lib version rows (before ++ [op] ++ between))
      (stateAfter lib version rows (before ++ [op] ++ between ++ [op'])) runId' row') :
    row.revision < row'.revision := by
  have hfirst := ((scheduleStep_stateAfter before op).of_wrote h).1
  have hsecond := ((scheduleStep_stateAfter _ op').of_wrote h').1
  have hcounter : (stateAfter lib version rows (before ++ [op])).recoveryScheduleRevision ≤
      (stateAfter lib version rows (before ++ [op] ++ between)).recoveryScheduleRevision :=
    (moves_stateAfter (before ++ [op]) between).counter_le
  calc row.revision = (stateAfter lib version rows (before ++ [op])).recoveryScheduleRevision :=
        hfirst.counter.symm
    _ ≤ (stateAfter lib version rows (before ++ [op] ++ between)).recoveryScheduleRevision :=
        hcounter
    _ < row'.revision := hsecond.ahead

/-- **The schedule is fenced.**  In every run of checks, settlements, wakes, prunings and other
events of the scope: a settlement under the token of a check succeeds only while the Run's row is
the row the check found; the counter never goes back and every write has a revision of its own; a
settlement that is refused changes nothing; a settlement and a wake that succeed write their row;
and every row was written by a wake, or by a settlement with at most 31 failures and the delay they
make. -/
theorem schedule_fenced (lib : PythonLibrary) (version : Nat) (rows : RunRows) :
    (∀ before between part options clock reason options' clock' runId token failed,
      (check options clock runId).reply (stateAfter lib version rows before) =
        .ok ⟨some token, reason⟩ →
      (settle options' clock' runId token failed).reply
        (stateAfter lib version rows (before ++ between)) = .ok true →
      part <+: between →
      (stateAfter lib version rows (before ++ part)).recoverySchedule.get? runId =
        (stateAfter lib version rows before).recoverySchedule.get? runId) ∧
    (∀ before between, (stateAfter lib version rows before).recoveryScheduleRevision ≤
      (stateAfter lib version rows (before ++ between)).recoveryScheduleRevision) ∧
    (∀ before op runId row runId' row',
      Wrote (stateAfter lib version rows before) (stateAfter lib version rows (before ++ [op]))
        runId row →
      (Wrote (stateAfter lib version rows before) (stateAfter lib version rows (before ++ [op]))
        runId' row' → runId' = runId ∧ row' = row) ∧
      ∀ between op',
        Wrote (stateAfter lib version rows (before ++ [op] ++ between))
          (stateAfter lib version rows (before ++ [op] ++ between ++ [op'])) runId' row' →
        row.revision < row'.revision) ∧
    (∀ run options clock runId token failed,
      let before := stateAfter lib version rows run
      let after := stateAfter lib version rows (run ++ [.settle options clock runId token failed])
      if (settle options clock runId token failed).reply before = .ok true then
        ∃ row, Wrote before after runId row
      else after = before) ∧
    (∀ run runId revision,
      (wakeRun runId).reply (stateAfter lib version rows run) = .ok revision →
      Wrote (stateAfter lib version rows run) (stateAfter lib version rows (run ++ [.wake runId]))
        runId ⟨revision, 0, 0⟩) ∧
    (∀ run runId row, (stateAfter lib version rows run).recoverySchedule.get? runId = some row →
      (0 ≤ row.failures ∧ row.failures ≤ 31) ∧ ∃ before op after, run = before ++ op :: after ∧
        Wrote (stateAfter lib version rows before) (stateAfter lib version rows (before ++ [op]))
          runId row) ∧
    ∀ run op runId row,
      Wrote (stateAfter lib version rows run) (stateAfter lib version rows (run ++ [op]))
        runId row →
      op.Gives (stateAfter lib version rows run) runId row := by
  refine ⟨?_, fun before between => (moves_stateAfter before between).counter_le, ?_, ?_, ?_, ?_, ?_⟩
  · intro before between part options clock reason options' clock' runId token failed hcheck hsettle
      hpart
    obtain ⟨_, hcheck⟩ := reply_eq_ok.1 hcheck
    obtain ⟨_, hsettle⟩ := reply_eq_ok.1 hsettle
    refine get?_eq_of_token ?_ hpart
    rcases settle_eq_ok hsettle with ⟨hfalse, -⟩ | ⟨-, htoken, -⟩
    · cases hfalse
    · rw [← htoken, check_eq_ok hcheck]
  · intro before op runId row runId' row' hwrote
    refine ⟨fun hwrote' => ?_, fun between op' => revision_lt_of_wrote hwrote⟩
    have hfirst := ((scheduleStep_stateAfter before op).of_wrote hwrote).1
    obtain ⟨hget, hne⟩ := hwrote'
    rw [hfirst.get?] at hget
    by_cases hrun : runId' = runId
    · rw [if_pos hrun] at hget
      exact ⟨hrun, (Option.some.inj hget).symm⟩
    · rw [if_neg hrun] at hget
      exact absurd hget hne
  · intro run options clock runId token failed
    simp only [exec_concat]
    exact settle_left (bounded_stateAfter run)
  · intro run runId revision hwake
    rw [exec_concat]
    exact wakeRun_left (bounded_stateAfter run) hwake
  · intro run runId row hget
    obtain ⟨before, op, after, hrun, hwrote⟩ := exists_wrote hget
    exact ⟨((scheduleStep_stateAfter before op).of_wrote hwrote).2.2, before, op, after, hrun, hwrote⟩
  · intro run op runId row hwrote
    exact ((scheduleStep_stateAfter run op).of_wrote hwrote).2.1

end

end Purra
