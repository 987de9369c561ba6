import Purra.Lib.Run
import Purra.Approvals.Frames

/-!
# One execution at a time

A Run is executed by whoever holds its lease, and ownership is the pair of owner and
attempt: the same owner comes back under a new attempt.  Nothing happens when a lease
expires, so "over" is a statement about the lease and a clock reading.

* `LeaseStep` — **what one event can do to a lease**, with the guards it passed; every
  event of the system is one (`leaseStep_step`).
* `Over` — an attempt of an owner is over: superseded, or current and not held.
* `lease_fencing` — the attempt counts the successful claims, one owner holds the
  lease, a cancellation stays, and an execution whose attempt is over neither renews
  nor writes again.
-/

namespace Purra

open Transaction StorageSession

variable {s : SqliteState}

theorem transaction_eq_ok {α : Type} {body : Tx α} {s' : SqliteState} {a : α}
    (h : transaction body s = .ok (a, s')) : body s = .ok (a, s') := by
  obtain ⟨a', s₁, hbody, hcheck⟩ := Transaction.bind_eq_ok.1 h
  replace hcheck := read_bind_eq_ok.1 hcheck
  obtain ⟨-, hpure⟩ := refuse_eq_ok.1 hcheck
  obtain ⟨rfl, rfl⟩ := pure_eq_ok.1 hpure
  exact hbody

/-! ## What the lease methods do -/

namespace LeaseStore

variable {s s' : SqliteState} {granted : Bool} {wall : Int} {runId ownerId : String}
  {duration : Int} {context : ExecutionContext}

/-- The state with another lease for a Run. -/
def withLease (s : SqliteState) (runId : String) (lease : RunExecutionLease) : SqliteState :=
  { s with leases := s.leases.set runId lease }

@[simp] theorem current_withLease_self (s : SqliteState) (runId : String)
    (lease : RunExecutionLease) : current (withLease s runId lease) runId = lease := by
  simp [current, withLease]

theorem current_withLease_of_ne (s : SqliteState) {runId run : String} (lease : RunExecutionLease)
    (h : run ≠ runId) : current (withLease s runId lease) run = current s run := by
  simp [current, withLease, Dict.get?_set, h]

theorem put_bind_eq_ok {lease : RunExecutionLease} {b : Bool}
    (h : (put runId lease >>= fun _ => (pure b : Tx Bool)) s = .ok (granted, s')) :
    granted = b ∧ s' = withLease s runId lease :=
  pure_eq_ok.1 (write_bind_eq_ok.1 h)

/-- The lease a successful claim leaves. -/
def claimed (old : RunExecutionLease) (wall : Int) (ownerId : String) (duration : Int) :
    RunExecutionLease :=
  { old with
    ownerId := optionalText (some ownerId)
    expiresAtMs := some (wall + duration)
    heartbeatAtMs := some wall
    attempt := old.attempt + 1 }

/-- The lease a renewal leaves. -/
def renewed (old : RunExecutionLease) (wall duration : Int) : RunExecutionLease :=
  { old with expiresAtMs := some (wall + duration), heartbeatAtMs := some wall }

/-- The lease a release leaves. -/
def released (old : RunExecutionLease) : RunExecutionLease :=
  { old with ownerId := none, expiresAtMs := none }

/-- The lease a cancellation request leaves. -/
def canceling (old : RunExecutionLease) (wall : Int) : RunExecutionLease :=
  { old with cancellationRequestedAtMs := some wall }

theorem claim_cases (h : claim wall runId ownerId duration s = .ok (granted, s')) :
    (granted = false ∧ s' = s) ∨
      (granted = true ∧ (current s runId).held wall = false ∧
        (current s runId).cancellationRequestedAtMs = none ∧
        s' = withLease s runId (claimed (current s runId) wall ownerId duration)) := by
  obtain ⟨-, h⟩ := refuse_eq_ok.1 h
  replace h := read_bind_eq_ok.1 (transaction_eq_ok h)
  cases hrun : s.runs.get? runId with
  | none =>
    simp only [hrun] at h
    exact absurd h not_raise_eq_ok
  | some run =>
    simp only [hrun] at h
    rcases ite_eq_ok.1 h with ⟨-, h⟩ | ⟨hopen, h⟩
    · exact Or.inl (pure_eq_ok.1 h)
    have hclear : (current s runId).cancellationRequestedAtMs = none := by
      simpa using (not_or.1 hopen).2
    rcases ite_eq_ok.1 h with ⟨-, h⟩ | ⟨hidle, h⟩
    · exact Or.inl (pure_eq_ok.1 h)
    obtain ⟨-, h⟩ := refuse_eq_ok.1 h
    obtain ⟨-, h⟩ := refuse_eq_ok.1 h
    obtain ⟨hgranted, hstate⟩ := put_bind_eq_ok h
    exact Or.inr ⟨hgranted, Bool.eq_false_iff.2 hidle, hclear, hstate⟩

theorem renew_cases (h : renew context wall runId ownerId duration s = .ok (granted, s')) :
    (granted = false ∧ s' = s) ∨
      (granted = true ∧ (current s runId).ownerId = some ownerId ∧
        wall < (current s runId).expiry ∧
        context.stale runId ownerId (current s runId).attempt = false ∧
        s' = withLease s runId (renewed (current s runId) wall duration)) := by
  replace h := read_bind_eq_ok.1 (transaction_eq_ok h)
  cases hold : s.leases.get? runId with
  | none =>
    simp only [hold] at h
    exact Or.inl (pure_eq_ok.1 h)
  | some old =>
    have hcurrent : current s runId = old := by simp [current, hold]
    simp only [hold] at h
    rw [hcurrent]
    rcases ite_eq_ok.1 h with ⟨-, h⟩ | ⟨howned, h⟩
    · exact Or.inl (pure_eq_ok.1 h)
    obtain ⟨howner, hlive⟩ := not_or.1 howned
    rcases ite_eq_ok.1 h with ⟨-, h⟩ | ⟨hstale, h⟩
    · exact Or.inl (pure_eq_ok.1 h)
    obtain ⟨hgranted, hstate⟩ := put_bind_eq_ok h
    exact Or.inr ⟨hgranted, not_not.1 howner, not_le.1 hlive, Bool.eq_false_iff.2 hstale, hstate⟩

theorem release_cases (h : release context runId ownerId s = .ok (granted, s')) :
    (granted = false ∧ s' = s) ∨
      (granted = true ∧ (current s runId).ownerId = some ownerId ∧
        context.stale runId ownerId (current s runId).attempt = false ∧
        s' = withLease s runId (released (current s runId))) := by
  replace h := read_bind_eq_ok.1 (transaction_eq_ok h)
  cases hold : s.leases.get? runId with
  | none =>
    simp only [hold] at h
    exact Or.inl (pure_eq_ok.1 h)
  | some old =>
    have hcurrent : current s runId = old := by simp [current, hold]
    simp only [hold] at h
    rw [hcurrent]
    rcases ite_eq_ok.1 h with ⟨-, h⟩ | ⟨howner, h⟩
    · exact Or.inl (pure_eq_ok.1 h)
    rcases ite_eq_ok.1 h with ⟨-, h⟩ | ⟨hstale, h⟩
    · exact Or.inl (pure_eq_ok.1 h)
    obtain ⟨hgranted, hstate⟩ := put_bind_eq_ok h
    exact Or.inr ⟨hgranted, not_not.1 howner, Bool.eq_false_iff.2 hstale, hstate⟩

theorem requestCancellation_cases (h : requestCancellation wall runId s = .ok (granted, s')) :
    (granted = false ∧ s' = s) ∨
      (granted = true ∧ (current s runId).cancellationRequestedAtMs = none ∧
        s' = withLease s runId (canceling (current s runId) wall)) := by
  replace h := read_bind_eq_ok.1 (transaction_eq_ok h)
  cases hrun : s.runs.get? runId with
  | none =>
    simp only [hrun] at h
    exact Or.inl (pure_eq_ok.1 h)
  | some run =>
    simp only [hrun] at h
    rcases ite_eq_ok.1 h with ⟨-, h⟩ | ⟨-, h⟩
    · exact Or.inl (pure_eq_ok.1 h)
    rcases ite_eq_ok.1 h with ⟨-, h⟩ | ⟨hclear, h⟩
    · exact Or.inl (pure_eq_ok.1 h)
    obtain ⟨hgranted, hstate⟩ := put_bind_eq_ok h
    exact Or.inr ⟨hgranted, by simpa using hclear, hstate⟩

end LeaseStore

/-! ## One event and one lease -/

open LeaseStore

/-- What an event at `wall` can do to the lease of a Run; `granted` says that it was a successful
claim. -/
inductive LeaseStep (wall : Int) (lease : RunExecutionLease) : Bool → RunExecutionLease → Prop where
  | kept : LeaseStep wall lease false lease
  | claimed (ownerId : String) (duration : Int) (idle : lease.held wall = false)
      (clear : lease.cancellationRequestedAtMs = none) :
      LeaseStep wall lease true (claimed lease wall ownerId duration)
  | renewed (duration : Int) (live : wall < lease.expiry) :
      LeaseStep wall lease false (renewed lease wall duration)
  | released : LeaseStep wall lease false (released lease)
  | canceling (clear : lease.cancellationRequestedAtMs = none) :
      LeaseStep wall lease false (canceling lease wall)

/-- A lease call was answered with `True`. -/
def granted (reply : Except PyError Bool) : Bool :=
  match reply with
  | .ok answer => answer
  | .error _ => false

theorem granted_reply_eq_true {m : Tx Bool} :
    granted (m.reply s) = true ↔ ∃ s', m s = .ok (true, s') := by
  unfold Transaction.reply granted
  cases m s with
  | error e => simp [Except.map]
  | ok p =>
    obtain ⟨answer, s'⟩ := p
    simp [Except.map]

/-- The event is a successful claim of the Run. -/
def claims (runId : String) (state : SystemState) : Int × SystemOp → Bool
  | (wall, .store (.claimLease run ownerId duration)) =>
    run = runId && granted ((claim wall run ownerId duration).reply state.storage)
  | _ => false

/-- The number of successful claims of a Run in a run of the system. -/
def claimsIn (lib : PythonLibrary) (runId : String) : SystemState → List (Int × SystemOp) → Nat
  | _, [] => 0
  | state, event :: run =>
    (claims runId state event).toNat + claimsIn lib runId (state.step lib event) run

theorem current_of_leases {s' : SqliteState} (h : s'.leases = s.leases) (runId : String) :
    current s' runId = current s runId := by
  unfold current
  rw [h]

section

variable {wall : Int} {s : SqliteState} {runId run ownerId : String} {duration : Int}
  {context : ExecutionContext}

theorem leaseStep_of_leases {s' : SqliteState} (h : s'.leases = s.leases) :
    LeaseStep wall (current s runId) false (current s' runId) := by
  rw [current_of_leases h]
  exact .kept

/-- A lease call on one Run is a step of that Run's lease and of no other. -/
theorem leaseStep_withLease {lease : RunExecutionLease} {b : Bool}
    (h : LeaseStep wall (current s run) b lease) :
    LeaseStep wall (current s runId) (decide (run = runId) && b)
      (current (withLease s run lease) runId) := by
  by_cases hrun : run = runId
  · subst hrun
    simpa using h
  · rw [current_withLease_of_ne s lease (Ne.symm hrun)]
    simpa [hrun] using LeaseStep.kept

theorem leaseStep_claim :
    LeaseStep wall (current s runId)
      (decide (run = runId) && granted ((claim wall run ownerId duration).reply s))
      (current ((claim wall run ownerId duration).left s) runId) := by
  rcases left_cases (claim wall run ownerId duration) s with ⟨b, s', hm, heq⟩ | ⟨⟨e, hm⟩, heq⟩
  · have hreply : granted ((claim wall run ownerId duration).reply s) = b := by
      simp [Transaction.reply, hm, granted, Except.map]
    rw [heq, hreply]
    rcases claim_cases hm with ⟨rfl, rfl⟩ | ⟨rfl, hidle, hclear, rfl⟩
    · simpa using LeaseStep.kept
    · exact leaseStep_withLease (.claimed ownerId duration hidle hclear)
  · have hreply : granted ((claim wall run ownerId duration).reply s) = false := by
      simp [Transaction.reply, hm, granted, Except.map]
    rw [heq, hreply]
    simpa using LeaseStep.kept

/-- A lease call that is no claim is a step when each of its commits is. -/
theorem leaseStep_left {m : Tx Bool} (run : String)
    (h : ∀ b s', m s = .ok (b, s') → s' = s ∨ ∃ lease,
      LeaseStep wall (current s run) false lease ∧ s' = withLease s run lease) :
    LeaseStep wall (current s runId) false (current (m.left s) runId) := by
  rcases left_cases m s with ⟨b, s', hm, heq⟩ | ⟨-, heq⟩
  · rw [heq]
    rcases h b s' hm with rfl | ⟨lease, hstep, rfl⟩
    · exact .kept
    · have hput : LeaseStep wall (current s runId) (decide (run = runId) && false)
        (current (withLease s run lease) runId) := leaseStep_withLease hstep
      simpa using hput
  · rw [heq]
    exact .kept

theorem leaseStep_renew :
    LeaseStep wall (current s runId) false
      (current ((renew context wall run ownerId duration).left s) runId) := by
  refine leaseStep_left run fun b s' hm => ?_
  rcases renew_cases hm with ⟨-, rfl⟩ | ⟨-, -, hlive, -, rfl⟩
  · exact Or.inl rfl
  · exact Or.inr ⟨_, .renewed duration hlive, rfl⟩

theorem leaseStep_release :
    LeaseStep wall (current s runId) false
      (current ((release context run ownerId).left s) runId) := by
  refine leaseStep_left run fun b s' hm => ?_
  rcases release_cases hm with ⟨-, rfl⟩ | ⟨-, -, -, rfl⟩
  · exact Or.inl rfl
  · exact Or.inr ⟨_, .released, rfl⟩

theorem leaseStep_requestCancellation :
    LeaseStep wall (current s runId) false
      (current ((requestCancellation wall run).left s) runId) := by
  refine leaseStep_left run fun b s' hm => ?_
  rcases requestCancellation_cases hm with ⟨-, rfl⟩ | ⟨-, hclear, rfl⟩
  · exact Or.inl rfl
  · exact Or.inr ⟨_, .canceling hclear, rfl⟩

end

/-- **Every event is a step of each lease**: a successful claim, or a renewal, release or
cancellation, or nothing. -/
theorem leaseStep_step (lib : PythonLibrary) (state : SystemState) (event : Int × SystemOp)
    (runId : String) :
    LeaseStep event.1 (current state.storage runId) (claims runId state event)
      (current (state.step lib event).storage runId) := by
  obtain ⟨wall, op⟩ := event
  cases op with
  | store op =>
    cases op with
    | create clock intent expires =>
      exact leaseStep_of_leases (leases_of_dispatchRows (SqliteApprovalStore.keeps_create (fun _ _ => rfl) _ _ _) _)
    | prepare =>
      exact leaseStep_of_leases
        (leases_of_dispatchRows (SqliteApprovalStore.keeps_prepare (fun _ _ => rfl) (fun _ _ => rfl) _ _ _ _ _ _ _) _)
    | decide =>
      exact leaseStep_of_leases
        (leases_of_dispatchRows (SqliteApprovalStore.keeps_decide (fun _ _ => rfl) (fun _ _ _ => rfl) _ _ _ _) _)
    | refresh clock approvalId =>
      exact leaseStep_of_leases (leases_of_dispatchRows (SqliteApprovalStore.keeps_refresh (fun _ _ => rfl) _ _) _)
    | request =>
      exact leaseStep_of_leases (leases_of_dispatchRows
        ((SqliteApprovalStore.readOnly_request _ _ _ _ _ _).keeps _) _)
    | claimLease run owner duration => exact leaseStep_claim
    | renewLease => exact leaseStep_renew
    | releaseLease context run owner => exact leaseStep_release
    | requestCancellation run => exact leaseStep_requestCancellation
    | portWrite context guarded update =>
      have hkept := (keeps_portWrite context wall guarded update).left_eq state.storage
      have hleases := congrArg SqliteState.leases hkept
      exact leaseStep_of_leases hleases
    | reconcileTool run call evidence =>
      exact leaseStep_of_leases
        (leases_of_grantRows ((ToolIdempotency.keeps_reconcileTool (fun _ _ _ => rfl) (fun _ _ => rfl)
          (fun _ _ _ => rfl) _ _ _ _).left_eq _))
  | begin =>
    exact leaseStep_of_leases (leases_of_grantRows (grantRows_step lib state (by rfl)))
  | start flight => exact leaseStep_of_leases (leases_of_grantRows (grantRows_step lib state (by rfl)))
  | complete flight result =>
    exact leaseStep_of_leases (leases_of_grantRows (grantRows_step lib state (by rfl)))
  | crash flight => exact leaseStep_of_leases (leases_of_grantRows (grantRows_step lib state (by rfl)))

/-! ## What the steps of a lease keep -/

section

variable {wall : Int} {lease lease' : RunExecutionLease} {claim : Bool}

theorem LeaseStep.attempt (h : LeaseStep wall lease claim lease') :
    lease'.attempt = lease.attempt + claim.toNat := by
  cases h <;> rfl

theorem LeaseStep.cancellation (h : LeaseStep wall lease claim lease')
    (hrequested : lease.cancellationRequestedAtMs.isSome = true) :
    claim = false ∧ lease'.cancellationRequestedAtMs = lease.cancellationRequestedAtMs := by
  cases h with
  | kept => exact ⟨rfl, rfl⟩
  | claimed _ _ _ clear => simp [clear] at hrequested
  | renewed duration live => exact ⟨rfl, rfl⟩
  | released => exact ⟨rfl, rfl⟩
  | canceling clear => simp [clear] at hrequested

/-- `ownerId` holds the lease, unexpired at `now`. -/
def RunExecutionLease.heldBy (lease : RunExecutionLease) (ownerId : String) (now : Int) : Prop :=
  lease.ownerId = some ownerId ∧ now < lease.expiry

/-- The attempt of `ownerId` is over at `now`: a later attempt began, or this one no longer holds
the lease. -/
def Over (lease : RunExecutionLease) (ownerId : String) (attempt : Nat) (now : Int) : Prop :=
  1 ≤ attempt ∧ (attempt < lease.attempt ∨ attempt = lease.attempt ∧ ¬ lease.heldBy ownerId now)

/-- An attempt that is over stays over while the clock does not go back. -/
theorem LeaseStep.over {ownerId : String} {attempt : Nat} {now : Int}
    (h : LeaseStep wall lease claim lease') (hwall : now ≤ wall)
    (hover : Over lease ownerId attempt now) : Over lease' ownerId attempt now := by
  obtain ⟨hattempt, hover⟩ := hover
  refine ⟨hattempt, ?_⟩
  rcases hover with hlater | ⟨hsame, hidle⟩
  · have hgrows := h.attempt
    exact Or.inl (by omega)
  cases h with
  | kept => exact Or.inr ⟨hsame, hidle⟩
  | claimed =>
    refine Or.inl ?_
    show attempt < lease.attempt + 1
    omega
  | renewed duration live =>
    -- only the holder's own lease is extended, so the owner is another one
    refine Or.inr ⟨hsame, fun hheld => hidle ⟨hheld.1, ?_⟩⟩
    omega
  | released => exact Or.inr ⟨hsame, fun hheld => by cases hheld.1⟩
  | canceling clear => exact Or.inr ⟨hsame, hidle⟩

end

/-! ## What an execution that is over is refused -/

/-- The context of an execution: its owner, and the attempt its claim started. -/
def ExecutionContext.bound (runId ownerId : String) (attempt : Nat) : ExecutionContext :=
  ⟨some ownerId, some (runId, ownerId, attempt)⟩

section

variable {s : SqliteState} {runId ownerId : String} {attempt : Nat} {now : Int}

theorem get?_of_attempt (h : 1 ≤ (current s runId).attempt) :
    s.leases.get? runId = some (current s runId) := by
  unfold current at h ⊢
  cases hget : s.leases.get? runId with
  | none => simp [hget] at h
  | some lease => rfl

theorem Over.attempt_pos {lease : RunExecutionLease} (h : Over lease ownerId attempt now) :
    1 ≤ lease.attempt := by
  obtain ⟨hpos, hlater | ⟨hsame, -⟩⟩ := h <;> omega

theorem stale_bound (n : Nat) :
    (ExecutionContext.bound runId ownerId attempt).stale runId ownerId n =
      decide (attempt ≠ n) := by
  simp [ExecutionContext.stale, ExecutionContext.bound]

theorem renew_refused (h : Over (current s runId) ownerId attempt now) (duration : Int) :
    granted ((renew (.bound runId ownerId attempt) now runId ownerId duration).reply s) =
      false := by
  rw [Bool.eq_false_iff]
  intro hgranted
  obtain ⟨s', hrenew⟩ := granted_reply_eq_true.1 hgranted
  rcases renew_cases hrenew with ⟨hfalse, -⟩ | ⟨-, howner, hlive, hstale, -⟩
  · cases hfalse
  rw [stale_bound, decide_eq_false_iff_not, not_not] at hstale
  rcases h.2 with hlater | ⟨-, hidle⟩
  · omega
  · exact hidle ⟨howner, hlive⟩

theorem release_refused (h : attempt < (current s runId).attempt) :
    granted ((release (.bound runId ownerId attempt) runId ownerId).reply s) = false := by
  rw [Bool.eq_false_iff]
  intro hgranted
  obtain ⟨s', hrelease⟩ := granted_reply_eq_true.1 hgranted
  rcases release_cases hrelease with ⟨hfalse, -⟩ | ⟨-, -, hstale, -⟩
  · cases hfalse
  rw [stale_bound, decide_eq_false_iff_not, not_not] at hstale
  omega

theorem lost_bound_iff {lease : RunExecutionLease} :
    lost (.bound runId ownerId attempt) now runId ownerId lease = false ↔
      lease.heldBy ownerId now ∧ attempt = lease.attempt := by
  simp [lost, ExecutionContext.bound, RunExecutionLease.heldBy]

/-- The guard lets an execution through exactly when it holds the lease under its attempt. -/
theorem guard_eq_ok {u : Unit} {s' : SqliteState} (h : 1 ≤ (current s runId).attempt) :
    guard (.bound runId ownerId attempt) now runId s = .ok (u, s') ↔
      (current s runId).heldBy ownerId now ∧ attempt = (current s runId).attempt ∧ s' = s := by
  have hrow := get?_of_attempt h
  have hguard : guard (.bound runId ownerId attempt) now runId s =
      (if lost (.bound runId ownerId attempt) now runId ownerId (current s runId) = true then
        violation "Execution lease was lost" "run_lease_lost" else pure () : Tx Unit) s := by
    unfold LeaseStore.guard
    rw [bind_of_ok (m := read) rfl, hrow]
    rfl
  rw [hguard]
  refine refuse_eq_ok.trans ?_
  rw [Bool.not_eq_true, lost_bound_iff, pure_eq_ok]
  simp [and_assoc]

/-- A guarded write of an execution that is over raises, so nothing of it is stored. -/
theorem portWrite_refused (h : Over (current s runId) ownerId attempt now)
    (update : RunRows → Except PyError RunRows) :
    ∃ e, portWrite (.bound runId ownerId attempt) now (some runId) update s = .error e := by
  cases hwrite : portWrite (.bound runId ownerId attempt) now (some runId) update s with
  | error e => exact ⟨e, rfl⟩
  | ok p =>
    obtain ⟨u, s'⟩ := p
    obtain ⟨_, _, hguard, -⟩ := Transaction.bind_eq_ok.1 (transaction_eq_ok hwrite)
    obtain ⟨hheld, hsame, -⟩ := (guard_eq_ok h.attempt_pos).1 hguard
    rcases h.2 with hlater | ⟨-, hidle⟩
    · omega
    · exact absurd hheld hidle

end

/-- What an execution whose attempt is over can no longer do. -/
structure Fenced (s : SqliteState) (runId ownerId : String) (attempt : Nat) (now : Int) : Prop where
  renew : ∀ duration,
    granted ((renew (.bound runId ownerId attempt) now runId ownerId duration).reply s) = false
  write : ∀ update, ∃ e,
    portWrite (.bound runId ownerId attempt) now (some runId) update s = .error e

theorem Over.fenced {runId ownerId : String} {attempt : Nat} {now : Int}
    (h : Over (current s runId) ownerId attempt now) : Fenced s runId ownerId attempt now :=
  ⟨renew_refused h, portWrite_refused h⟩

/-! ## Runs of the system -/

section

variable {lib : PythonLibrary} {runId : String}

theorem attempt_exec (state : SystemState) (run : List (Int × SystemOp)) :
    (current (exec (SystemState.step lib) state run).storage runId).attempt =
      (current state.storage runId).attempt + claimsIn lib runId state run := by
  induction run generalizing state with
  | nil => rfl
  | cons event run ih =>
    have hstep := (leaseStep_step lib state event runId).attempt
    have hrest := ih (state.step lib event)
    rw [exec_cons, hrest, hstep, claimsIn]
    omega

theorem cancellation_exec {requested : Option Int} (hrequested : requested.isSome = true)
    {state : SystemState} (run : List (Int × SystemOp))
    (h : (current state.storage runId).cancellationRequestedAtMs = requested) :
    (current (exec (SystemState.step lib) state run).storage runId).cancellationRequestedAtMs =
      requested := by
  refine exec_induction_of_all (I := fun state : SystemState =>
    (current state.storage runId).cancellationRequestedAtMs = requested) ?_ run h
  intro s event hs
  have hsome : (current s.storage runId).cancellationRequestedAtMs.isSome = true := by rwa [hs]
  exact ((leaseStep_step lib s event runId).cancellation hsome).2.trans hs

variable {ownerId : String}

theorem over_exec {attempt : Nat} {instant : Int} {state : SystemState}
    {run : List (Int × SystemOp)} (hclock : ∀ event ∈ run, instant ≤ event.1)
    (h : Over (current state.storage runId) ownerId attempt instant) :
    Over (current (exec (SystemState.step lib) state run).storage runId) ownerId attempt
      instant := by
  refine exec_induction (I := fun state : SystemState =>
    Over (current state.storage runId) ownerId attempt instant) ?_ (along_of_forall hclock) h
  intro s event hevent hs
  exact (leaseStep_step lib s event runId).over hevent hs

theorem Over.later {lease : RunExecutionLease} {attempt : Nat} {instant now : Int}
    (h : Over lease ownerId attempt instant) (hnow : instant ≤ now) :
    Over lease ownerId attempt now := by
  refine ⟨h.1, h.2.imp_right fun hidle => ⟨hidle.1, fun hheld => hidle.2 ⟨hheld.1, ?_⟩⟩⟩
  exact hnow.trans_lt hheld.2

theorem claim_refused_of_canceled {s : SqliteState} {wall duration : Int}
    (h : (current s runId).cancellationRequestedAtMs.isSome = true) :
    granted ((claim wall runId ownerId duration).reply s) = false := by
  rw [Bool.eq_false_iff]
  intro hgranted
  obtain ⟨s', hclaim⟩ := granted_reply_eq_true.1 hgranted
  rcases claim_cases hclaim with ⟨hfalse, -⟩ | ⟨-, -, hclear, -⟩
  · cases hfalse
  · simp [hclear] at h

theorem claim_refused_of_held {s : SqliteState} {wall duration : Int} {holder : String}
    (h : (current s runId).heldBy holder wall) :
    granted ((claim wall runId ownerId duration).reply s) = false := by
  rw [Bool.eq_false_iff]
  intro hgranted
  obtain ⟨s', hclaim⟩ := granted_reply_eq_true.1 hgranted
  rcases claim_cases hclaim with ⟨hfalse, -⟩ | ⟨-, hidle, -, -⟩
  · cases hfalse
  · simp [RunExecutionLease.held, h.1, h.2] at hidle

end

/-- **Lease fencing.**  In every run of the system, `before` an instant and `after` it up to now,
under a clock that does not go back: a Run's attempt has grown by one for each successful claim and
is otherwise unchanged; at any time one owner holds the lease, and while it does no claim succeeds;
a cancellation that was requested stays requested and no claim succeeds any more; an execution whose
attempt was over at the instant neither renews nor writes now; and one whose attempt was superseded
does not release the lease either. -/
theorem lease_fencing {lib : PythonLibrary} {start : SystemState}
    {before after : List (Int × SystemOp)} {instant now : Int}
    (hclock : (before.map Prod.fst ++ instant :: (after.map Prod.fst ++ [now])).Pairwise (· ≤ ·))
    (runId : String) :
    let state := (exec (SystemState.step lib) start before).storage
    let state' := (exec (SystemState.step lib) start (before ++ after)).storage
    ((current state' runId).attempt = (current state runId).attempt +
        claimsIn lib runId (exec (SystemState.step lib) start before) after) ∧
      (∀ owner owner' time, (current state runId).heldBy owner time →
        (current state runId).heldBy owner' time → owner = owner') ∧
      (∀ holder owner duration, (current state runId).heldBy holder instant →
        granted ((claim instant runId owner duration).reply state) = false) ∧
      ((current state runId).cancellationRequestedAtMs.isSome = true →
        (current state' runId).cancellationRequestedAtMs =
            (current state runId).cancellationRequestedAtMs ∧
          ∀ owner duration, granted ((claim now runId owner duration).reply state') = false) ∧
      (∀ owner attempt, Over (current state runId) owner attempt instant →
        Fenced state' runId owner attempt now) ∧
      (∀ owner attempt, 1 ≤ attempt → attempt < (current state runId).attempt →
        Fenced state' runId owner attempt now ∧
          granted ((release (.bound runId owner attempt) runId owner).reply state') = false) := by
  intro state state'
  have hsplit : state' = (exec (SystemState.step lib)
      (exec (SystemState.step lib) start before) after).storage := by rw [← exec_append]
  have hattempt : (current state' runId).attempt = (current state runId).attempt +
      claimsIn lib runId (exec (SystemState.step lib) start before) after := by
    rw [hsplit]
    exact attempt_exec _ after
  obtain ⟨-, hlater, -⟩ := List.pairwise_append.1 hclock
  obtain ⟨hinstant, -⟩ := List.pairwise_cons.1 hlater
  have hafter : ∀ event ∈ after, instant ≤ event.1 := fun event hevent =>
    hinstant event.1 (List.mem_append_left _ (List.mem_map_of_mem hevent))
  have hnow : instant ≤ now := hinstant now (by simp)
  have hover : ∀ owner attempt, Over (current state runId) owner attempt instant →
      Over (current state' runId) owner attempt now := by
    intro owner attempt h
    rw [hsplit]
    exact (over_exec hafter h).later hnow
  refine ⟨hattempt, ?_, fun holder owner duration h => claim_refused_of_held h, ?_,
    fun owner attempt h => (hover owner attempt h).fenced, ?_⟩
  · intro owner owner' time h h'
    exact Option.some.inj (h.1.symm.trans h'.1)
  · intro hrequested
    have hsame : (current state' runId).cancellationRequestedAtMs =
        (current state runId).cancellationRequestedAtMs := by
      rw [hsplit]
      exact cancellation_exec hrequested after rfl
    refine ⟨hsame, fun owner duration => claim_refused_of_canceled ?_⟩
    rwa [hsame]
  · intro owner attempt hpos hold
    refine ⟨(hover owner attempt ⟨hpos, Or.inl hold⟩).fenced, release_refused ?_⟩
    omega

/-- A running Run without a checkpoint. -/
def freshRun (runId : String) : StoredRun where
  rootRunId := runId
  status := .running
  deadlineAtMs := none
  agentPresetSnapshot := []
  executionCheckpoint := none
  modelAttemptIds := []
  modelUsageByInvocation := []
  checkpointAttemptCount := 0

/-- A scope with the one Run `r`. -/
def freshScope : SystemState :=
  .initial 5 ⟨.set .empty "r" (freshRun "r"), .empty, .empty⟩

/-- A library for runs that neither hash nor read JSON. -/
def idleLibrary : PythonLibrary := ⟨fun _ => "", fun _ => .error (.valueError "")⟩

/-- The owner `w` claims `r`, loses it and claims it again. -/
def reclaims : List (Int × SystemOp) :=
  [(0, .store (.claimLease "r" "w" 10)), (20, .store (.claimLease "r" "w" 10))]

theorem lease_fencing_reclaims :
    Fenced (exec (SystemState.step idleLibrary) freshScope
        (reclaims ++ [(22, .store (.requestCancellation "r"))])).storage "r" "w" 1 25 ∧
      granted ((release (.bound "r" "w" 1) "r" "w").reply
        (exec (SystemState.step idleLibrary) freshScope
          (reclaims ++ [(22, .store (.requestCancellation "r"))])).storage) = false := by
  have hclock : (reclaims.map Prod.fst ++ (21 : Int) ::
      ([(22, SystemOp.store (.requestCancellation "r"))].map Prod.fst ++ [25])).Pairwise
        (· ≤ ·) := by decide
  have hreclaimed : 1 < (current
      (exec (SystemState.step idleLibrary) freshScope reclaims).storage "r").attempt := by decide
  exact (lease_fencing hclock "r").2.2.2.2.2 "w" 1 le_rfl hreclaimed

end Purra
