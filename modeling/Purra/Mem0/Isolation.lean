import Purra.Lib.Sequence
import Purra.Mem0.Operations
import Purra.Mem0.Views

/-!
# Isolation

What holds of the journal of a scope whatever calls any number of processes make, in any order.

* `Effective` — the calls that change what may be remembered; each moves the epoch on.
* `Controlled` — what a control does to an item it lists.
* `Isolated` — the guarantees; `reached_isolated` gives them for every run.
* `link_keeps_versions`, `empty_commit_unnoticed` — what is not guaranteed: a control that is
  given no change for an item leaves its version, and a commit without records leaves the epoch.
-/

namespace Purra.Mem0

section

variable (host : Host)

/-- The call is committed and changes what may be remembered: it stores records, is a control
under a new key, or revokes what was not revoked. -/
def Effective (s : State) (c : Call) : Prop :=
  (∃ s', c.run host s = .ok ((), s')) ∧
    match c with
    | .commit _ records => records ≠ []
    | .control _ key _ _ _ _ _ => s.ops.get? key = none
    | .resolve _ key _ _ _ => s.ops.get? key = none
    | .revokeSource key _ source revision =>
      s.ops.get? key = none ∧ ¬ revoked s source (revision.getD "")
    | .revokeCaptureAuthorization key _ policy decision =>
      s.ops.get? key = none ∧ (policy, decision) ∉ s.captureRevocations
    | _ => False

/-- Nothing that may be remembered has changed while some calls were made. -/
structure Undisturbed (s : State) (more : List Call) : Prop where
  contents : (exec (step host) s more).contents = s.contents
  calls : ∀ front c back, more = front ++ c :: back →
    ¬ Effective host (exec (step host) s front) c

/-- What a control does to an item it lists. -/
def Controlled (s s' : State) (changes : Changes) (ref : Ref) : Prop :=
  ∃ row row', s.items.get? ref.id = some row ∧ s'.items.get? ref.id = some row' ∧
    row.deleted = false ∧ Json.pyEq row.version (.int ref.version) = true ∧
    ¬ revoked s row.metaInfo.source row.metaInfo.revision ∧
    (changeOf changes ref.id ≠ [] → row'.version = .int (ref.version + 1)) ∧
    (changeOf changes ref.id = [] → row' = row)

/-- The key, and the fingerprint, of a call that has both. -/
def Call.keyed : Call → Option (String × String)
  | .begin key fingerprint _ => some (key, fingerprint)
  | .revokeSource key fingerprint _ _ => some (key, fingerprint)
  | .recordCaptureAuthorization key fingerprint _ _ _ => some (key, fingerprint)
  | .revokeCaptureAuthorization key fingerprint _ _ => some (key, fingerprint)
  | .resolve _ key fingerprint _ _ => some (key, fingerprint)
  | .control _ key fingerprint _ _ _ _ => some (key, fingerprint)
  | _ => none

/-- The key, and the epoch, of a control. -/
def Call.controls : Call → Option (String × Int)
  | .control _ key _ _ epoch _ _ => some (key, epoch)
  | .resolve _ key _ _ epoch => some (key, epoch)
  | _ => none

/-- The guarantees. -/
structure Isolated (s : State) : Prop where
  writer : OneWriter s.ops
  epoch : ∀ more, s.epoch ≤ (exec (step host) s more).epoch
  controls : ∀ more (c : Call) key s', c.controls = some (key, (s.epoch : Int)) →
    (exec (step host) s more).ops.get? key = none →
    c.run host (exec (step host) s more) = .ok ((), s') → Undisturbed host s more
  reviews : ∀ more now key plan s', plan.reviewEpoch = some (s.epoch : Int) →
    finishReview host now key plan (exec (step host) s more) = .ok ((), s') →
    Undisturbed host s more
  control : ∀ now key fingerprint plan epoch refs changes s', s.ops.get? key = none →
    Mem0.control host now key fingerprint plan epoch refs changes s = .ok ((), s') →
    (∀ ref ∈ refs, Controlled s s' changes ref) ∧
      ∀ id ∉ refs.map (·.id), s'.items.get? id = s.items.get? id
  resolve : ∀ now key fingerprint plan epoch resolution s', plan.resolution = some resolution →
    s.ops.get? key = none →
    Mem0.resolve host now key fingerprint plan epoch s = .ok ((), s') →
    ∀ ref ∈ resolution.items, ∃ row, s'.items.get? ref.id = some row ∧
      row.version = .int (ref.version + 1)
  refused : ∀ (c : Call) e, c.run host s = .error e → step host s c = s
  keyed : ∀ (c : Call) key fingerprint op, c.keyed = some (key, fingerprint) →
    s.ops.get? key = some op →
    (op.fingerprint ≠ fingerprint → ∃ e, c.run host s = .error e) ∧ step host s c = s
  keys : ∀ more key op, s.ops.get? key = some op →
    ∃ op', (exec (step host) s more).ops.get? key = some op' ∧ op'.fingerprint = op.fingerprint
  revoked : ∀ more source revision, Mem0.revoked s source revision →
    Mem0.revoked (exec (step host) s more) source revision
  captured : ∀ more now authorization,
    (authorization.policyId, authorization.decisionId) ∈ s.captureRevocations →
    assertCaptureAuthorization host now authorization (exec (step host) s more) =
      .error (.memory "memory_capture_authorization_revoked")
  budgets : ∀ key limits, s.budgets.get? key = some limits →
    Afforded s key limits ∧ (∀ c, (step host s c).budgets.get? key = some limits)

end

section

variable {host : Host} {s s' : State} {key fingerprint : String}

theorem step_moves (s : State) (c : Call) : Moves s (step host s c) := (c.within host).left s

theorem run_moves (s : State) (more : List Call) : Moves s (exec (step host) s more) :=
  exec_rel journal.refl journal.trans (fun s c _ => step_moves s c)
    (along_of_forall (P := fun _ => True) fun _ _ => trivial)

/-! ## Effects -/

variable {now : Int} {plan : Plan}

/-- A resolution is a control of its items. -/
theorem resolve_eq_ok {epoch : Int}
    (h : Mem0.resolve host now key fingerprint plan epoch s = .ok ((), s')) :
    ∃ resolution, plan.resolution = some resolution ∧
      Mem0.control host now key fingerprint plan epoch resolution.items
        (resolutionChanges key resolution) s = .ok ((), s') := by
  unfold Mem0.resolve at h
  cases hresolution : plan.resolution with
  | none =>
    rw [hresolution] at h
    exact absurd h Transaction.not_raise_eq_ok
  | some resolution =>
    rw [hresolution] at h
    exact ⟨resolution, rfl, h⟩

variable {c : Call}

/-- **An effective call moves the epoch on.** -/
theorem Effective.epoch (h : Effective host s c) :
    s.epoch < (step host s c).epoch := by
  obtain ⟨⟨s', hrun⟩, h⟩ := h
  rw [step, Transaction.left_of_ok hrun]
  have hcontrol : ∀ {now key fingerprint plan epoch refs changes}, s.ops.get? key = none →
      Mem0.control host now key fingerprint plan epoch refs changes s = .ok ((), s') →
      s.epoch < s'.epoch := by
    intro now key fingerprint plan epoch refs changes hnew hok
    rcases control_eq_ok hok with ⟨⟨op, hold, -⟩, -⟩ | ⟨-, -, records, -, rfl⟩
    · rw [hnew] at hold
      cases hold
    · exact Nat.lt_succ_self _
  cases c with
  | commit key records =>
    obtain ⟨s₁, -, -, -, rfl⟩ := commit_eq_ok hrun
    show s.epoch < if records = [] then s.epoch else s.epoch + 1
    rw [if_neg h]
    exact Nat.lt_succ_self _
  | control => exact hcontrol h hrun
  | resolve =>
    obtain ⟨resolution, hresolution, hrun⟩ := resolve_eq_ok hrun
    exact hcontrol h hrun
  | revokeSource _ _ source revision =>
    obtain ⟨hnew, hopen⟩ := h
    rcases revokeSource_eq_ok hrun with ⟨⟨op, hold, -⟩, -⟩ | ⟨-, s₁, -, hcontents, hepoch, rfl⟩
    · rw [hnew] at hold
      cases hold
    · have hsame : s₁.revocations = s.revocations := congrArg (·.2.1) hcontents
      have hopen' : ¬ revoked s₁ source (revision.getD "") := by
        unfold Mem0.revoked
        rwa [hsame]
      rw [if_neg hopen', ← hepoch]
      exact Nat.lt_succ_self _
  | revokeCaptureAuthorization =>
    obtain ⟨hnew, hopen⟩ := h
    rcases revokeCaptureAuthorization_eq_ok hrun with
      ⟨⟨op, hold, -⟩, -⟩ | ⟨-, s₁, -, hcontents, hepoch, rfl⟩
    · rw [hnew] at hold
      cases hold
    · have hsame : s₁.captureRevocations = s.captureRevocations := congrArg (·.2.2) hcontents
      rw [hsame, if_neg hopen, ← hepoch]
      exact Nat.lt_succ_self _
  | _ => exact h.elim

/-- **An epoch that has not moved** is one under which nothing has changed. -/
theorem undisturbed {more : List Call} (h : (exec (step host) s more).epoch = s.epoch) :
    Undisturbed host s more where
  contents := (run_moves s more).contents h
  calls := by
    intro front c back hmore heffective
    have hbefore : s.epoch ≤ (exec (step host) s front).epoch := (run_moves s front).epoch
    have hmove := heffective.epoch
    have hafter : (step host (exec (step host) s front) c).epoch ≤
        (exec (step host) (step host (exec (step host) s front) c) back).epoch :=
      (run_moves _ back).epoch
    rw [hmore, exec_append, exec_cons] at h
    omega

/-! ## Keys -/

variable {op : Operation}

/-- A call that is given a key that is taken. -/
theorem checkKey_of_taken (h : s.ops.get? key = some op) :
    checkKey key fingerprint s =
      if op.fingerprint ≠ fingerprint then .error (.memory "memory_idempotency_conflict")
      else .ok (false, s) := by
  unfold checkKey
  rw [Transaction.bind_of_ok (m := .read) rfl, h]
  dsimp only
  split <;> rfl

/-- **A keyed method** under a key that is taken refuses, or replays. -/
theorem keyed_taken {α : Type} {work replay : Method α}
    (h : s.ops.get? key = some op) (hreplay : Transaction.ReadOnly replay) :
    (op.fingerprint ≠ fingerprint →
      ∃ e, (checkKey key fingerprint >>= fun new => if new then work else replay) s = .error e) ∧
    (checkKey key fingerprint >>= fun new => if new then work else replay).left s = s := by
  have hcheck : checkKey key fingerprint s = _ := checkKey_of_taken h
  by_cases hsame : op.fingerprint = fingerprint
  · rw [if_neg (not_not.2 hsame)] at hcheck
    refine ⟨fun hne => absurd hsame hne, ?_⟩
    rw [Transaction.left, Transaction.bind_of_ok hcheck]
    exact hreplay.left_eq s
  · rw [if_pos hsame] at hcheck
    have herror : (checkKey key fingerprint >>= fun new => if new then work else replay) s =
        .error (.memory "memory_idempotency_conflict") := by
      show Transaction.bind _ _ s = _
      rw [Transaction.bind, hcheck]
    exact ⟨fun _ => ⟨_, herror⟩, Transaction.left_of_error herror⟩

variable {changes : Changes}

theorem control_taken {epoch : Int} {refs : List Ref} (h : s.ops.get? key = some op) :
    (op.fingerprint ≠ fingerprint →
      ∃ e, Mem0.control host now key fingerprint plan epoch refs changes s = .error e) ∧
    (Mem0.control host now key fingerprint plan epoch refs changes).left s = s :=
  keyed_taken h (Transaction.keeps_pure _)

theorem resolve_taken {epoch : Int} (h : s.ops.get? key = some op) :
    (op.fingerprint ≠ fingerprint →
      ∃ e, Mem0.resolve host now key fingerprint plan epoch s = .error e) ∧
    (Mem0.resolve host now key fingerprint plan epoch).left s = s := by
  unfold Mem0.resolve
  cases plan.resolution with
  | none => exact ⟨fun _ => ⟨_, rfl⟩, rfl⟩
  | some resolution => exact control_taken h

/-- A call with a key that is taken changes nothing. -/
theorem Call.keyed_taken (hc : c.keyed = some (key, fingerprint)) (h : s.ops.get? key = some op) :
    (op.fingerprint ≠ fingerprint → ∃ e, c.run host s = .error e) ∧ step host s c = s := by
  cases c with
  | begin key fingerprint plan =>
    cases hc
    obtain ⟨hrefused, hleft⟩ : (op.fingerprint ≠ fingerprint →
        ∃ e, Mem0.begin key fingerprint plan s = .error e) ∧
        (Mem0.begin key fingerprint plan).left s = s :=
      Mem0.keyed_taken h (Transaction.keeps_pure _)
    refine ⟨fun hne => ?_, (Transaction.left_map _ _ s).trans hleft⟩
    obtain ⟨e, herror⟩ := hrefused hne
    exact ⟨e, Transaction.map_of_error herror⟩
  | revokeSource =>
    cases hc
    exact Mem0.keyed_taken h (Transaction.keeps_pure _)
  | recordCaptureAuthorization =>
    cases hc
    exact Mem0.keyed_taken h (Transaction.keeps_pure _)
  | revokeCaptureAuthorization =>
    cases hc
    exact Mem0.keyed_taken h (Transaction.keeps_pure _)
  | resolve =>
    cases hc
    exact resolve_taken h
  | control =>
    cases hc
    exact control_taken h
  | _ => cases hc

/-! ## Controls -/

theorem assertSource_eq_ok {info : Meta} (h : assertSource info s = .ok ((), s')) :
    ¬ revoked s info.source info.revision := by
  have h := Transaction.read_bind_eq_ok.1 h
  exact (Transaction.refuse_eq_ok.1 h).1

/-- What a control reads of an item, and makes of it. -/
theorem controlRef_eq_ok {kind : String} {ref : Ref} {record : Record}
    (h : controlRef host now kind changes ref s = .ok (record, s')) :
    ∃ row, s.items.get? ref.id = some row ∧ row.deleted = false ∧
      Json.pyEq row.version (.int ref.version) = true ∧
      ¬ revoked s row.metaInfo.source row.metaInfo.revision ∧
      record = changed host now row (changeOf changes ref.id) ref.version := by
  have h := Transaction.read_bind_eq_ok.1 h
  cases hrow : s.items.get? ref.id with
  | none =>
    rw [hrow] at h
    exact absurd h Transaction.not_raise_eq_ok
  | some row =>
    rw [hrow] at h
    obtain ⟨hdeleted, h⟩ := Transaction.refuse_eq_ok.1 h
    obtain ⟨hversion, h⟩ := Transaction.refuse_eq_ok.1 h
    obtain ⟨_, s₁, hsource, h⟩ := Transaction.bind_eq_ok.1 h
    refine ⟨row, rfl, Bool.eq_false_iff.2 hdeleted, not_not.1 hversion,
      assertSource_eq_ok hsource, ?_⟩
    rcases Transaction.ite_eq_ok.1 h with ⟨-, h⟩ | ⟨-, h⟩
    · obtain ⟨expired, s₂, -, h⟩ := Transaction.bind_eq_ok.1 h
      obtain ⟨-, h⟩ := Transaction.refuse_eq_ok.1 h
      exact (Transaction.pure_eq_ok.1 h).1
    · exact (Transaction.pure_eq_ok.1 h).1

theorem get?_updateItems {items : Dict String Record} {records : List Record}
    (hthere : ∀ row ∈ records, row.id ∈ items.keys)
    (hone : ∀ row ∈ records, ∀ row' ∈ records, row.id = row'.id → row = row') :
    (∀ row ∈ records, (records.foldl updateItem items).get? row.id = some row) ∧
      ∀ id ∉ records.map (·.id), (records.foldl updateItem items).get? id = items.get? id := by
  induction records generalizing items with
  | nil => exact ⟨fun _ h => absurd h List.not_mem_nil, fun _ _ => rfl⟩
  | cons record rest ih =>
    obtain ⟨hrecord, hrest⟩ := List.forall_mem_cons.1 hthere
    have hupdate : updateItem items record = items.set record.id record := if_pos hrecord
    rw [List.foldl_cons, hupdate]
    have hkeys : (items.set record.id record).keys = items.keys := Dict.keys_set_of_mem hrecord
    have hthere' : ∀ row ∈ rest, row.id ∈ (items.set record.id record).keys :=
      fun row hrow => hkeys ▸ hrest row hrow
    obtain ⟨hlisted, hothers⟩ := ih hthere' fun row hrow row' hrow' =>
      hone row (List.mem_cons_of_mem _ hrow) row' (List.mem_cons_of_mem _ hrow')
    refine ⟨fun row hrow => ?_, fun id hid => ?_⟩
    · rcases List.mem_cons.1 hrow with rfl | hrow
      · by_cases hagain : row.id ∈ rest.map (·.id)
        · obtain ⟨row', hrow', hsame⟩ := List.mem_map.1 hagain
          have heq := hone row List.mem_cons_self row' (List.mem_cons_of_mem _ hrow') hsame.symm
          have hget := hlisted row' hrow'
          rwa [← heq] at hget
        · rw [hothers row.id hagain, Dict.get?_set_self]
      · exact hlisted row hrow
    · rw [List.map_cons, List.mem_cons, not_or] at hid
      rw [hothers id hid.2, Dict.get?_set_of_ne hid.1]

/-- **What a control does** to the items. -/
theorem Controls.items {epoch : Int} {refs : List Ref} (hs : Sound s)
    (h : Controls host now key fingerprint plan epoch refs changes s s') :
    (∀ ref ∈ refs, Controlled s s' changes ref) ∧
      ∀ id ∉ refs.map (·.id), s'.items.get? id = s.items.get? id := by
  obtain ⟨records, hrecords, rfl⟩ := h.outcome
  have hall := Transaction.mapM_eq_ok_of_readOnly (readOnly_controlRef _ _) hrecords
  have hread : ∀ ref record, controlRef host now plan.kind changes ref s = .ok (record, s) →
      record.id = ref.id ∧ ref.id ∈ s.items.keys := by
    intro ref record hok
    obtain ⟨row, hrow, -, -, -, rfl⟩ := controlRef_eq_ok hok
    exact ⟨changed_kept.trans (hs.named ref.id row hrow), Dict.mem_keys_iff.2 ⟨row, hrow⟩⟩
  have hfrom : ∀ record ∈ records, ∃ ref ∈ refs,
      controlRef host now plan.kind changes ref s = .ok (record, s) := fun record hrecord =>
    forall₂_mem_right hall record hrecord
  have hone : ∀ row ∈ records, ∀ row' ∈ records, row.id = row'.id → row = row' := by
    intro record hrecord record' hrecord' hid
    obtain ⟨ref, -, hok⟩ := hfrom record hrecord
    obtain ⟨ref', -, hok'⟩ := hfrom record' hrecord'
    have hids : ref.id = ref'.id := by rw [← (hread ref record hok).1, hid, (hread ref' _ hok').1]
    obtain ⟨row, hrow, -, hversion, -, rfl⟩ := controlRef_eq_ok hok
    obtain ⟨row', hrow', -, hversion', -, rfl⟩ := controlRef_eq_ok hok'
    rw [hids, hrow'] at hrow
    cases hrow
    rw [hids, Json.pyEq_int_unique hversion hversion']
  have hthere : ∀ record ∈ records, record.id ∈ s.items.keys := by
    intro record hrecord
    obtain ⟨ref, -, hok⟩ := hfrom record hrecord
    obtain ⟨hid, hthere⟩ := hread ref record hok
    exact hid ▸ hthere
  obtain ⟨hlisted, hothers⟩ := get?_updateItems hthere hone
  refine ⟨fun ref href => ?_, fun id hid => hothers id fun hmem => ?_⟩
  · obtain ⟨record, hrecord, hok⟩ := forall₂_mem_left hall ref href
    have hget := hlisted record hrecord
    rw [(hread ref record hok).1] at hget
    obtain ⟨row, hrow, hdeleted, hversion, hsource, rfl⟩ := controlRef_eq_ok hok
    exact ⟨row, _, hrow, hget, hdeleted, hversion, hsource, version_changed, fun hnone => if_pos hnone⟩
  · obtain ⟨record, hrecord, rfl⟩ := List.mem_map.1 hmem
    obtain ⟨ref, href, hok⟩ := hfrom record hrecord
    exact hid (List.mem_map.2 ⟨ref, href, (hread ref record hok).1.symm⟩)

/-- A resolution has a change for every item it lists. -/
theorem changeOf_resolutionChanges {resolution : Resolution} {ref : Ref}
    (h : ref ∈ resolution.items) : changeOf (resolutionChanges key resolution) ref.id ≠ [] := by
  cases hfind : (resolutionChanges key resolution).find? (·.1 = ref.id) with
  | none =>
    have hmem : (ref.id, _) ∈ resolutionChanges key resolution := List.mem_map.2 ⟨ref, h, rfl⟩
    exact absurd (decide_eq_true rfl) (List.find?_eq_none.1 hfind _ hmem)
  | some change =>
    obtain ⟨ref', -, rfl⟩ := List.mem_map.1 (List.mem_of_find?_eq_some hfind)
    rw [changeOf, hfind]
    exact List.cons_ne_nil _ _

/-- A review is completed against the epoch of its plan. -/
theorem finishReview_eq_ok (h : finishReview host now key plan s = .ok ((), s')) :
    plan.reviewEpoch = some (s.epoch : Int) := by
  have h := Transaction.read_bind_eq_ok.1 h
  cases hop : s.ops.get? key with
  | none =>
    rw [hop] at h
    exact absurd h Transaction.not_raise_eq_ok
  | some op =>
    rw [hop] at h
    obtain ⟨-, h⟩ := Transaction.refuse_eq_ok.1 h
    obtain ⟨_, s₁, hsnapshot, -⟩ := Transaction.bind_eq_ok.1 h
    have hsnapshot := Transaction.read_bind_eq_ok.1 hsnapshot
    have hepoch := (Transaction.refuse_eq_ok.1 hsnapshot).1
    exact not_not.1 fun hne => hepoch (.inl hne)

/-- A control is committed against the epoch it is given. -/
theorem Call.controls_epoch {epoch : Int} (hc : c.controls = some (key, epoch))
    (hnew : s.ops.get? key = none) (h : c.run host s = .ok ((), s')) : (s.epoch : Int) = epoch := by
  have hcontrol : ∀ {now fingerprint plan refs changes},
      Mem0.control host now key fingerprint plan epoch refs changes s = .ok ((), s') →
      (s.epoch : Int) = epoch := by
    intro now fingerprint plan refs changes h
    rcases control_eq_ok h with ⟨⟨op, hold, -⟩, -⟩ | hcontrols
    · rw [hnew] at hold
      cases hold
    · exact hcontrols.epoch_eq
  cases c with
  | control =>
    cases hc
    exact hcontrol h
  | resolve =>
    cases hc
    obtain ⟨resolution, -, h⟩ := resolve_eq_ok h
    exact hcontrol h
  | _ => cases hc

/-! ## Every state that is reached -/

theorem sound_initial : Sound {} where
  writer := fun _ _ _ _ h => by cases h
  named := fun _ _ h => by cases h
  budgeted := fun _ _ h => by cases h
  afforded := fun _ _ h => by cases h

theorem Sound.isolated (hs : Sound s) : Isolated host s where
  writer := hs.writer
  epoch more := (run_moves s more).epoch
  controls := by
    intro more c key s' hc hnew hrun
    exact undisturbed (Int.ofNat.inj (c.controls_epoch hc hnew hrun))
  reviews := by
    intro more now key plan s' hplan hrun
    have hepoch := finishReview_eq_ok hrun
    rw [hplan] at hepoch
    exact undisturbed (Int.ofNat.inj (Option.some.inj hepoch)).symm
  control := by
    intro now key fingerprint plan epoch refs changes s' hnew hrun
    rcases control_eq_ok hrun with ⟨⟨op, hold, -⟩, -⟩ | hcontrols
    · rw [hnew] at hold
      cases hold
    · exact hcontrols.items hs
  resolve := by
    intro now key fingerprint plan epoch resolution s' hresolution hnew hrun ref href
    obtain ⟨resolution', hresolution', hrun⟩ := resolve_eq_ok hrun
    rw [hresolution] at hresolution'
    cases hresolution'
    rcases control_eq_ok hrun with ⟨⟨op, hold, -⟩, -⟩ | hcontrols
    · rw [hnew] at hold
      cases hold
    · obtain ⟨row, row', -, hrow', -, -, -, hmoved, -⟩ := (hcontrols.items hs).1 ref href
      exact ⟨row', hrow', hmoved (changeOf_resolutionChanges href)⟩
  refused := fun c e h => Transaction.left_of_error h
  keyed := fun c key fingerprint op hc h => c.keyed_taken hc h
  keys := fun more => (run_moves s more).fingerprints
  revoked := by
    intro more source revision h
    have hkept : ∀ row ∈ s.revocations, row ∈ (exec (step host) s more).revocations :=
      (run_moves s more).revocations
    exact h.imp (hkept _) (hkept _)
  captured := by
    intro more now authorization h
    have hkept : (authorization.policyId, authorization.decisionId) ∈
        (exec (step host) s more).captureRevocations :=
      (run_moves s more).captureRevocations _ h
    show (if _ then refuse "memory_capture_authorization_revoked" else _ : Method Unit) _ = _
    rw [if_pos hkept]
    rfl
  budgets := fun key limits h =>
    ⟨hs.afforded key limits h, fun c => (step_moves s c).budgets key limits h⟩

/-- **Every state that calls reach, in any order, is isolated.** -/
theorem reached_isolated (host : Host) (run : List Call) :
    Isolated host (exec (step host) {} run) :=
  ((run_moves {} run).sound sound_initial).isolated

end

/-! ## What is not guaranteed -/

section

/-- An item about a user. -/
def preference : Record where
  id := "preference"
  metaInfo := ⟨1, .str "active", .obj [], .null, .str "", .str "", "chat", "", none⟩

/-- Times that are all the same. -/
def still : Host := ⟨fun _ => .ok 0, fun _ => ""⟩

/-- An item is stored. -/
def stored : List Call := [.begin "add" "a" { kind := "add" }, .commit "add" [preference]]

/-- A link is made between two revisions, with no changes. -/
def link (epoch : Int) : Call :=
  .control 0 "link" "l" { kind := "link" } epoch [⟨"preference", 1⟩] []

/-- A control that leaves the version of the item it lists, and one that is committed although a
commit came after its epoch was read. -/
theorem link_keeps_versions_and_empty_commit_unnoticed :
    (∃ s', (link 1).run still (exec (step still) {} stored) = .ok ((), s') ∧
      (s'.items.get? "preference").map Record.version = some (.int 1)) ∧
    (∃ s s', (exec (step still) {} stored).epoch = 1 ∧
      (Call.commit "add" []).run still (exec (step still) {} stored) = .ok ((), s) ∧
      (link 1).run still s = .ok ((), s')) := by
  refine ⟨⟨_, rfl, rfl⟩, _, _, rfl, rfl, rfl⟩

end

end Purra.Mem0
