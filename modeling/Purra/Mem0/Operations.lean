import Purra.Lib.Run
import Purra.Mem0.Journal

/-!
# What the methods of the journal do

* `Call`, `step` — the methods, and one atomic call by some process.
* `Sound` — what every state of the journal is like: one writer, items under their ids, and
  budgets that are kept.
* `journal` — what a call may do to a state.
* `Call.within` — every call does no more.
-/

namespace Purra.Mem0

/-- A call of a method that may write. -/
inductive Call where
  | begin (key fingerprint : String) (plan : Plan)
  | savePlan (key : String) (plan : Plan)
  | saveIds (key : String) (ids : List String)
  | budget (key : String) (limits : Limits)
  | admitCall (now : Int) (budget : String) (operation : Option String) (kind : CallKind)
      (inputChars reservedOutput : Nat) (uuid : String)
  | settle (callId state : String) (inputTokens generationTokens : Option Int)
  | providerError (key code : String)
  | verifyProviders (key : String)
  | fail (key : String) (dispatched : Bool)
  | discard (key : String)
  | revokeSource (key fingerprint source : String) (revision : Option String)
  | recordCaptureAuthorization (key fingerprint : String) (authorization : Authorization)
      (validFrom expires : Option String)
  | revokeCaptureAuthorization (key fingerprint policy decision : String)
  | resolve (now : Int) (key fingerprint : String) (plan : Plan) (epoch : Int)
  | control (now : Int) (key fingerprint : String) (plan : Plan) (epoch : Int) (refs : List Ref)
      (changes : Changes)
  | finishReview (now : Int) (key : String) (plan : Plan)
  | commit (key : String) (records : List Record)

/-- The call, its value left out. -/
def Call.run (host : Host) : Call → Method Unit
  | .begin key fingerprint plan => (fun _ => ()) <$> Mem0.begin key fingerprint plan
  | .savePlan key plan => Mem0.savePlan key plan
  | .saveIds key ids => Mem0.saveIds key ids
  | .budget key limits => Mem0.budget key limits
  | .admitCall now account operation kind inputChars reservedOutput uuid =>
    (fun _ => ()) <$>
      Mem0.admitCall host now account operation kind inputChars reservedOutput uuid
  | .settle callId state inputTokens generationTokens =>
    Mem0.settle callId state inputTokens generationTokens
  | .providerError key code => Mem0.providerError key code
  | .verifyProviders key => Mem0.verifyProviders key
  | .fail key dispatched => Mem0.fail key dispatched
  | .discard key => Mem0.discard key
  | .revokeSource key fingerprint source revision =>
    Mem0.revokeSource key fingerprint source revision
  | .recordCaptureAuthorization key fingerprint authorization validFrom expires =>
    Mem0.recordCaptureAuthorization key fingerprint authorization validFrom expires
  | .revokeCaptureAuthorization key fingerprint policy decision =>
    Mem0.revokeCaptureAuthorization key fingerprint policy decision
  | .resolve now key fingerprint plan epoch => Mem0.resolve host now key fingerprint plan epoch
  | .control now key fingerprint plan epoch refs changes =>
    Mem0.control host now key fingerprint plan epoch refs changes
  | .finishReview now key plan => Mem0.finishReview host now key plan
  | .commit key records => Mem0.commit key records

/-- One call by some process: committed, or rolled back. -/
def step (host : Host) (s : State) (c : Call) : State := (c.run host).left s

/-! ## States -/

/-- At most one operation is running or unknown. -/
def OneWriter (ops : Dict String Operation) : Prop :=
  ∀ key key' op op', ops.get? key = some op → ops.get? key' = some op' →
    op.state.writes = true → op'.state.writes = true → key = key'

/-- The calls of a budget keep its limits. -/
structure Afforded (s : State) (key : String) (limits : Limits) : Prop where
  calls : ∀ kind, used s key (ofKind kind) ≤ limits.calls kind
  inputChars : used s key (·.inputChars) ≤ limits.maxInputChars
  outputTokens : used s key (·.reservedOutput) ≤ limits.maxOutputTokens

/-- What every state of the journal is like. -/
structure Sound (s : State) : Prop where
  writer : OneWriter s.ops
  named : ∀ id row, s.items.get? id = some row → row.id = id
  budgeted : ∀ id call, s.calls.get? id = some call → s.budgets.get? call.budget ≠ none
  afforded : ∀ key limits, s.budgets.get? key = some limits → Afforded s key limits

/-- What decides about items: the items themselves and what was revoked. -/
def State.contents (s : State) :
    Dict String Record × List (String × String) × List (String × String) :=
  (s.items, s.revocations, s.captureRevocations)

/-- What a call may do to a state. -/
structure Moves (s s' : State) : Prop where
  epoch : s.epoch ≤ s'.epoch
  contents : s'.epoch = s.epoch → s'.contents = s.contents
  revocations : ∀ row ∈ s.revocations, row ∈ s'.revocations
  captureRevocations : ∀ row ∈ s.captureRevocations, row ∈ s'.captureRevocations
  budgets : ∀ key limits, s.budgets.get? key = some limits → s'.budgets.get? key = some limits
  fingerprints : ∀ key op, s.ops.get? key = some op →
    ∃ op', s'.ops.get? key = some op' ∧ op'.fingerprint = op.fingerprint
  sound : Sound s → Sound s'

/-- What a call may do to a state, as a frame. -/
def journal : Transaction.Frame State where
  rel := Moves
  refl s := ⟨le_refl _, fun _ => rfl, fun _ h => h, fun _ h => h, fun _ _ h => h,
    fun _ op h => ⟨op, h, rfl⟩, fun h => h⟩
  trans := by
    intro s s' s'' h h'
    refine ⟨h.epoch.trans h'.epoch, fun heq => ?_,
      fun row hrow => h'.revocations row (h.revocations row hrow),
      fun row hrow => h'.captureRevocations row (h.captureRevocations row hrow),
      fun key limits hk => h'.budgets key limits (h.budgets key limits hk), fun key op hop => ?_,
      fun hs => h'.sound (h.sound hs)⟩
    · have hle := h.epoch
      have hle' := h'.epoch
      rw [h'.contents (by omega), h.contents (by omega)]
    · obtain ⟨op', hop', hfp⟩ := h.fingerprints key op hop
      obtain ⟨op'', hop'', hfp'⟩ := h'.fingerprints key op' hop'
      exact ⟨op'', hop'', hfp'.trans hfp⟩

/-! ## Writes to the operations -/

section

variable {s s' : State} {key fingerprint : String} {op : Operation}

theorem OneWriter.set {ops : Dict String Operation} (h : OneWriter ops)
    (hfence : ¬ (op.state.writes = true ∧ fenced ops key)) : OneWriter (ops.set key op) := by
  have hother : ∀ {k o}, k ≠ key → (ops.set key op).get? k = some o → o.state.writes = true →
      op.state.writes ≠ true := by
    intro k o hk ho hwrites hnew
    rw [Dict.get?_set_of_ne hk] at ho
    exact hfence ⟨hnew, (k, o), Dict.mem_entries_iff.2 ho, hk, hwrites⟩
  intro k k' o o' ho ho' hw hw'
  by_cases hk : k = key
  · by_cases hk' : k' = key
    · rw [hk, hk']
    · rw [hk, Dict.get?_set_self] at ho
      exact absurd (Option.some.inj ho ▸ hw) (hother hk' ho' hw')
  · by_cases hk' : k' = key
    · rw [hk', Dict.get?_set_self] at ho'
      exact absurd (Option.some.inj ho' ▸ hw') (hother hk ho hw)
    · rw [Dict.get?_set_of_ne hk] at ho
      rw [Dict.get?_set_of_ne hk'] at ho'
      exact h k k' o o' ho ho' hw hw'

theorem putOperation_eq_ok (h : putOperation key op s = .ok ((), s')) :
    ¬ (op.state.writes = true ∧ fenced s.ops key) ∧ s' = { s with ops := s.ops.set key op } := by
  have h := Transaction.read_bind_eq_ok.1 h
  obtain ⟨hfence, hwrite⟩ := Transaction.refuse_eq_ok.1 h
  exact ⟨hfence, Transaction.write_eq_ok.1 hwrite⟩

/-- An operation is written under a key that is new, or whose fingerprint it keeps. -/
theorem moves_ops (hfence : ¬ (op.state.writes = true ∧ fenced s.ops key))
    (hkey : ∀ old, s.ops.get? key = some old → op.fingerprint = old.fingerprint) :
    Moves s { s with ops := s.ops.set key op } where
  epoch := le_refl _
  contents := fun _ => rfl
  revocations := fun _ h => h
  captureRevocations := fun _ h => h
  budgets := fun _ _ h => h
  fingerprints := by
    intro k old hold
    by_cases hk : k = key
    · subst hk
      exact ⟨op, Dict.get?_set_self s.ops k op, hkey old hold⟩
    · exact ⟨old, (Dict.get?_set_of_ne hk).trans hold, rfl⟩
  sound := fun h => ⟨h.writer.set hfence, h.named, h.budgeted,
    fun k limits hk => ⟨(h.afforded k limits hk).calls, (h.afforded k limits hk).inputChars,
      (h.afforded k limits hk).outputTokens⟩⟩

theorem within_updateOperation {f : Operation → Operation}
    (hf : ∀ op, (f op).fingerprint = op.fingerprint) :
    Transaction.Within journal (updateOperation key f) := by
  intro s a s' h
  have h := Transaction.read_bind_eq_ok.1 h
  cases hop : s.ops.get? key with
  | none =>
    rw [hop] at h
    rw [(Transaction.pure_eq_ok.1 h).2]
    exact journal.refl s
  | some op =>
    rw [hop] at h
    obtain ⟨hfence, rfl⟩ := putOperation_eq_ok h
    refine moves_ops hfence fun old hold => ?_
    rw [hop] at hold
    cases hold
    exact hf op

/-- Whether the key is new, or its operation had the same fingerprint. -/
theorem checkKey_eq_ok {new : Bool} (h : checkKey key fingerprint s = .ok (new, s')) :
    s' = s ∧ (new = true ∧ s.ops.get? key = none ∨
      new = false ∧ ∃ op, s.ops.get? key = some op ∧ op.fingerprint = fingerprint) := by
  have h := Transaction.read_bind_eq_ok.1 h
  cases hop : s.ops.get? key with
  | none =>
    rw [hop] at h
    obtain ⟨rfl, rfl⟩ := Transaction.pure_eq_ok.1 h
    exact ⟨rfl, .inl ⟨rfl, rfl⟩⟩
  | some op =>
    rw [hop] at h
    obtain ⟨hsame, h⟩ := Transaction.refuse_eq_ok.1 h
    obtain ⟨rfl, rfl⟩ := Transaction.pure_eq_ok.1 h
    exact ⟨rfl, .inr ⟨rfl, op, rfl, not_not.1 hsame⟩⟩

/-- **A keyed method**: it replays, or does its work under a new key. -/
theorem keyed_eq_ok {α : Type} {work replay : Method α} {a : α}
    (h : (checkKey key fingerprint >>= fun new => if new then work else replay) s =
      .ok (a, s')) :
    (s.ops.get? key = none ∧ work s = .ok (a, s')) ∨
      (∃ op, s.ops.get? key = some op ∧ op.fingerprint = fingerprint) ∧
        replay s = .ok (a, s') := by
  obtain ⟨new, s₁, hcheck, h⟩ := Transaction.bind_eq_ok.1 h
  obtain ⟨rfl, ⟨rfl, hnew⟩ | ⟨rfl, hold⟩⟩ := checkKey_eq_ok hcheck
  · exact .inl ⟨hnew, h⟩
  · exact .inr ⟨hold, h⟩

/-! ## Reading -/

theorem readOnly_lift {α : Type} (x : Except PyError α) : Transaction.ReadOnly (lift x) :=
  Transaction.keeps_ofExcept _

theorem readOnly_assertSource (info : Meta) : Transaction.ReadOnly (assertSource info) := by
  unfold assertSource
  refine Transaction.keeps_read_bind fun s => ?_
  exact Transaction.keeps_ite (Transaction.keeps_raise _) (Transaction.keeps_pure _)

section

variable {host : Host} {now : Int}

theorem readOnly_reached (otherwise : Bool) (time : Option String) :
    Transaction.ReadOnly (reached host now otherwise time) := by
  cases time with
  | none => exact Transaction.keeps_pure _
  | some time => exact Transaction.keeps_bind (readOnly_lift _) fun _ => Transaction.keeps_pure _

theorem readOnly_assertCaptureAuthorization (authorization : Authorization) :
    Transaction.ReadOnly (assertCaptureAuthorization host now authorization) := by
  refine Transaction.keeps_read_bind fun s =>
    Transaction.keeps_ite (Transaction.keeps_raise _) ?_
  split
  · exact Transaction.keeps_raise _
  · refine Transaction.keeps_ite (Transaction.keeps_raise _) ?_
    refine Transaction.keeps_bind (readOnly_reached _ _) fun started => ?_
    refine Transaction.keeps_ite (Transaction.keeps_raise _) ?_
    exact Transaction.keeps_bind (readOnly_reached _ _) fun _ =>
      Transaction.keeps_ite (Transaction.keeps_raise _) (Transaction.keeps_pure _)

theorem readOnly_assertRef (ref : Ref) : Transaction.ReadOnly (assertRef host now ref) := by
  refine Transaction.keeps_read_bind fun s => ?_
  split
  · exact Transaction.keeps_raise _
  · refine Transaction.keeps_ite (Transaction.keeps_raise _) ?_
    exact Transaction.keeps_bind (readOnly_assertSource _) fun _ =>
      Transaction.keeps_bind (readOnly_reached _ _) fun _ =>
        Transaction.keeps_ite (Transaction.keeps_raise _) (Transaction.keeps_pure _)

theorem readOnly_assertSnapshot (plan : Plan) :
    Transaction.ReadOnly (assertSnapshot host now plan) := by
  refine Transaction.keeps_read_bind fun s => ?_
  exact Transaction.keeps_ite (Transaction.keeps_raise _)
    (Transaction.keeps_forM readOnly_assertRef _)

theorem readOnly_reviewPlan (key : String) : Transaction.ReadOnly (reviewPlan key) := by
  refine Transaction.keeps_read_bind fun s => ?_
  split
  · exact Transaction.keeps_ite (Transaction.keeps_raise _) (Transaction.keeps_pure _)
  · exact Transaction.keeps_raise _

theorem readOnly_controlRef (kind : String) (changes : Changes) (ref : Ref) :
    Transaction.ReadOnly (controlRef host now kind changes ref) := by
  refine Transaction.keeps_read_bind fun s => ?_
  split
  · exact Transaction.keeps_raise _
  · refine Transaction.keeps_ite (Transaction.keeps_raise _)
      (Transaction.keeps_ite (Transaction.keeps_raise _) ?_)
    refine Transaction.keeps_bind (readOnly_assertSource _) fun _ =>
      Transaction.keeps_ite ?_ (Transaction.keeps_pure _)
    exact Transaction.keeps_bind (readOnly_reached _ _) fun _ =>
      Transaction.keeps_ite (Transaction.keeps_raise _) (Transaction.keeps_pure _)

theorem readOnly_assertReviewed (key : String) :
    Transaction.ReadOnly (assertReviewed host now key) :=
  Transaction.keeps_bind (readOnly_reviewPlan key) fun _ => readOnly_assertSnapshot _

theorem readOnly_forSome {α : Type} {check : α → Method Unit}
    (h : ∀ a, Transaction.ReadOnly (check a)) (value : Option α) :
    Transaction.ReadOnly (forSome value check) := by
  cases value with
  | none => exact Transaction.keeps_pure _
  | some a => exact h a

theorem readOnly_assertAdmissible (op : Operation) :
    Transaction.ReadOnly (assertAdmissible host now op) := by
  refine Transaction.keeps_bind ?_ fun _ => Transaction.keeps_bind ?_ fun _ => ?_
  · exact Transaction.keeps_ite (readOnly_assertSnapshot _) (Transaction.keeps_pure _)
  · exact Transaction.keeps_ite (readOnly_forSome readOnly_assertSource _)
      (Transaction.keeps_pure _)
  · exact readOnly_forSome readOnly_assertCaptureAuthorization _

end

/-! ## Every method -/

section

variable {s s' : State} {key fingerprint : String}

/-- A write that leaves operations, budgets and calls alone. -/
theorem moves_contents {epoch : Nat} {items : Dict String Record}
    {revocations captureRevocations : List (String × String)}
    {grants : Dict (String × String) Grant} (hepoch : s.epoch ≤ epoch)
    (hcontents : epoch = s.epoch →
      (items, revocations, captureRevocations) = s.contents)
    (hrevocations : ∀ row ∈ s.revocations, row ∈ revocations)
    (hcaptures : ∀ row ∈ s.captureRevocations, row ∈ captureRevocations)
    (hnamed : (∀ id row, s.items.get? id = some row → row.id = id) →
      ∀ id row, items.get? id = some row → row.id = id) :
    Moves s { s with epoch, items, revocations, captureRevocations, grants } where
  epoch := hepoch
  contents := hcontents
  revocations := hrevocations
  captureRevocations := hcaptures
  budgets := fun _ _ h => h
  fingerprints := fun _ op h => ⟨op, h, rfl⟩
  sound := fun h => ⟨h.writer, hnamed h.named, h.budgeted,
    fun k limits hk => ⟨(h.afforded k limits hk).calls, (h.afforded k limits hk).inputChars,
      (h.afforded k limits hk).outputTokens⟩⟩

variable {plan : Plan}

/-- A receipt under a new key. -/
theorem within_receipt {ids : List String} (hnew : s.ops.get? key = none)
    (h : putOperation key (receipt fingerprint plan ids) s = .ok ((), s')) : Moves s s' := by
  obtain ⟨hfence, rfl⟩ := putOperation_eq_ok h
  refine moves_ops hfence fun old hold => ?_
  rw [hnew] at hold
  cases hold

theorem within_begin (plan : Plan) : Transaction.Within journal (begin key fingerprint plan) := by
  intro s a s' h
  rcases keyed_eq_ok h with ⟨hnew, h⟩ | ⟨-, h⟩
  · have h := Transaction.read_bind_eq_ok.1 h
    obtain ⟨-, h⟩ := Transaction.refuse_eq_ok.1 h
    obtain ⟨_, s₁, hput, h⟩ := Transaction.bind_eq_ok.1 h
    rw [(Transaction.pure_eq_ok.1 h).2]
    obtain ⟨hfence, rfl⟩ := putOperation_eq_ok hput
    refine moves_ops hfence fun old hold => ?_
    rw [hnew] at hold
    cases hold
  · rw [(Transaction.pure_eq_ok.1 h).2]
    exact journal.refl s

theorem within_verifyProviders : Transaction.Within journal (verifyProviders key) := by
  refine Transaction.Within.read_bind fun s => ?_
  split
  · exact within_updateOperation fun _ => rfl
  · exact Transaction.Within.raise _

theorem within_budget (limits : Limits) : Transaction.Within journal (budget key limits) := by
  intro s a s' h
  have h := Transaction.read_bind_eq_ok.1 h
  cases hknown : s.budgets.get? key with
  | some known =>
    rw [hknown] at h
    obtain ⟨-, h⟩ := Transaction.refuse_eq_ok.1 h
    rw [(Transaction.pure_eq_ok.1 h).2]
    exact journal.refl s
  | none =>
    rw [hknown] at h
    rw [Transaction.write_eq_ok.1 h]
    have hkept : ∀ k l, s.budgets.get? k = some l → (s.budgets.set key limits).get? k = some l := by
      intro k l hk
      refine (Dict.get?_set_of_ne ?_).trans hk
      rintro rfl
      rw [hknown] at hk
      cases hk
    refine ⟨le_refl _, fun _ => rfl, fun _ h => h, fun _ h => h, hkept, fun _ op h => ⟨op, h, rfl⟩,
      fun hs => ⟨hs.writer, hs.named, fun id call hcall hnone => ?_, fun k l hk => ?_⟩⟩
    · cases hbudget : s.budgets.get? call.budget with
      | none => exact hs.budgeted id call hcall hbudget
      | some l => simp [hkept _ l hbudget] at hnone
    · by_cases hkey : k = key
      · -- no call is counted under a budget that was not there
        subst hkey
        have hzero : ∀ amount, used s k amount = 0 := by
          intro amount
          refine List.sum_eq_zero_iff_forall_eq_nat.2 fun n hn => ?_
          obtain ⟨entry, hentry, rfl⟩ := List.mem_map.1 hn
          refine if_neg fun heq => ?_
          exact hs.budgeted entry.1 entry.2 (Dict.mem_entries_iff.1 hentry) (heq ▸ hknown)
        refine ⟨fun kind => ?_, ?_, ?_⟩
        · exact (hzero (ofKind kind)).trans_le (Nat.zero_le _)
        · exact (hzero (·.inputChars)).trans_le (Nat.zero_le _)
        · exact (hzero (·.reservedOutput)).trans_le (Nat.zero_le _)
      · have hold : s.budgets.get? k = some l := (Dict.get?_set_of_ne hkey).symm.trans hk
        have hafforded := hs.afforded k l hold
        exact ⟨hafforded.calls, hafforded.inputChars, hafforded.outputTokens⟩

/-- A call that is counted adds its own amount, under its own budget. -/
theorem used_set {id : String} {call : ProviderCall} (hnew : s.calls.get? id = none) (k : String)
    (amount : ProviderCall → Nat) :
    used { s with calls := s.calls.set id call } k amount =
      used s k amount + if call.budget = k then amount call else 0 :=
  Dict.total_set_of_none _ hnew

variable {host : Host} {now : Int}

theorem within_admitCall {account uuid : String}
    {operation : Option String} {kind : CallKind} {inputChars reservedOutput : Nat} :
    Transaction.Within journal
      (admitCall host now account operation kind inputChars reservedOutput uuid) := by
  intro s a s' h
  have h := Transaction.read_bind_eq_ok.1 h
  obtain ⟨_, s₁, hcheck, h⟩ := Transaction.bind_eq_ok.1 h
  have hsame : s = s₁ := ((readOnly_forSome readOnly_assertAdmissible _).eq hcheck).symm
  subst hsame
  cases hlimits : s.budgets.get? account with
  | none =>
    rw [hlimits] at h
    exact absurd h Transaction.not_raise_eq_ok
  | some limits =>
    rw [hlimits] at h
    obtain ⟨hafford, h⟩ := Transaction.refuse_eq_ok.1 h
    obtain ⟨hnew, h⟩ := Transaction.refuse_eq_ok.1 h
    have h := Transaction.write_bind_eq_ok.1 h
    rw [(Transaction.pure_eq_ok.1 h).2]
    rw [not_or, not_or] at hafford
    have hnone := Dict.get?_eq_none_iff.2 hnew
    refine ⟨le_refl _, fun _ => rfl, fun _ h => h, fun _ h => h, fun _ _ h => h,
      fun _ op h => ⟨op, h, rfl⟩,
      fun hs => ⟨hs.writer, hs.named, fun id call hcall => ?_, fun k l hk => ?_⟩⟩
    · by_cases hid : id = uuid
      · subst hid
        rw [Dict.get?_set_self] at hcall
        cases hcall
        rw [hlimits]
        exact Option.some_ne_none limits
      · exact hs.budgeted id call ((Dict.get?_set_of_ne hid).symm.trans hcall)
    · have hafforded := hs.afforded k l hk
      by_cases hkey : account = k
      · subst hkey
        rw [hlimits] at hk
        cases hk
        refine ⟨fun kind' => ?_, ?_, ?_⟩
        · rw [used_set hnone, if_pos rfl]
          by_cases hkind : kind = kind'
          · subst hkind
            simp only [ofKind, if_true]
            omega
          · simp only [ofKind, hkind, if_false, Nat.add_zero]
            exact hafforded.calls kind'
        · rw [used_set hnone, if_pos rfl]
          show _ + inputChars ≤ _
          omega
        · rw [used_set hnone, if_pos rfl]
          show _ + reservedOutput ≤ _
          omega
      · refine ⟨fun kind' => ?_, ?_, ?_⟩
        · rw [used_set hnone, if_neg hkey]
          exact hafforded.calls kind'
        · rw [used_set hnone, if_neg hkey]
          exact hafforded.inputChars
        · rw [used_set hnone, if_neg hkey]
          exact hafforded.outputTokens

theorem within_settle {callId state : String} {inputTokens generationTokens : Option Int} :
    Transaction.Within journal (settle callId state inputTokens generationTokens) := by
  refine Transaction.Within.write fun s => ?_
  split
  · next call hcall =>
    have hused : ∀ k amount,
        amount { call with state, inputTokens, generationTokens } = amount call →
        (s.calls.set callId { call with state, inputTokens, generationTokens }).total
          (fun _ call => if call.budget = k then amount call else 0) = used s k amount := by
      intro k amount hamount
      have htotal := Dict.total_set_of_get? (v := { call with state, inputTokens, generationTokens })
        (fun _ (call : ProviderCall) => if call.budget = k then amount call else 0) hcall
      dsimp only at htotal
      rw [hamount] at htotal
      exact Nat.add_right_cancel htotal
    refine ⟨le_refl _, fun _ => rfl, fun _ h => h, fun _ h => h, fun _ _ h => h,
      fun _ op h => ⟨op, h, rfl⟩,
      fun hs => ⟨hs.writer, hs.named, fun id c hc => ?_, fun k l hk => ?_⟩⟩
    · by_cases hid : id = callId
      · subst hid
        rw [Dict.get?_set_self] at hc
        cases hc
        exact hs.budgeted id call hcall
      · exact hs.budgeted id c ((Dict.get?_set_of_ne hid).symm.trans hc)
    · have hafforded := hs.afforded k l hk
      refine ⟨fun kind => ?_, ?_, ?_⟩
      · exact (hused k (ofKind kind) rfl).trans_le (hafforded.calls kind)
      · exact (hused k (·.inputChars) rfl).trans_le hafforded.inputChars
      · exact (hused k (·.reservedOutput) rfl).trans_le hafforded.outputTokens
  · exact journal.refl s

/-! ## Revocations, controls and commits -/

/-- What `revoke_source` does under a new key. -/
theorem revokeSource_eq_ok {source : String} {revision : Option String}
    (h : revokeSource key fingerprint source revision s = .ok ((), s')) :
    (∃ op, s.ops.get? key = some op ∧ op.fingerprint = fingerprint) ∧ s' = s ∨
      s.ops.get? key = none ∧ ∃ s₁, Moves s s₁ ∧ s₁.contents = s.contents ∧ s₁.epoch = s.epoch ∧
        s' = if revoked s₁ source (revision.getD "") then s₁
          else { s₁ with
            revocations := s₁.revocations ++ [(source, revision.getD "")]
            epoch := s₁.epoch + 1 } := by
  rcases keyed_eq_ok h with ⟨hnew, h⟩ | ⟨hold, h⟩
  · obtain ⟨_, s₁, hput, h⟩ := Transaction.bind_eq_ok.1 h
    have hmoves := within_receipt hnew hput
    obtain ⟨-, rfl⟩ := putOperation_eq_ok hput
    exact .inr ⟨hnew, _, hmoves, rfl, rfl, Transaction.write_eq_ok.1 h⟩
  · exact .inl ⟨hold, (Transaction.pure_eq_ok.1 h).2⟩

/-- What `revoke_capture_authorization` does under a new key. -/
theorem revokeCaptureAuthorization_eq_ok {policy decision : String}
    (h : revokeCaptureAuthorization key fingerprint policy decision s = .ok ((), s')) :
    (∃ op, s.ops.get? key = some op ∧ op.fingerprint = fingerprint) ∧ s' = s ∨
      s.ops.get? key = none ∧ ∃ s₁, Moves s s₁ ∧ s₁.contents = s.contents ∧ s₁.epoch = s.epoch ∧
        s' = if (policy, decision) ∈ s₁.captureRevocations then s₁
          else { s₁ with
            captureRevocations := s₁.captureRevocations ++ [(policy, decision)]
            epoch := s₁.epoch + 1 } := by
  rcases keyed_eq_ok h with ⟨hnew, h⟩ | ⟨hold, h⟩
  · obtain ⟨_, s₁, hput, h⟩ := Transaction.bind_eq_ok.1 h
    have hmoves := within_receipt hnew hput
    obtain ⟨-, rfl⟩ := putOperation_eq_ok hput
    exact .inr ⟨hnew, _, hmoves, rfl, rfl, Transaction.write_eq_ok.1 h⟩
  · exact .inl ⟨hold, (Transaction.pure_eq_ok.1 h).2⟩

theorem within_revokeSource {source : String} {revision : Option String} :
    Transaction.Within journal (revokeSource key fingerprint source revision) := by
  intro s u s' h
  rcases revokeSource_eq_ok h with ⟨-, rfl⟩ | ⟨-, s₁, hmoves, -, -, rfl⟩
  · exact journal.refl _
  · refine journal.trans hmoves ?_
    split
    · exact journal.refl _
    · refine moves_contents (Nat.le_succ _) (fun heq => ?_)
        (fun _ hrow => List.mem_append_left _ hrow) (fun _ h => h) fun h => h
      exact absurd heq (Nat.succ_ne_self _)

theorem within_revokeCaptureAuthorization {policy decision : String} :
    Transaction.Within journal (revokeCaptureAuthorization key fingerprint policy decision) := by
  intro s u s' h
  rcases revokeCaptureAuthorization_eq_ok h with ⟨-, rfl⟩ | ⟨-, s₁, hmoves, -, -, rfl⟩
  · exact journal.refl _
  · refine journal.trans hmoves ?_
    split
    · exact journal.refl _
    · refine moves_contents (Nat.le_succ _) (fun heq => ?_) (fun _ h => h)
        (fun _ hrow => List.mem_append_left _ hrow) fun h => h
      exact absurd heq (Nat.succ_ne_self _)

theorem within_recordCaptureAuthorization {authorization : Authorization}
    {validFrom expires : Option String} :
    Transaction.Within journal
      (recordCaptureAuthorization key fingerprint authorization validFrom expires) := by
  intro s u s' h
  rcases keyed_eq_ok h with ⟨hnew, h⟩ | ⟨-, h⟩
  · have h := Transaction.read_bind_eq_ok.1 h
    obtain ⟨-, h⟩ := Transaction.refuse_eq_ok.1 h
    obtain ⟨-, h⟩ := Transaction.refuse_eq_ok.1 h
    obtain ⟨_, s₁, hput, h⟩ := Transaction.bind_eq_ok.1 h
    refine journal.trans (within_receipt hnew hput) ?_
    rw [Transaction.write_eq_ok.1 h]
    split
    · exact journal.refl _
    · exact moves_contents (le_refl _) (fun _ => rfl) (fun _ h => h) (fun _ h => h) fun h => h
  · rw [(Transaction.pure_eq_ok.1 h).2]
    exact journal.refl s

theorem named_updateItems {items : Dict String Record}
    (h : ∀ id row, items.get? id = some row → row.id = id) (records : List Record) :
    ∀ id row, (records.foldl updateItem items).get? id = some row → row.id = id := by
  induction records generalizing items with
  | nil => exact h
  | cons record rest ih =>
    refine ih fun id row hrow => ?_
    unfold updateItem at hrow
    split at hrow
    · by_cases hid : id = record.id
      · subst hid
        rw [Dict.get?_set_self] at hrow
        cases hrow
        rfl
      · exact h id row ((Dict.get?_set_of_ne hid).symm.trans hrow)
    · exact h id row hrow

theorem named_setItems {items : Dict String Record}
    (h : ∀ id row, items.get? id = some row → row.id = id) (records : List Record) :
    ∀ id row, (records.foldl (fun items row => items.set row.id row) items).get? id = some row →
      row.id = id := by
  induction records generalizing items with
  | nil => exact h
  | cons record rest ih =>
    refine ih fun id row hrow => ?_
    by_cases hid : id = record.id
    · subst hid
      rw [Dict.get?_set_self] at hrow
      cases hrow
      rfl
    · exact h id row ((Dict.get?_set_of_ne hid).symm.trans hrow)

/-- What `control` does under a new key. -/
structure Controls (host : Host) (now : Int) (key fingerprint : String) (plan : Plan) (epoch : Int)
    (refs : List Ref) (changes : Changes) (s s' : State) : Prop where
  fresh : s.ops.get? key = none
  epoch_eq : (s.epoch : Int) = epoch
  outcome : ∃ records,
    refs.mapM (controlRef host now plan.kind changes) s = .ok (records, s) ∧
      s' = { s with
        ops := s.ops.set key (receipt fingerprint plan (records.map (·.id)))
        items := records.foldl updateItem s.items
        epoch := s.epoch + 1 }

theorem control_eq_ok {epoch : Int} {refs : List Ref} {changes : Changes}
    (h : control host now key fingerprint plan epoch refs changes s = .ok ((), s')) :
    (∃ op, s.ops.get? key = some op ∧ op.fingerprint = fingerprint) ∧ s' = s ∨
      Controls host now key fingerprint plan epoch refs changes s s' := by
  rcases keyed_eq_ok h with ⟨hnew, h⟩ | ⟨hold, h⟩
  · have h := Transaction.read_bind_eq_ok.1 h
    obtain ⟨-, h⟩ := Transaction.refuse_eq_ok.1 h
    obtain ⟨hepoch, h⟩ := Transaction.refuse_eq_ok.1 h
    obtain ⟨_, s₁, hreviewed, h⟩ := Transaction.bind_eq_ok.1 h
    have hsame : s = s₁ := ((readOnly_forSome readOnly_assertReviewed _).eq hreviewed).symm
    subst hsame
    obtain ⟨_, s₁, hgranted, h⟩ := Transaction.bind_eq_ok.1 h
    have hsame : s = s₁ :=
      ((readOnly_forSome readOnly_assertCaptureAuthorization _).eq hgranted).symm
    subst hsame
    obtain ⟨records, s₁, hrecords, h⟩ := Transaction.bind_eq_ok.1 h
    have hsame : s = s₁ :=
      (Transaction.ReadOnly.eq (Transaction.keeps_mapM (readOnly_controlRef _ _) refs)
        hrecords).symm
    subst hsame
    obtain ⟨_, s₁, hput, h⟩ := Transaction.bind_eq_ok.1 h
    obtain ⟨-, rfl⟩ := putOperation_eq_ok hput
    exact .inr ⟨hnew, not_not.1 hepoch, records, hrecords, Transaction.write_eq_ok.1 h⟩
  · exact .inl ⟨hold, (Transaction.pure_eq_ok.1 h).2⟩

theorem within_control {epoch : Int} {refs : List Ref} {changes : Changes} :
    Transaction.Within journal (control host now key fingerprint plan epoch refs changes) := by
  intro s u s' h
  rcases control_eq_ok h with ⟨-, rfl⟩ | ⟨hnew, -, records, -, rfl⟩
  · exact journal.refl _
  · have hops : Moves s { s with
        ops := s.ops.set key (receipt fingerprint plan (records.map (·.id))) } := by
      refine moves_ops (fun hfence => by cases hfence.1) fun old hold => ?_
      rw [hnew] at hold
      cases hold
    refine journal.trans hops ?_
    refine moves_contents (Nat.le_succ _) (fun heq => absurd heq (Nat.succ_ne_self _))
      (fun _ h => h) (fun _ h => h) fun hnamed => named_updateItems hnamed records

/-- What `commit` does. -/
theorem commit_eq_ok {records : List Record} (h : commit key records s = .ok ((), s')) :
    ∃ s₁, Moves s s₁ ∧ s₁.contents = s.contents ∧ s₁.epoch = s.epoch ∧ s' = { s₁ with
      items := records.foldl (fun items row => items.set row.id row) s.items
      epoch := if records = [] then s.epoch else s.epoch + 1 } := by
  have h := Transaction.write_bind_eq_ok.1 h
  obtain ⟨_, s₁, hupdate, h⟩ := Transaction.bind_eq_ok.1 h
  have h := Transaction.write_eq_ok.1 h
  have hread := Transaction.read_bind_eq_ok.1 hupdate
  cases hop : s.ops.get? key with
  | none =>
    rw [show ({ s with items := records.foldl (fun items row => items.set row.id row) s.items } :
      State).ops.get? key = none from hop] at hread
    obtain ⟨-, rfl⟩ := Transaction.pure_eq_ok.1 hread
    refine ⟨s, journal.refl s, rfl, rfl, h.trans ?_⟩
    split <;> rfl
  | some op =>
    rw [show ({ s with items := records.foldl (fun items row => items.set row.id row) s.items } :
      State).ops.get? key = some op from hop] at hread
    obtain ⟨hfence, rfl⟩ := putOperation_eq_ok hread
    refine ⟨{ s with ops := s.ops.set key { op with state := .complete } },
      moves_ops hfence fun old hold => ?_, rfl, rfl, h.trans ?_⟩
    · rw [hop] at hold
      cases hold
      rfl
    · split <;> rfl

theorem within_commit {records : List Record} :
    Transaction.Within journal (commit key records) := by
  intro s u s' h
  obtain ⟨s₁, hmoves, hcontents, hepoch, rfl⟩ := commit_eq_ok h
  refine journal.trans hmoves ?_
  have hitems : s₁.items = s.items := congrArg Prod.fst hcontents
  rw [← hitems, ← hepoch]
  by_cases hnone : records = []
  · subst hnone
    exact moves_contents (le_refl _) (fun _ => rfl) (fun _ h => h) (fun _ h => h) fun h => h
  · rw [if_neg hnone]
    exact moves_contents (Nat.le_succ _) (fun heq => absurd heq (Nat.succ_ne_self _))
      (fun _ h => h) (fun _ h => h) fun hnamed => named_setItems hnamed records

theorem within_finishReview :
    Transaction.Within journal (finishReview host now key plan) := by
  refine Transaction.Within.read_bind fun s => ?_
  split
  · exact Transaction.Within.raise _
  · refine Transaction.Within.ite (Transaction.Within.raise _) ?_
    exact Transaction.Within.bind (readOnly_assertSnapshot plan).within fun _ =>
      within_updateOperation fun _ => rfl

/-- **Every call** does no more than a call may. -/
theorem Call.within (host : Host) (c : Call) : Transaction.Within journal (c.run host) := by
  cases c with
  | begin key fingerprint plan =>
    exact Transaction.Within.bind (within_begin plan) fun _ => Transaction.Within.pure _
  | savePlan key plan => exact within_updateOperation fun _ => rfl
  | saveIds key ids => exact within_updateOperation fun _ => rfl
  | budget key limits => exact within_budget limits
  | admitCall =>
    exact Transaction.Within.bind within_admitCall fun _ => Transaction.Within.pure _
  | settle => exact within_settle
  | providerError key code => exact within_updateOperation fun _ => rfl
  | verifyProviders key => exact within_verifyProviders
  | fail key dispatched => exact within_updateOperation fun _ => rfl
  | discard key => exact within_updateOperation fun _ => rfl
  | revokeSource => exact within_revokeSource
  | recordCaptureAuthorization =>
    exact within_recordCaptureAuthorization
  | revokeCaptureAuthorization =>
    exact within_revokeCaptureAuthorization
  | resolve now key fingerprint plan epoch =>
    show Transaction.Within journal (Mem0.resolve host now key fingerprint plan epoch)
    unfold Mem0.resolve
    split
    · exact within_control
    · exact Transaction.Within.raise _
  | control => exact within_control
  | finishReview now key plan => exact within_finishReview
  | commit key records => exact within_commit

end

end

end Purra.Mem0
