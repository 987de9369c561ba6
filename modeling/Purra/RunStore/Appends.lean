import Purra.RunStore.Store

/-!
# What `append` does

* `Plain` — no Run has a journal that was left where it is stored.  Reading is then reading the
  lists that are held: `historyEvents_plain`, `sourceEvent_plain`.
* `Still` — an action that leaves a plain state as it is.
* `append_cases` — **`append`** throws and changes nothing, finds its event and changes nothing, or
  pushes one event under a key that was not taken.
-/

namespace Purra.RunStore

/-- No Run has a deferred journal. -/
def Plain (s : State) : Prop := s.deferredHistories = Dict.empty

section

variable {s : State} {runId key : String} {root : Bool}

theorem Plain.get? (h : Plain s) : s.deferredHistories.get? runId = none := by
  rw [h]
  rfl

theorem historyEvents_plain (h : Plain s) :
    historyEvents runId root s = (.ok (s.pending runId root), s) := by
  unfold historyEvents
  rw [Action.read_bind_apply, h.get?]
  rfl

theorem sourceEvent_plain (h : Plain s) :
    sourceEvent runId key root s = (.ok ((s.sources runId root).get? key), s) := by
  unfold sourceEvent
  rw [Action.read_bind_apply, h.get?]
  cases (s.sources runId root).get? key <;> rfl

theorem eventCount_plain (h : Plain s) :
    eventCount s runId root = (s.pending runId root).length := by
  unfold eventCount
  rw [h.get?]
  exact Nat.zero_add _

end

/-! ## Actions that only look -/

/-- An action that leaves a plain state as it is. -/
def Still {α : Type} (m : Act α) : Prop := ∀ s, Plain s → m.final s = s

section

variable {α β : Type} {m : Act α} {f : α → Act β}

theorem Still.apply (h : Still m) {s : State} (hs : Plain s) : m s = ((m s).1, s) := by
  have hfinal : (m s).2 = s := h s hs
  exact Prod.ext rfl hfinal

/-- What follows an action that only looks. -/
theorem Still.bind_cases (h : Still m) {s : State} (hs : Plain s) (f : α → Act β) :
    (∃ e, m s = (.error e, s) ∧ (m >>= f) s = (.error e, s)) ∨
      ∃ a, m s = (.ok a, s) ∧ (m >>= f) s = f a s := by
  rw [Action.bind_apply]
  have happly := h.apply hs
  cases hr : (m s).1 with
  | error e =>
    rw [hr] at happly
    exact .inl ⟨e, happly, by rw [happly]⟩
  | ok a =>
    rw [hr] at happly
    exact .inr ⟨a, happly, by rw [happly]⟩

theorem still_pure (a : α) : Still (pure a : Act α) := fun _ _ => rfl

theorem still_raise (e : StoreError) : Still (.raise e : Act α) := fun _ _ => rfl

theorem still_ofExcept (x : Except StoreError α) : Still (.ofExcept x : Act α) := fun _ _ => rfl

theorem still_bind (hm : Still m) (hf : ∀ a, Still (f a)) : Still (m >>= f) := by
  intro s hs
  have hstill : (m s).2 = s := hm s hs
  unfold Action.final
  rw [Action.bind_apply]
  cases h : m s with
  | mk r s' =>
    rw [h] at hstill
    subst hstill
    cases r with
    | ok a => exact hf a _ hs
    | error e => rfl

theorem still_read_bind {f : State → Act β} (hf : ∀ s, Still (f s)) :
    Still (Action.read >>= f) := still_bind (fun _ _ => rfl) hf

theorem still_ite {c : Prop} [Decidable c] {m' : Act α} (hm : Still m) (hm' : Still m') :
    Still (if c then m else m') := by
  split
  · exact hm
  · exact hm'

theorem still_throwIf (condition : Prop) [Decidable condition] (error : StoreError) :
    Still (throwIf condition error) := still_ite (still_raise _) (still_pure _)

theorem still_historyEvents (runId : String) (root : Bool) : Still (historyEvents runId root) := by
  intro s hs
  rw [Action.final, historyEvents_plain hs]

theorem still_sourceEvent (runId key : String) (root : Bool) :
    Still (sourceEvent runId key root) := by
  intro s hs
  rw [Action.final, sourceEvent_plain hs]

end

section

variable {host : Host} {env : Env}

theorem still_requirePlanningOperation (runId operationId : String) :
    Still (requirePlanningOperation runId operationId) :=
  still_bind (still_historyEvents _ _) fun _ => still_ofExcept _

/-- **Validation only looks.** -/
theorem still_validatePlanningProjection (runId : String) (draft : CopiedDraft) :
    Still (validatePlanningProjection host runId draft) := by
  refine still_read_bind fun s => ?_
  split
  · exact still_ite (still_ofExcept _) (still_pure _)
  · refine still_ite (still_pure _) ?_
    split
    · exact still_bind (still_historyEvents _ _) fun _ => still_ofExcept _
    · exact still_raise _
  · split
    · exact still_bind (still_historyEvents _ _) fun _ => still_ofExcept _
    · exact still_raise _
  · exact still_bind (still_sourceEvent _ _ _) fun _ => still_bind (still_ofExcept _) fun _ =>
      still_requirePlanningOperation _ _
  · exact still_bind (still_ofExcept _) fun _ =>
      still_bind (still_requirePlanningOperation _ _) fun _ =>
        still_bind (still_historyEvents _ _) fun _ => still_ofExcept _
  · exact still_pure _

theorem still_require (runId : String) : Still (require runId) := by
  refine still_read_bind fun s => ?_
  split
  · exact still_raise _
  · exact still_ite (still_raise _) (still_pure _)

theorem still_requireLease (run : StoredRun) (claim : LeaseClaim) :
    Still (requireLease env run claim) := still_ite (still_pure _) (still_ofExcept _)

theorem still_active (runId : String) (claim : LeaseClaim) :
    Still (active host env runId claim) := by
  exact still_bind (still_require _) fun run => still_bind (still_throwIf _ _) fun _ =>
    still_bind (still_throwIf _ _) fun _ => still_bind (still_requireLease _ _) fun _ =>
      still_pure _

/-! ## `append` -/

theorem updateUsages_apply (runId rootId : String) (f : Usage → Usage) (s : State) :
    updateUsages host env runId rootId f s =
      (.ok (), (updateUsages host env runId rootId f).final s) := by
  unfold updateUsages Action.final
  rw [Action.bind_apply]
  by_cases hroot : rootId ≠ runId
  · rw [if_pos hroot]
    rfl
  · rw [if_neg hroot]
    rfl

/-- What is counted of an event before it is pushed. -/
def emitted (host : Host) (env : Env) (runId rootId : String) (meter : Bool) (draft : CopiedDraft)
    (s : State) : State :=
  if meter = true ∧ draft.kind.metered = true then
    (updateUsages host env runId rootId (·.emit (byteLength host draft.payload))).final s
  else s

/-- Nothing but its key keeps a draft out. -/
structure Admitted (host : Host) (runId rootId : String) (meter : Bool) (draft : CopiedDraft)
    (s : State) : Prop where
  valid : (validatePlanningProjection host runId draft s).1 = .ok ()
  safe : isSafeInteger (eventCount s runId + 1 : Nat)
  rootSafe : isSafeInteger (eventCount s runId true + 1 : Nat)
  budget : meter = true → checkBudget host (s.run rootId).snapshot draft = .ok ()

/-- The draft is appended: its key was not taken. -/
structure Appended (host : Host) (env : Env) (runId rootId : String) (meter : Bool) (raw : Draft)
    (s : State) (event : Event) (s' : State) : Prop where
  fresh : (s.sources runId true).get? raw.sourceKey = none
  made : ∃ draft, copyDraft raw = .ok draft ∧ Admitted host runId rootId meter draft s ∧
    event = eventOf host env s runId draft ∧
    s' = pushEvent runId event (emitted host env runId rootId meter draft s)

theorem append_of_found {s : State} (hs : Plain s) {runId : String} {raw : Draft} (meter : Bool)
    (rootId : String) {existing : Event}
    (hfound : (s.sources runId true).get? raw.sourceKey = some existing) :
    append host env runId raw meter rootId s =
      ((requireSameEvent host existing raw runId).map fun _ => existing, s) := by
  unfold append
  rw [Action.bind_apply, sourceEvent_plain hs, hfound]
  dsimp only
  cases hsame : requireSameEvent host existing raw runId <;> rfl

/-- **A draft that is admitted** is pushed. -/
theorem append_of_admitted {s : State} (hs : Plain s) {runId : String} {raw : Draft} {meter : Bool}
    {rootId : String} {draft : CopiedDraft}
    (hfound : (s.sources runId true).get? raw.sourceKey = none) (hdraft : copyDraft raw = .ok draft)
    (h : Admitted host runId rootId meter draft s) :
    append host env runId raw meter rootId s = (.ok (eventOf host env s runId draft),
      pushEvent runId (eventOf host env s runId draft)
        (emitted host env runId rootId meter draft s)) := by
  have hsafe : ¬ (¬ isSafeInteger (eventCount s runId + 1 : Nat) ∨
      ¬ isSafeInteger (eventCount s runId true + 1 : Nat)) := fun hbad =>
    hbad.elim (fun hno => hno h.safe) fun hno => hno h.rootSafe
  unfold append
  rw [Action.bind_apply, sourceEvent_plain hs, hfound]
  dsimp only
  rw [hdraft, Action.ofExcept_ok_bind_apply, Action.bind_apply,
    (still_validatePlanningProjection runId draft).apply hs, h.valid]
  dsimp only
  rw [Action.read_bind_apply, throwIf, if_neg hsafe]
  cases meter with
  | false => rfl
  | true =>
    have happly : applyBudget host env runId rootId draft s =
        (.ok (), emitted host env runId rootId true draft s) := by
      unfold applyBudget emitted
      rw [Action.read_bind_apply, h.budget rfl, Action.ofExcept_ok_bind_apply]
      by_cases hmetered : draft.kind.metered = true
      · rw [if_pos hmetered, if_pos ⟨rfl, hmetered⟩, updateUsages_apply]
      · rw [if_neg hmetered, if_neg fun h => hmetered h.2]
        rfl
    show ((applyBudget host env runId rootId draft >>= _ : Act Event) s) = _
    rw [Action.bind_apply, happly]
    rfl

/-- A draft that is not admitted is not pushed. -/
theorem append_of_not_admitted {s : State} (hs : Plain s) {runId : String} {raw : Draft}
    {meter : Bool} {rootId : String} {draft : CopiedDraft}
    (hfound : (s.sources runId true).get? raw.sourceKey = none) (hdraft : copyDraft raw = .ok draft)
    (h : ¬ Admitted host runId rootId meter draft s) :
    ∃ e, append host env runId raw meter rootId s = (.error e, s) := by
  unfold append
  rw [Action.bind_apply, sourceEvent_plain hs, hfound]
  dsimp only
  rw [hdraft, Action.ofExcept_ok_bind_apply, Action.bind_apply,
    (still_validatePlanningProjection runId draft).apply hs]
  cases hvalid : (validatePlanningProjection host runId draft s).1 with
  | error e => exact ⟨e, rfl⟩
  | ok u =>
    dsimp only
    rw [Action.read_bind_apply]
    by_cases hsafe : ¬ isSafeInteger (eventCount s runId + 1 : Nat) ∨
        ¬ isSafeInteger (eventCount s runId true + 1 : Nat)
    · refine ⟨.type "output journal sequence exceeds safe integer range", ?_⟩
      rw [throwIf, if_pos hsafe]
      rfl
    rw [throwIf, if_neg hsafe]
    rw [not_or, not_not, not_not] at hsafe
    cases meter with
    | false => exact absurd ⟨hvalid, hsafe.1, hsafe.2, fun h => by cases h⟩ h
    | true =>
      cases hbudget : checkBudget host (s.run rootId).snapshot draft with
      | ok u' => exact absurd ⟨hvalid, hsafe.1, hsafe.2, fun _ => hbudget⟩ h
      | error e =>
        refine ⟨e, ?_⟩
        show ((applyBudget host env runId rootId draft >>= _ : Act Event) s) = _
        unfold applyBudget
        rw [Action.bind_apply, Action.read_bind_apply, hbudget]
        rfl

theorem append_cases {s : State} (hs : Plain s) (runId : String) (raw : Draft) (meter : Bool)
    (rootId : String) :
    (∃ e, append host env runId raw meter rootId s = (.error e, s)) ∨
    (∃ existing, (s.sources runId true).get? raw.sourceKey = some existing ∧
      requireSameEvent host existing raw runId = .ok () ∧
      append host env runId raw meter rootId s = (.ok existing, s)) ∨
    (∃ event s', append host env runId raw meter rootId s = (.ok event, s') ∧
      Appended host env runId rootId meter raw s event s') := by
  cases hfound : (s.sources runId true).get? raw.sourceKey with
  | some existing =>
    rw [append_of_found hs meter rootId hfound]
    cases hsame : requireSameEvent host existing raw runId with
    | error e => exact .inl ⟨e, rfl⟩
    | ok u => exact .inr (.inl ⟨existing, rfl, hsame, rfl⟩)
  | none =>
    cases hdraft : copyDraft raw with
    | error e =>
      refine .inl ⟨e, ?_⟩
      unfold append
      rw [Action.bind_apply, sourceEvent_plain hs, hfound]
      dsimp only
      rw [hdraft]
      rfl
    | ok draft =>
      by_cases hadmitted : Admitted host runId rootId meter draft s
      · exact .inr (.inr ⟨_, _, append_of_admitted hs hfound hdraft hadmitted,
          hfound, draft, hdraft, hadmitted, rfl, rfl⟩)
      · exact .inl (append_of_not_admitted hs hfound hdraft hadmitted)

end

end Purra.RunStore
