import Purra.RunMemory.Writes

/-!
# What a write leaves in place

Runs and streams are never removed.  A Run keeps its parameters, a Run that has ended
keeps what it says, and the round of its checkpoint does not go back (`Persists`); a
stream keeps its spec, and one that is closed stays as it was closed (`Stays`).
-/

namespace Purra.RunMemory

open Contracts Output Relation

/-- A later form of a record. -/
structure StoredRun.Persists (record record' : StoredRun) : Prop where
  params : record'.params = record.params
  settled : record.status ≠ .running → record'.outcome = record.outcome
  advances : record.Advances record'

/-- A later form of a stream. -/
structure StoredStream.Stays (stream stream' : StoredStream) : Prop where
  spec : stream'.spec = stream.spec
  closed : stream.status ≠ .opened → stream' = stream

namespace StoredRun

theorem Persists.refl (record : StoredRun) : record.Persists record :=
  ⟨rfl, fun _ => rfl, .refl record⟩

theorem status_eq_of_outcome {record record' : StoredRun} (h : record'.outcome = record.outcome) :
    record'.status = record.status := congrArg Outcome.status h

theorem Persists.trans {a b c : StoredRun} (h : a.Persists b) (h' : b.Persists c) :
    a.Persists c := by
  refine ⟨h'.params.trans h.params, fun hne => ?_, h.advances.trans h'.advances⟩
  have hab := h.settled hne
  have hne' : b.status ≠ .running := by
    rw [status_eq_of_outcome hab]
    exact hne
  exact (h'.settled hne').trans hab

theorem Follows.persists {record record' : StoredRun} (h : record.Follows record') :
    record.Persists record' := ⟨h.params, h.settled, h.advances⟩

theorem Persists.scopeId_eq {record record' : StoredRun} (h : record.Persists record')
    (runId : String) : record'.scopeId runId = record.scopeId runId := by
  unfold scopeId
  rw [h.params]

end StoredRun

namespace StoredStream

theorem Stays.refl (stream : StoredStream) : stream.Stays stream := ⟨rfl, fun _ => rfl⟩

theorem Stays.trans {a b c : StoredStream} (h : a.Stays b) (h' : b.Stays c) : a.Stays c := by
  refine ⟨h'.spec.trans h.spec, fun hne => ?_⟩
  have hab := h.closed hne
  subst hab
  exact h'.closed hne

end StoredStream

/-! ## Runs -/

/-- Every Run of the first state is in the second, in a later form. -/
def RunsPersist (s s' : RunState) : Prop :=
  ∀ runId record, s.runs.get? runId = some record →
    ∃ record', s'.runs.get? runId = some record' ∧ record.Persists record'

theorem RunsPersist.refl (s : RunState) : RunsPersist s s :=
  fun _ record h => ⟨record, h, .refl record⟩

theorem RunsPersist.trans {a b c : RunState} (h : RunsPersist a b) (h' : RunsPersist b c) :
    RunsPersist a c := by
  intro runId record hget
  obtain ⟨second, hs, hab⟩ := h runId record hget
  obtain ⟨third, ht, hbc⟩ := h' runId second hs
  exact ⟨third, ht, hab.trans hbc⟩

/-- Replacing one record by a later form of it. -/
theorem runsPersist_set {s : RunState} {runId : String} {record record' : StoredRun}
    (hget : s.runs.get? runId = some record) (h : record.Persists record') {s' : RunState}
    (hs' : s'.runs = s.runs.set runId record') : RunsPersist s s' := by
  intro other found hfound
  rw [hs', Dict.get?_set]
  by_cases heq : other = runId
  · subst heq
    rw [hget] at hfound
    cases hfound
    exact ⟨record', if_pos rfl, h⟩
  · exact ⟨found, (if_neg heq).trans hfound, .refl found⟩

section

variable {host : Host}

variable {s s' : RunState}

theorem Write.runsPersist (h : Write host s s') : RunsPersist s s' := by
  cases h with
  | counted => exact .refl s
  | began event hnew hscope =>
    intro other record hget
    refine ⟨record, ?_, .refl record⟩
    rw [Dict.get?_set, if_neg]
    · exact hget
    · rintro rfl
      rw [hnew] at hget
      cases hget
  | recorded hrun hfollows => exact runsPersist_set hrun hfollows.persists rfl
  | reserved invocation hrun hbudget =>
    refine runsPersist_set hrun ?_ rfl
    exact ⟨rfl, fun _ => rfl, .of_eq rfl⟩
  | appended hrun hnew =>
    refine runsPersist_set hrun ?_ rfl
    exact ⟨rfl, fun _ => rfl, .of_eq rfl⟩
  | closed => exact .refl s

theorem runsPersist_of_moves (h : ReflTransGen (Write host) s s') :
    RunsPersist s s' := by
  induction h with
  | refl => exact .refl s
  | tail _ h ih => exact ih.trans h.runsPersist

/-- A new Run is the only write that adds one. -/
theorem Write.get?_run (h : Write host s s') {runId : String}
    {record' : StoredRun} (hget : s'.runs.get? runId = some record') :
    (∃ record, s.runs.get? runId = some record ∧ record.Persists record') ∨
      s.runs.get? runId = none ∧ s.Scoped runId record'.params := by
  cases hold : s.runs.get? runId with
  | some record =>
    obtain ⟨found, hfound, hpersists⟩ := h.runsPersist runId record hold
    rw [hget] at hfound
    cases hfound
    exact Or.inl ⟨record, rfl, hpersists⟩
  | none =>
    refine Or.inr ⟨rfl, ?_⟩
    have habsent : ∀ {k : String} {record record' : StoredRun}, s.runs.get? k = some record →
        (s.runs.set k record').get? runId = none := fun hrun => Dict.get?_set_eq_none hrun hold
    cases h with
    | counted =>
      rw [hold] at hget
      cases hget
    | began event hnew hscope =>
      rw [Dict.get?_set] at hget
      split at hget
      · rename_i heq
        subst heq
        cases hget
        exact hscope
      · rw [hold] at hget
        cases hget
    | recorded hrun hfollows =>
      rw [habsent hrun] at hget
      cases hget
    | reserved invocation hrun hbudget =>
      rw [habsent hrun] at hget
      cases hget
    | appended hrun hnew =>
      unfold RunState.appended at hget
      rw [habsent hrun] at hget
      cases hget
    | closed =>
      unfold RunState.setStream at hget
      rw [hold] at hget
      cases hget

/-! ## Streams -/

/-- Every stream of the first state is in the second, in a later form. -/
def StreamsStay (s s' : RunState) : Prop :=
  ∀ id stream, s.streams.get? id = some stream →
    ∃ stream', s'.streams.get? id = some stream' ∧ stream.Stays stream'

theorem StreamsStay.refl (s : RunState) : StreamsStay s s :=
  fun _ stream h => ⟨stream, h, .refl stream⟩

theorem StreamsStay.trans {a b c : RunState} (h : StreamsStay a b) (h' : StreamsStay b c) :
    StreamsStay a c := by
  intro id stream hget
  obtain ⟨second, hs, hab⟩ := h id stream hget
  obtain ⟨third, ht, hbc⟩ := h' id second hs
  exact ⟨third, ht, hab.trans hbc⟩

theorem Write.streamsStay (h : Write host s s') : StreamsStay s s' := by
  cases h with
  | counted => exact .refl s
  | began event hnew hscope => exact .refl s
  | recorded hrun hfollows => exact .refl s
  | reserved invocation hrun hbudget => exact .refl s
  | appended hrun hnew => exact .refl s
  | closed hstream hopen hspec =>
    intro other found hget
    unfold RunState.setStream
    rw [Dict.get?_set]
    split
    · rename_i heq
      subst heq
      rw [hstream] at hget
      cases hget
      exact ⟨_, rfl, hspec, fun hne => absurd hopen hne⟩
    · exact ⟨found, hget, .refl found⟩

theorem streamsStay_of_moves (h : ReflTransGen (Write host) s s') :
    StreamsStay s s' := by
  induction h with
  | refl => exact .refl s
  | tail _ h ih => exact ih.trans h.streamsStay

/-- No write adds a stream. -/
theorem Write.get?_stream_none (h : Write host s s') {id : String}
    (hnone : s.streams.get? id = none) : s'.streams.get? id = none := by
  cases h with
  | counted => exact hnone
  | began event hnew hscope => exact hnone
  | recorded hrun hfollows => exact hnone
  | reserved invocation hrun hbudget => exact hnone
  | appended hrun hnew => exact hnone
  | closed hstream =>
    exact Dict.get?_set_eq_none hstream hnone

theorem get?_stream_none_of_moves (h : ReflTransGen (Write host) s s')
    {id : String} (hnone : s.streams.get? id = none) : s'.streams.get? id = none := by
  induction h with
  | refl => exact hnone
  | tail _ h ih => exact h.get?_stream_none ih

/-- Every stream is stored under its own id. -/
def RunState.Keyed (s : RunState) : Prop :=
  ∀ id stream, s.streams.get? id = some stream → stream.spec.outputStreamId = id

theorem keyed_of_moves (h : ReflTransGen (Write host) s s') (hkeyed : s.Keyed) :
    s'.Keyed := by
  intro id stream' hget
  cases hold : s.streams.get? id with
  | none =>
    rw [get?_stream_none_of_moves h hold] at hget
    cases hget
  | some stream =>
    obtain ⟨found, hfound, hstays⟩ := streamsStay_of_moves h id stream hold
    rw [hget] at hfound
    cases hfound
    rw [hstays.spec]
    exact hkeyed id stream hold

theorem keyed_withStream (hkeyed : s.Keyed) (spec : OutputStreamSpec) :
    (s.withStream spec).Keyed := by
  intro id stream hget
  unfold RunState.withStream at hget
  rw [Dict.get?_set] at hget
  split at hget
  · rename_i heq
    cases hget
    exact heq.symm
  · exact hkeyed id stream hget

end

end Purra.RunMemory
