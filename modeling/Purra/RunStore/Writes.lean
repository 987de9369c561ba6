import Purra.Core.Text
import Purra.RunStore.Appends

/-!
# Writes of the Run store

* `trim_of_ends`, `getLast_toString` — the source keys the store makes itself are trimmed.
* `get?_setRun`, `get?_updateUsages`, `get?_pushEvent`, `get?_emitted` — what the writes make of the
  Run of an id; `setRun_tables` and its companions are the frame: the journals of the Roots.
-/

namespace Purra.RunStore

/-! ## Source keys -/

/-- Text that begins and ends with other characters than white space. -/
theorem trim_of_ends {s : String} {c d : Char} (hhead : s.toList.head? = some c)
    (hc : isWhite c = false) (hlast : s.toList.getLast? = some d) (hd : isWhite d = false) :
    trim s = s := by
  refine trimWith_eq_self (fun x hx => ?_) fun x hx => ?_
  · rw [hhead] at hx
    cases hx
    exact hc
  · rw [hlast] at hx
    cases hx
    exact hd

theorem head_append {front back : String} {c : Char} (h : front.toList.head? = some c) :
    (front ++ back).toList.head? = some c := by
  rw [String.toList_append, List.head?_append, h]
  rfl

theorem last_append {front back : String} {c : Char} (h : back.toList.getLast? = some c) :
    (front ++ back).toList.getLast? = some c := by
  rw [String.toList_append, List.getLast?_append, h]
  rfl

theorem isWhite_of_isDigit {c : Char} (h : c.isDigit = true) : isWhite c = false := by
  have hrange : 48 ≤ c.toNat ∧ c.toNat ≤ 57 := by
    simpa [Char.isDigit, UInt32.le_iff_toNat_le] using h
  unfold isWhite
  simp only [Bool.or_eq_false_iff, Bool.and_eq_false_iff, decide_eq_false_iff_not]
  omega

/-- A number ends in a digit. -/
theorem getLast_toString (n : Int) :
    ∃ d, (toString n).toList.getLast? = some d ∧ isWhite d = false := by
  have hnat : ∀ k : Nat, ∃ d, (toString k).toList.getLast? = some d ∧ isWhite d = false := by
    intro k
    have hne : (toString k).toList ≠ [] := by
      rw [show (toString k).toList = Nat.toDigits 10 k from Nat.toList_repr]
      exact Nat.toDigits_ne_nil
    refine ⟨_, List.getLast?_eq_some_getLast hne, isWhite_of_isDigit ?_⟩
    have hmem : (toString k).toList.getLast hne ∈ Nat.toDigits 10 k := by
      rw [← show (toString k).toList = Nat.toDigits 10 k from Nat.toList_repr]
      exact List.getLast_mem hne
    exact Nat.isDigit_of_mem_toDigits (by decide) (by decide) hmem
  cases n with
  | ofNat k => exact hnat k
  | negSucc k =>
    obtain ⟨d, hd, hwhite⟩ := hnat (k + 1)
    refine ⟨d, ?_, hwhite⟩
    have hneg : toString (Int.negSucc k) = "-" ++ toString (k + 1) := rfl
    rw [hneg]
    exact last_append hd

theorem trim_of_copyDraft {raw : Draft} {draft : CopiedDraft} (h : copyDraft raw = .ok draft) :
    draft.sourceKey = trim raw.sourceKey := by
  unfold copyDraft requiredText at h
  split at h
  · cases h
  · cases hpayload : copyPayload raw.payload with
    | error e =>
      rw [hpayload] at h
      cases h
    | ok payload =>
      rw [hpayload] at h
      cases h
      rfl

theorem kind_of_copyDraft {raw : Draft} {draft : CopiedDraft} (h : copyDraft raw = .ok draft) :
    draft.kind = raw.kind := by
  unfold copyDraft at h
  cases hkey : requiredText raw.sourceKey "output sourceKey" with
  | error e =>
    rw [hkey] at h
    cases h
  | ok key =>
    cases hpayload : copyPayload raw.payload with
    | error e =>
      rw [hkey, hpayload] at h
      cases h
    | ok payload =>
      rw [hkey, hpayload] at h
      cases h
      rfl

theorem trim_trim (s : String) : trim (trim s) = trim s := trimWith_trimWith s

/-! ## Writes -/

section

variable {host : Host} {env : Env} {s : State} {runId id : String} {f : StoredRun → StoredRun}

theorem get?_setRun (s : State) (runId id : String) (f : StoredRun → StoredRun) :
    (s.setRun runId f).runs.get? id =
      (s.runs.get? id).map fun run => if id = runId then f run else run := by
  unfold State.setRun
  cases h : s.runs.get? runId with
  | none =>
    dsimp only
    by_cases hid : id = runId
    · rw [hid, h]
      rfl
    · cases s.runs.get? id with
      | none => rfl
      | some run => rw [Option.map_some, if_neg hid]
  | some run =>
    dsimp only
    rw [Dict.get?_set]
    by_cases hid : id = runId
    · rw [if_pos hid, hid, h, Option.map_some, if_pos rfl]
    · rw [if_neg hid]
      cases s.runs.get? id with
      | none => rfl
      | some run => rw [Option.map_some, if_neg hid]

/-- A Run that is changed leaves the other tables alone. -/
theorem setRun_tables (s : State) (runId : String) (f : StoredRun → StoredRun) :
    (s.setRun runId f).rootEvents = s.rootEvents ∧
      (s.setRun runId f).rootEventsBySourceKey = s.rootEventsBySourceKey ∧
      (s.setRun runId f).deferredHistories = s.deferredHistories := by
  unfold State.setRun
  split <;> exact ⟨rfl, rfl, rfl⟩

theorem run_of_get? {run : StoredRun} (h : s.runs.get? id = some run) : s.run id = run := by
  unfold State.run
  rw [h]
  rfl

/-- `updateUsage`, of a Run. -/
def StoredRun.use (host : Host) (env : Env) (f : Usage → Usage) (run : StoredRun) : StoredRun :=
  { run with snapshot := { run.snapshot with
    version := run.snapshot.version + 1
    updatedAt := host.toISOString env.now
    usage := f run.snapshot.usage } }

theorem updateUsages_final (runId rootId : String) (f : Usage → Usage) (s : State) :
    (updateUsages host env runId rootId f).final s =
      if rootId ≠ runId then
        (s.setRun runId (StoredRun.use host env f)).setRun rootId (StoredRun.use host env f)
      else s.setRun runId (StoredRun.use host env f) := by
  unfold updateUsages
  by_cases hroot : rootId ≠ runId
  · rw [if_pos hroot, if_pos hroot]
    rfl
  · rw [if_neg hroot, if_neg hroot]
    rfl

theorem get?_updateUsages (runId rootId id : String) (f : Usage → Usage) (s : State) :
    ((updateUsages host env runId rootId f).final s).runs.get? id =
      (s.runs.get? id).map fun run =>
        if id = runId ∨ id = rootId then run.use host env f else run := by
  rw [updateUsages_final]
  by_cases hroot : rootId ≠ runId
  · rw [if_pos hroot, get?_setRun, get?_setRun, Option.map_map]
    congr 1
    funext run
    by_cases hid : id = rootId
    · have hne : id ≠ runId := hid ▸ hroot
      simp [hid, hroot]
    · simp [hid]
  · rw [if_neg hroot, get?_setRun]
    congr 1
    funext run
    simp [not_not.1 hroot]

theorem updateUsages_tables (runId rootId : String) (f : Usage → Usage) (s : State) :
    ((updateUsages host env runId rootId f).final s).rootEvents = s.rootEvents ∧
      ((updateUsages host env runId rootId f).final s).rootEventsBySourceKey =
        s.rootEventsBySourceKey ∧
      ((updateUsages host env runId rootId f).final s).deferredHistories =
        s.deferredHistories := by
  rw [updateUsages_final]
  split
  · obtain ⟨h₁, h₂, h₃⟩ := setRun_tables s runId (StoredRun.use host env f)
    obtain ⟨h₁', h₂', h₃'⟩ := setRun_tables (s.setRun runId (StoredRun.use host env f)) rootId
      (StoredRun.use host env f)
    exact ⟨h₁'.trans h₁, h₂'.trans h₂, h₃'.trans h₃⟩
  · exact setRun_tables s runId _

/-- A Run with an event pushed. -/
def StoredRun.push (event : Event) (run : StoredRun) : StoredRun :=
  { run with
    events := run.events ++ [event]
    bySourceKey := run.bySourceKey.set event.sourceKey event
    snapshot := { run.snapshot with
      version := run.snapshot.version + 1
      updatedAt := event.occurredAt } }

theorem get?_pushEvent (runId id : String) (event : Event) (s : State) :
    (pushEvent runId event s).runs.get? id =
      (s.runs.get? id).map fun run => if id = runId then run.push event else run :=
  get?_setRun _ runId id (StoredRun.push event)

theorem pushEvent_tables (runId : String) (event : Event) (s : State) :
    (pushEvent runId event s).rootEvents = s.rootEvents.set (s.run runId).rootRunId
        (s.rootJournal (s.run runId).rootRunId ++ [event]) ∧
      (pushEvent runId event s).rootEventsBySourceKey =
        s.rootEventsBySourceKey.set (s.run runId).rootRunId
          ((s.rootSources (s.run runId).rootRunId).set event.sourceKey event) ∧
      (pushEvent runId event s).deferredHistories = s.deferredHistories :=
  setRun_tables _ runId _

/-- What is counted of an event before it is pushed. -/
theorem get?_emitted {rootId : String} {meter : Bool} {draft : CopiedDraft} :
    (emitted host env runId rootId meter draft s).runs.get? id =
      (s.runs.get? id).map fun run =>
        if (meter = true ∧ draft.kind.metered = true) ∧ (id = runId ∨ id = rootId) then
          run.use host env (·.emit (byteLength host draft.payload))
        else run := by
  unfold emitted
  by_cases hmeter : meter = true ∧ draft.kind.metered = true
  · rw [if_pos hmeter, get?_updateUsages]
    simp [hmeter]
  · rw [if_neg hmeter]
    simp [hmeter]

theorem emitted_tables {rootId : String} {meter : Bool} {draft : CopiedDraft} :
    (emitted host env runId rootId meter draft s).rootEvents = s.rootEvents ∧
      (emitted host env runId rootId meter draft s).rootEventsBySourceKey =
        s.rootEventsBySourceKey ∧
      (emitted host env runId rootId meter draft s).deferredHistories = s.deferredHistories := by
  unfold emitted
  split
  · exact updateUsages_tables runId rootId _ s
  · exact ⟨rfl, rfl, rfl⟩

end

end Purra.RunStore
