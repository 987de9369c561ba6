import Mathlib.Data.List.Perm.Subperm
import Purra.Interaction.Moves
import Purra.Lib.Run

/-!
# Submissions

`ClarificationWorkflow.resume` on top of the store: a process claims a request, starts the
`submit` callback, and reconciles with the Run id it returned.  Any number of processes does so,
and calls the methods of the store, in any order; a process that crashes takes no more steps.

* `System` — the table, the processes in `resume`, and a log of what they have done.
* `Ledger` — what the log says of the table; `Staffed` — what it says of the processes.
* `claims_le` — between two reconciliations with `not_submitted` a request is claimed at most once.
* `reached_kept` — the guarantees of every run.
* `released_twice_started` — a process that is late starts its submission behind the next one.
-/

namespace Purra.Interaction

/-! ## The system -/

/-- What happened to the request under a key. -/
inductive Event where
  /-- A claim was committed, with this token. -/
  | claimed (key : String × String) (token : String)
  /-- A claim was given up: `reconcile` with `not_submitted`. -/
  | released (key : String × String)
  /-- The `submit` callback was started under a token. -/
  | started (key : String × String) (token : String)
  deriving DecidableEq

/-- How far a process is in `resume`. -/
inductive Stage where
  | claimed | submitting | done
  deriving DecidableEq

/-- A process in `resume`. -/
structure Worker where
  key : String × String
  token : String
  stage : Stage := .claimed

/-- The table, the processes, and the log. -/
structure System where
  table : Table := Dict.empty
  workers : List Worker := []
  log : List Event := []

/-- One atomic step. -/
inductive Action where
  /-- Some process calls a method of the store. -/
  | call (c : Call)
  /-- A process enters `resume`, up to the claim. -/
  | resume (scope id : String) (revision : Json) (now : Int) (uuid : String)
  /-- A process in `resume` starts the callback. -/
  | submit (worker : Nat)
  /-- The callback has returned an id, and the process reconciles. -/
  | submitted (worker : Nat) (runId : Json)

/-- What a committed call adds to the log. -/
def Call.events : Call → List Event
  | .claim scope id _ _ uuid => [.claimed (scope, id) uuid]
  | .reconcile scope id _ _ (.bool true) => [.released (scope, id)]
  | _ => []

section

variable (encodedBytes : Json → Nat)

/-- A call, and whether it was committed. -/
def System.commit (s : System) (c : Call) : System × Bool :=
  match c.run encodedBytes s.table with
  | .ok (_, table) => ({ s with table, log := s.log ++ c.events }, true)
  | .error _ => (s, false)

/-- One atomic step of the system. -/
def step (s : System) : Action → System
  | .call c => (s.commit encodedBytes c).1
  | .resume scope id revision now uuid =>
    let (s, committed) := s.commit encodedBytes (.claim scope id revision now uuid)
    if committed then { s with workers := s.workers ++ [{ key := (scope, id), token := uuid }] }
    else s
  | .submit i =>
    match s.workers[i]? with
    | some worker =>
      if worker.stage = .claimed then
        { s with
          workers := s.workers.set i { worker with stage := .submitting }
          log := s.log ++ [.started worker.key worker.token] }
      else s
    | none => s
  | .submitted i runId =>
    match s.workers[i]? with
    | some worker =>
      if worker.stage = .submitting then
        let call := Call.reconcile worker.key.1 worker.key.2 (some worker.token) runId (.bool false)
        { (s.commit encodedBytes call).1 with
          workers := s.workers.set i { worker with stage := .done } }
      else s
    | none => s

end

/-- The token a step may hand out. -/
def Action.token? : Action → Option String
  | .call (.claim _ _ _ _ uuid) => some uuid
  | .resume _ _ _ _ uuid => some uuid
  | _ => none

/-- `uuid4` returns no token twice. -/
def Fresh (s : System) (a : Action) : Prop :=
  ∀ token ∈ a.token?, ∀ e ∈ s.log, ∀ key, e ≠ .claimed key token

/-! ## The log of a request -/

/-- The request an event is about. -/
def Event.key : Event → String × String
  | .claimed key _ | .released key | .started key _ => key

instance (s : System) (a : Action) : Decidable (Fresh s a) :=
  decidable_of_iff (∀ token ∈ a.token?.toList, ∀ e ∈ s.log, e ≠ .claimed e.key token) <| by
    constructor
    · rintro h token htoken e he key rfl
      exact h token (Option.mem_toList.2 htoken) _ he rfl
    · intro h token htoken e he heq
      exact h token (Option.mem_toList.1 htoken) e he _ heq

/-- Whether a request is claimed, after an event. -/
def busyAfter (key : String × String) (busy : Bool) : Event → Bool
  | .claimed k _ => if k = key then true else busy
  | .released k => if k = key then false else busy
  | .started _ _ => busy

/-- Whether a request is claimed, after some events. -/
def busy (key : String × String) (b : Bool) (log : List Event) : Bool :=
  log.foldl (busyAfter key) b

/-- The token a request was claimed with. -/
def Event.claim? (key : String × String) : Event → Option String
  | .claimed k token => if k = key then some token else none
  | _ => none

/-- The token a request was submitted with. -/
def Event.start? (key : String × String) : Event → Option String
  | .started k token => if k = key then some token else none
  | _ => none

/-- The tokens a request was claimed with. -/
def claimedTokens (key : String × String) (log : List Event) : List String :=
  log.filterMap (Event.claim? key)

/-- The tokens a request was submitted with. -/
def startedTokens (key : String × String) (log : List Event) : List String :=
  log.filterMap (Event.start? key)

/-- A request is claimed only while it is not. -/
def Orderly (key : String × String) : Bool → List Event → Prop
  | _, [] => True
  | b, e :: rest =>
    (∀ token, e = .claimed key token → b = false) ∧ Orderly key (busyAfter key b e) rest

section

variable {key k : String × String} {b : Bool} {log events : List Event}

theorem busy_append : busy key b (log ++ events) = busy key (busy key b log) events :=
  List.foldl_append

theorem claimedTokens_append :
    claimedTokens key (log ++ events) = claimedTokens key log ++ claimedTokens key events :=
  List.filterMap_append

theorem startedTokens_append :
    startedTokens key (log ++ events) = startedTokens key log ++ startedTokens key events :=
  List.filterMap_append

variable {token : String}

theorem Event.claim?_eq_some {e : Event} :
    e.claim? key = some token ↔ e = .claimed key token := by
  cases e with
  | claimed k t => by_cases hk : k = key <;> simp [claim?, hk]
  | released k => simp [claim?]
  | started k t => simp [claim?]

theorem Event.start?_eq_some {e : Event} :
    e.start? key = some token ↔ e = .started key token := by
  cases e with
  | started k t => by_cases hk : k = key <;> simp [start?, hk]
  | released k => simp [start?]
  | claimed k t => simp [start?]

theorem mem_claimedTokens :
    token ∈ claimedTokens key log ↔ .claimed key token ∈ log := by
  simp [claimedTokens, Event.claim?_eq_some]

theorem mem_startedTokens :
    token ∈ startedTokens key log ↔ .started key token ∈ log := by
  simp [startedTokens, Event.start?_eq_some]

theorem orderly_append :
    Orderly key b (log ++ events) ↔ Orderly key b log ∧ Orderly key (busy key b log) events := by
  induction log generalizing b with
  | nil => simp [Orderly, busy]
  | cons e rest ih =>
    rw [List.cons_append, Orderly, Orderly, ih, and_assoc]
    rfl

/-- Events of other requests. -/
theorem of_other (h : ∀ e ∈ events, e.key ≠ key) :
    busy key b events = b ∧ claimedTokens key events = [] ∧ Orderly key b events := by
  induction events generalizing b with
  | nil => exact ⟨rfl, rfl, trivial⟩
  | cons e rest ih =>
    obtain ⟨he, hrest⟩ := List.forall_mem_cons.1 h
    have hafter : busyAfter key b e = b := by
      cases e with
      | claimed k t => exact if_neg he
      | released k => exact if_neg he
      | started k t => rfl
    obtain ⟨hbusy, htokens, horderly⟩ := ih (b := b) hrest
    refine ⟨?_, ?_, ?_, ?_⟩
    · rw [busy, List.foldl_cons, hafter]
      exact hbusy
    · rw [← List.singleton_append, claimedTokens_append, htokens, List.append_nil]
      cases e with
      | claimed k t =>
        have hk : k ≠ key := he
        simp [claimedTokens, Event.claim?, hk]
      | released k => rfl
      | started k t => rfl
    · rintro token rfl
      exact absurd rfl he
    · rw [hafter]
      exact horderly

/-- **Between two releases a request is claimed at most once.** -/
theorem claims_le (h : Orderly key b log) :
    (claimedTokens key log).length + (if b then 1 else 0) ≤
      log.count (.released key) + 1 := by
  induction log generalizing b with
  | nil => cases b <;> simp [claimedTokens]
  | cons e rest ih =>
    obtain ⟨hfree, hrest⟩ := h
    have hle := ih hrest
    have hlength : (claimedTokens key (e :: rest)).length =
        (e.claim? key).toList.length + (claimedTokens key rest).length := by
      rw [claimedTokens, List.filterMap_cons]
      cases e.claim? key <;> simp [claimedTokens, Nat.add_comm]
    rw [hlength, List.count_cons]
    cases e with
    | claimed k t =>
      by_cases hk : k = key
      · have hb := hfree t (by rw [hk])
        simp [busyAfter, Event.claim?, hk, hb] at hle ⊢
        omega
      · simp [busyAfter, Event.claim?, hk] at hle ⊢
        omega
    | released k =>
      by_cases hk : k = key
      · simp [busyAfter, Event.claim?, hk] at hle ⊢
        cases b <;> simp <;> omega
      · simp [busyAfter, Event.claim?, hk] at hle ⊢
        omega
    | started k t =>
      cases b <;> simp [busyAfter, Event.claim?] at hle ⊢ <;> omega

end

/-! ## The log and the table -/

/-- The request is claimed. -/
def Held (row : Clarification) : Prop := row.state = .resuming ∨ row.state = .resumed

/-- A row that a call may leave. -/
structure Sound (row : Clarification) : Prop where
  unanswered : row.state = .waiting → row.answers = none
  submitted : row.state = .resumed → row.runId ≠ none

theorem Moves.sound {c : Call} {k : String × String} {row row' : Clarification}
    (h : Moves c k row row') : Sound row' := by
  cases h <;> exact ⟨by simp, by simp⟩

/-- What the log says of the table. -/
structure Ledger (table : Table) (log : List Event) : Prop where
  sound : ∀ key row, table.get? key = some row → Sound row
  orderly : ∀ key, Orderly key false log
  once : ∀ key, (claimedTokens key log).Nodup
  held : ∀ key row, table.get? key = some row → (busy key false log = true ↔ Held row)
  token : ∀ key row, table.get? key = some row →
    row.resumeToken = (claimedTokens key log).getLast?
  absent : ∀ key, table.get? key = none → busy key false log = false ∧ claimedTokens key log = []

namespace Ledger

variable {table : Table} {log events : List Event} {key : String × String}
  {row row' : Clarification}

theorem initial : Ledger Dict.empty [] where
  sound := fun _ _ h => by cases h
  orderly := fun _ => trivial
  once := fun _ => List.nodup_nil
  held := fun _ _ h => by cases h
  token := fun _ _ h => by cases h
  absent := fun _ _ => ⟨rfl, rfl⟩

/-- A request is asked. -/
theorem added (h : Ledger table log) (hnew : table.get? key = none) (requestKey : String)
    (request : Request) : Ledger (table.set key { requestKey, request }) log where
  sound := by
    intro other row hrow
    by_cases hkey : other = key
    · subst hkey
      rw [Dict.get?_set_self] at hrow
      cases hrow
      exact ⟨fun _ => rfl, fun h => by cases h⟩
    · exact h.sound other row ((Dict.get?_set_of_ne hkey).symm.trans hrow)
  orderly := h.orderly
  once := h.once
  held := by
    intro other row hrow
    by_cases hkey : other = key
    · subst hkey
      rw [Dict.get?_set_self] at hrow
      cases hrow
      rw [(h.absent other hnew).1]
      simp [Held]
    · exact h.held other row ((Dict.get?_set_of_ne hkey).symm.trans hrow)
  token := by
    intro other row hrow
    by_cases hkey : other = key
    · subst hkey
      rw [Dict.get?_set_self] at hrow
      cases hrow
      rw [(h.absent other hnew).2]
      rfl
    · exact h.token other row ((Dict.get?_set_of_ne hkey).symm.trans hrow)
  absent := by
    intro other hother
    refine h.absent other ?_
    by_cases hkey : other = key
    · rw [hkey, Dict.get?_set_self] at hother
      cases hother
    · exact (Dict.get?_set_of_ne hkey).symm.trans hother

/-- A request moves, with events about it. -/
theorem moved (h : Ledger table log) (hrow : table.get? key = some row) (hsound : Sound row')
    (hevents : ∀ e ∈ events, e.key = key)
    (horderly : Orderly key (busy key false log) events)
    (honce : (claimedTokens key log ++ claimedTokens key events).Nodup)
    (hheld : busy key (busy key false log) events = true ↔ Held row')
    (htoken : row'.resumeToken = (claimedTokens key log ++ claimedTokens key events).getLast?) :
    Ledger (table.set key row') (log ++ events) := by
  have hother : ∀ {other}, other ≠ key → ∀ e ∈ events, e.key ≠ other := fun hne e he heq =>
    hne (heq.symm.trans (hevents e he))
  have hsame : ∀ {other}, other ≠ key →
      busy other false (log ++ events) = busy other false log ∧
        claimedTokens other (log ++ events) = claimedTokens other log ∧
        Orderly other false (log ++ events) := by
    intro other hne
    obtain ⟨hbusy, htokens, hord⟩ := of_other (hother hne) (b := busy other false log)
    exact ⟨busy_append.trans hbusy, by rw [claimedTokens_append, htokens, List.append_nil],
      orderly_append.2 ⟨h.orderly other, hord⟩⟩
  constructor
  · intro other r hr
    by_cases hkey : other = key
    · subst hkey
      rw [Dict.get?_set_self] at hr
      exact Option.some.inj hr ▸ hsound
    · exact h.sound other r ((Dict.get?_set_of_ne hkey).symm.trans hr)
  · intro other
    by_cases hkey : other = key
    · subst hkey
      exact orderly_append.2 ⟨h.orderly other, horderly⟩
    · exact (hsame hkey).2.2
  · intro other
    by_cases hkey : other = key
    · subst hkey
      rw [claimedTokens_append]
      exact honce
    · rw [(hsame hkey).2.1]
      exact h.once other
  · intro other r hr
    by_cases hkey : other = key
    · subst hkey
      rw [Dict.get?_set_self] at hr
      rw [busy_append, hheld, Option.some.inj hr]
    · rw [(hsame hkey).1]
      exact h.held other r ((Dict.get?_set_of_ne hkey).symm.trans hr)
  · intro other r hr
    by_cases hkey : other = key
    · subst hkey
      rw [Dict.get?_set_self] at hr
      rw [claimedTokens_append, ← htoken, Option.some.inj hr]
    · rw [(hsame hkey).2.1]
      exact h.token other r ((Dict.get?_set_of_ne hkey).symm.trans hr)
  · intro other hnone
    by_cases hkey : other = key
    · rw [hkey, Dict.get?_set_self] at hnone
      cases hnone
    · rw [(hsame hkey).1, (hsame hkey).2.1]
      exact h.absent other ((Dict.get?_set_of_ne hkey).symm.trans hnone)

/-- **A move** is what its event says. -/
theorem moves {c : Call} (h : Ledger table log) (hrow : table.get? key = some row)
    (hmoves : Moves c key row row')
    (hfresh : ∀ token ∈ (Action.call c).token?, token ∉ claimedTokens key log) :
    Ledger (table.set key row') (log ++ c.events) := by
  have hheld := h.held key row hrow
  have htoken := h.token key row hrow
  have hnone : ∀ e ∈ ([] : List Event), e.key = key := fun _ he => absurd he List.not_mem_nil
  have honce : (claimedTokens key log ++ claimedTokens key []).Nodup := by
    rw [← claimedTokens_append, List.append_nil]
    exact h.once key
  have hlast : row.resumeToken = (claimedTokens key log ++ claimedTokens key []).getLast? := by
    rw [← claimedTokens_append, List.append_nil]
    exact htoken
  have hsound := hmoves.sound
  cases hmoves with
  | answered hstate =>
    exact h.moved hrow hsound hnone trivial honce (hheld.trans (by simp [Held, hstate])) hlast
  | @claimed scope id _ _ token _ hstate =>
    have hbusy : busy (scope, id) false log = false := by
      rw [← Bool.not_eq_true, hheld]
      simp [Held, hstate]
    have hone : claimedTokens (scope, id) [.claimed (scope, id) token] = [token] := by
      simp [claimedTokens, Event.claim?]
    show Ledger _ (log ++ [.claimed (scope, id) token])
    refine h.moved hrow hsound ?_ ⟨fun _ _ => hbusy, trivial⟩ ?_ ?_ ?_
    · intro e he
      rw [List.mem_singleton.1 he]
      rfl
    · rw [hone]
      exact List.nodup_append.2 ⟨h.once _, List.nodup_singleton token, fun a ha b hb hab =>
        hfresh token rfl (List.mem_singleton.1 hb ▸ hab ▸ ha)⟩
    · simp [busy, busyAfter, Held]
    · rw [hone]
      simp
  | submitted hstate =>
    exact h.moved hrow hsound hnone trivial honce (hheld.trans (by simp [Held, hstate])) hlast
  | @released scope id _ _ hstate =>
    show Ledger _ (log ++ [.released (scope, id)])
    refine h.moved hrow hsound ?_ ⟨(fun _ he => by cases he), trivial⟩ ?_ ?_ ?_
    · intro e he
      rw [List.mem_singleton.1 he]
      rfl
    · exact honce
    · simp [busy, busyAfter, Held]
    · exact hlast
  | canceled hstate =>
    refine h.moved hrow hsound hnone trivial honce (hheld.trans ?_) hlast
    rcases hstate with hstate | hstate <;> simp [Held, hstate]

/-- **Every committed call** is what its events say. -/
theorem commit {encodedBytes : Json → Nat} {c : Call} {table' : Table} (h : Ledger table log)
    (hcommit : c.run encodedBytes table = .ok ((), table'))
    (hfresh : ∀ token ∈ (Action.call c).token?, ∀ key, token ∉ claimedTokens key log) :
    Ledger table' (log ++ c.events) := by
  cases c with
  | ask _ key =>
    obtain ⟨_, hask, -⟩ := Transaction.map_eq_ok.1 hcommit
    show Ledger _ (log ++ [])
    rw [List.append_nil]
    rcases ask_eq_ok hask with rfl | ⟨request, hnew, rfl⟩
    · exact h
    · exact h.added hnew key request
  | answer =>
    rcases answer_eq_ok hcommit with rfl | ⟨row, row', hrow, hmoves, rfl⟩
    · show Ledger _ (log ++ [])
      rwa [List.append_nil]
    · exact h.moves hrow hmoves fun token ht => hfresh token ht _
  | claim =>
    obtain ⟨_, hclaim, -⟩ := Transaction.map_eq_ok.1 hcommit
    obtain ⟨-, row, row', hrow, hmoves, rfl⟩ := claim_eq_ok hclaim
    exact h.moves hrow hmoves fun token ht => hfresh token ht _
  | reconcile scope id token runId =>
    obtain ⟨row, hrow, -, ⟨rfl, hstate, houtcome⟩ | ⟨row', hmoves, rfl⟩⟩ :=
      reconcile_eq_ok hcommit
    · -- a resumed request has a Run id, so it was told one
      have hid := (h.sound _ row hrow).submitted hstate
      rcases checkOutcome_eq_ok houtcome with ⟨hnone, -, -⟩ | ⟨_, -, -, rfl⟩
      · exact absurd hnone hid
      · rw [show (Call.reconcile scope id token runId (.bool false)).events = [] from rfl,
          List.append_nil]
        exact h
    · exact h.moves hrow hmoves fun token ht => hfresh token ht _
  | cancel scope id revision =>
    obtain ⟨row, row', hrow, hmoves, rfl⟩ := cancel_eq_ok hcommit
    exact h.moves hrow hmoves fun token ht => hfresh token ht _

/-- A submission is started. -/
theorem started (h : Ledger table log) (k : String × String) (token : String) :
    Ledger table (log ++ [.started k token]) := by
  have hbusy : ∀ key, busy key false (log ++ [.started k token]) = busy key false log := fun key =>
    busy_append
  have htokens : ∀ key, claimedTokens key (log ++ [.started k token]) = claimedTokens key log := by
    intro key
    rw [claimedTokens_append]
    exact List.append_nil _
  refine ⟨h.sound, fun key => ?_, fun key => ?_, fun key row hrow => ?_, fun key row hrow => ?_,
    fun key hnone => ?_⟩
  · exact orderly_append.2 ⟨h.orderly key, (fun _ he => by cases he), trivial⟩
  · rw [htokens]
    exact h.once key
  · rw [hbusy]
    exact h.held key row hrow
  · rw [htokens]
    exact h.token key row hrow
  · rw [hbusy, htokens]
    exact h.absent key hnone

/-- A token is no good after the next claim. -/
theorem stale (h : Ledger table log) {front back : List String} {token : String}
    (htokens : claimedTokens key log = front ++ token :: back) (hback : back ≠ [])
    {runId notSubmitted : Json} {table' : Table} :
    reconcile key.1 key.2 (some token) runId notSubmitted table ≠ .ok ((), table') := by
  intro hok
  obtain ⟨row, hrow, htoken, -⟩ := reconcile_eq_ok hok
  have hlast := h.token key row hrow
  have hnodup := h.once key
  rw [htokens] at hlast hnodup
  rw [htoken, List.getLast?_append_of_ne_nil _ (List.cons_ne_nil token back),
    List.getLast?_cons_of_ne_nil hback] at hlast
  have hmem : token ∈ back := List.mem_of_getLast? hlast.symm
  exact (List.nodup_cons.1 (List.nodup_append.1 hnodup).2.1).1 hmem

end Ledger

/-! ## The log and the processes -/

/-- What the log says of the processes. -/
structure Staffed (workers : List Worker) (log : List Event) : Prop where
  claimed : ∀ worker ∈ workers, .claimed worker.key worker.token ∈ log
  distinct : (workers.map fun worker => (worker.key, worker.token)).Nodup
  started : ∀ key token, .started key token ∈ log →
    ∃ worker ∈ workers, worker.key = key ∧ worker.token = token ∧ worker.stage ≠ .claimed
  once : ∀ key, (startedTokens key log).Nodup

namespace Staffed

variable {workers : List Worker} {log : List Event}

theorem initial : Staffed [] [] where
  claimed := fun _ h => absurd h List.not_mem_nil
  distinct := List.nodup_nil
  started := fun _ _ h => absurd h List.not_mem_nil
  once := fun _ => List.nodup_nil

theorem startedTokens_events (key : String × String) (c : Call) :
    startedTokens key c.events = [] := by
  unfold Call.events
  split <;> rfl

/-- A call is committed. -/
theorem commit (h : Staffed workers log) (c : Call) : Staffed workers (log ++ c.events) where
  claimed := fun worker hworker => List.mem_append_left _ (h.claimed worker hworker)
  distinct := h.distinct
  started := by
    intro key token hmem
    rw [← mem_startedTokens, startedTokens_append, startedTokens_events, List.append_nil,
      mem_startedTokens] at hmem
    exact h.started key token hmem
  once := by
    intro key
    rw [startedTokens_append, startedTokens_events, List.append_nil]
    exact h.once key

/-- A process enters. -/
theorem enter (h : Staffed workers log) {worker : Worker}
    (hclaimed : .claimed worker.key worker.token ∈ log)
    (hnew : ∀ other ∈ workers, (other.key, other.token) ≠ (worker.key, worker.token)) :
    Staffed (workers ++ [worker]) log where
  claimed := by
    intro other hother
    rcases List.mem_append.1 hother with hother | hother
    · exact h.claimed other hother
    · rw [List.mem_singleton.1 hother]
      exact hclaimed
  distinct := by
    rw [List.map_append]
    refine List.nodup_append.2 ⟨h.distinct, List.nodup_singleton _, fun a ha b hb hab => ?_⟩
    obtain ⟨other, hother, rfl⟩ := List.mem_map.1 ha
    exact hnew other hother (hab.trans (List.mem_singleton.1 hb))
  started := by
    intro key token hmem
    obtain ⟨other, hother, hrest⟩ := h.started key token hmem
    exact ⟨other, List.mem_append_left _ hother, hrest⟩
  once := h.once

/-- A process goes on. -/
theorem advance (h : Staffed workers log) {i : Nat} {worker : Worker}
    (hworker : workers[i]? = some worker) {stage : Stage} (hstage : stage ≠ .claimed) :
    Staffed (workers.set i { worker with stage }) log where
  claimed := by
    intro other hother
    rcases List.mem_or_eq_of_mem_set hother with hother | rfl
    · exact h.claimed other hother
    · exact h.claimed worker (List.mem_of_getElem? hworker)
  distinct := by
    have hmap : (workers.set i { worker with stage }).map (fun w => (w.key, w.token)) =
        workers.map fun w => (w.key, w.token) := by
      refine List.ext_getElem? fun j => ?_
      rw [List.getElem?_map, List.getElem?_map, List.getElem?_set]
      by_cases hij : i = j
      · subst hij
        rw [if_pos rfl, if_pos (List.getElem?_eq_some_iff.1 hworker).1, hworker]
        rfl
      · rw [if_neg hij]
    rw [hmap]
    exact h.distinct
  started := by
    intro key token hmem
    obtain ⟨other, hother, hkey, htoken, hlate⟩ := h.started key token hmem
    obtain ⟨j, hj⟩ := List.getElem?_of_mem hother
    by_cases hij : i = j
    · subst hij
      rw [hworker] at hj
      cases hj
      refine ⟨_, List.mem_set (List.getElem?_eq_some_iff.1 hworker).1 _, hkey, htoken, hstage⟩
    · refine ⟨other, ?_, hkey, htoken, hlate⟩
      exact List.mem_of_getElem? ((List.getElem?_set_ne hij).trans hj)
  once := h.once

/-- A process starts its submission. -/
theorem submit (h : Staffed workers log) {i : Nat} {worker : Worker}
    (hworker : workers[i]? = some worker) (hstage : worker.stage = .claimed) :
    Staffed (workers.set i { worker with stage := .submitting })
      (log ++ [.started worker.key worker.token]) := by
  have hnext : Staffed (workers.set i { worker with stage := .submitting }) log :=
    h.advance hworker (by simp)
  have hmem := List.mem_of_getElem? hworker
  have hnew : worker.token ∉ startedTokens worker.key log := by
    intro hstarted
    obtain ⟨other, hother, hkey, htoken, hlate⟩ :=
      h.started worker.key worker.token (mem_startedTokens.1 hstarted)
    have heq := List.inj_on_of_nodup_map h.distinct hother hmem (by rw [hkey, htoken])
    exact hlate (heq ▸ hstage)
  refine ⟨fun other hother => List.mem_append_left _ (hnext.claimed other hother), hnext.distinct,
    fun key token hstarted => ?_, fun key => ?_⟩
  · rcases List.mem_append.1 hstarted with hstarted | hstarted
    · exact hnext.started key token hstarted
    · cases List.mem_singleton.1 hstarted
      exact ⟨_, List.mem_set (List.getElem?_eq_some_iff.1 hworker).1 _, rfl, rfl, by simp⟩
  · rw [startedTokens_append]
    by_cases hkey : worker.key = key
    · subst hkey
      have hone : startedTokens worker.key [.started worker.key worker.token] =
          [worker.token] := by simp [startedTokens, Event.start?]
      rw [hone]
      exact List.nodup_append.2 ⟨h.once _, List.nodup_singleton _, fun a ha b hb hab =>
        hnew (List.mem_singleton.1 hb ▸ hab ▸ ha)⟩
    · have hnone : startedTokens key [.started worker.key worker.token] = [] := by
        simp [startedTokens, Event.start?, hkey]
      rw [hnone, List.append_nil]
      exact h.once key

end Staffed

/-! ## Runs -/

/-- What every run keeps. -/
structure Consistent (s : System) : Prop where
  ledger : Ledger s.table s.log
  staffed : Staffed s.workers s.log

section

variable {encodedBytes : Json → Nat} {s : System}

theorem Fresh.not_claimed {a : Action} (h : Fresh s a) :
    ∀ token ∈ a.token?, ∀ key, token ∉ claimedTokens key s.log := by
  intro token htoken key hmem
  exact h token htoken _ (mem_claimedTokens.1 hmem) key rfl

theorem commit_cases (encodedBytes : Json → Nat) (s : System) (c : Call) :
    (∃ table, c.run encodedBytes s.table = .ok ((), table) ∧
      s.commit encodedBytes c = ({ s with table, log := s.log ++ c.events }, true)) ∨
    (∃ e, c.run encodedBytes s.table = .error e) ∧ s.commit encodedBytes c = (s, false) := by
  unfold System.commit
  cases c.run encodedBytes s.table with
  | ok p => exact .inl ⟨p.2, rfl, rfl⟩
  | error e => exact .inr ⟨⟨e, rfl⟩, rfl⟩

theorem commit_workers (c : Call) : (s.commit encodedBytes c).1.workers = s.workers := by
  rcases commit_cases encodedBytes s c with ⟨table, -, heq⟩ | ⟨-, heq⟩ <;> rw [heq]

theorem Consistent.commit (h : Consistent s) {c : Call}
    (hfresh : ∀ token ∈ (Action.call c).token?, ∀ key, token ∉ claimedTokens key s.log) :
    Consistent (s.commit encodedBytes c).1 := by
  rcases commit_cases encodedBytes s c with ⟨table, hrun, heq⟩ | ⟨-, heq⟩
  · rw [heq]
    exact ⟨h.ledger.commit hrun hfresh, h.staffed.commit c⟩
  · rw [heq]
    exact h

/-- **Every step** keeps the log right. -/
theorem Consistent.step (h : Consistent s) {a : Action} (hfresh : Fresh s a) :
    Consistent (Interaction.step encodedBytes s a) := by
  have hnot := hfresh.not_claimed
  cases a with
  | call c => exact h.commit hnot
  | resume scope id revision now uuid =>
    have hcommit : Consistent (s.commit encodedBytes (.claim scope id revision now uuid)).1 :=
      h.commit hnot
    rcases commit_cases encodedBytes s (.claim scope id revision now uuid) with
      ⟨table, hrun, heq⟩ | ⟨-, heq⟩
    · rw [heq] at hcommit
      simp only [Interaction.step, heq, if_true]
      refine ⟨hcommit.ledger, hcommit.staffed.enter ?_ fun other hother hsame => ?_⟩
      · exact List.mem_append_right _ (List.mem_singleton_self _)
      · obtain ⟨hkey, htoken⟩ := Prod.mk.inj hsame
        have hold := h.staffed.claimed other hother
        rw [hkey, htoken] at hold
        exact hnot uuid rfl (scope, id) (mem_claimedTokens.2 hold)
    · simp only [Interaction.step, heq, Bool.false_eq_true, if_false]
      exact h
  | submit i =>
    unfold Interaction.step
    dsimp only
    split
    next worker hworker =>
      split
      next hstage =>
        exact ⟨h.ledger.started worker.key worker.token, h.staffed.submit hworker hstage⟩
      · exact h
    · exact h
  | submitted i runId =>
    unfold Interaction.step
    dsimp only
    split
    next worker hworker =>
      split
      next hstage =>
        have hcommit : Consistent (s.commit encodedBytes (.reconcile worker.key.1 worker.key.2
          (some worker.token) runId (.bool false))).1 := h.commit fun token ht => by cases ht
        have hstaffed := hcommit.staffed
        rw [commit_workers] at hstaffed
        exact ⟨hcommit.ledger, hstaffed.advance hworker (by simp)⟩
      · exact h
    · exact h

/-- The call of the store that a step makes. -/
def Action.call? (s : System) : Action → Option Call
  | .call c => some c
  | .resume scope id revision now uuid => some (.claim scope id revision now uuid)
  | .submit _ => none
  | .submitted i runId =>
    (s.workers[i]?.filter (·.stage = .submitting)).map fun worker =>
      .reconcile worker.key.1 worker.key.2 (some worker.token) runId (.bool false)

/-- A step does to the table what its call does. -/
theorem step_changes (s : System) (a : Action) :
    (Interaction.step encodedBytes s a).table = s.table ∨
      ∃ c, a.call? s = some c ∧ Changes c s.table (Interaction.step encodedBytes s a).table := by
  have hcommit : ∀ c, Changes c s.table (s.commit encodedBytes c).1.table := by
    intro c
    rcases commit_cases encodedBytes s c with ⟨table, hrun, heq⟩ | ⟨-, heq⟩
    · rw [heq]
      exact Call.run_eq_ok hrun
    · rw [heq]
      exact .replayed
  cases a with
  | call c => exact .inr ⟨c, rfl, hcommit c⟩
  | resume scope id revision now uuid =>
    have hclaim := hcommit (.claim scope id revision now uuid)
    unfold Interaction.step
    dsimp only
    split <;> exact .inr ⟨_, rfl, hclaim⟩
  | submit i =>
    unfold Interaction.step
    dsimp only
    split
    · split <;> exact .inl rfl
    · exact .inl rfl
  | submitted i runId =>
    unfold Interaction.step Action.call?
    dsimp only
    split
    next worker hworker =>
      split
      next hstage =>
        refine .inr ⟨_, ?_, hcommit _⟩
        simp [hworker, hstage]
      · exact .inl rfl
    · exact .inl rfl

/-- What holds in every state that a run reaches. -/
structure Kept (encodedBytes : Json → Nat) (s : System) : Prop where
  moves : ∀ a, (Interaction.step encodedBytes s a).table = s.table ∨
    ∃ c, a.call? s = some c ∧ Changes c s.table (Interaction.step encodedBytes s a).table
  refused : ∀ c e, c.run encodedBytes s.table = .error e →
    Interaction.step encodedBytes s (.call c) = s
  settled : ∀ more key row, s.table.get? key = some row →
    ∃ row', (exec (Interaction.step encodedBytes) s more).table.get? key = some row' ∧
      Settled row row' ∧ (row.answers ≠ none → row'.answers = row.answers)
  stale : ∀ key front token back, claimedTokens key s.log = front ++ token :: back → back ≠ [] →
    ∀ runId notSubmitted table, (Call.reconcile key.1 key.2 (some token) runId notSubmitted).run
      encodedBytes s.table ≠ .ok ((), table)
  once : ∀ key front mid back, s.log = front ++ mid ++ back →
    ((startedTokens key mid).filter (· ∈ claimedTokens key mid)).length ≤
      mid.count (.released key) + 1
  claimed : ∀ key, (startedTokens key s.log).Nodup ∧
    ∀ token ∈ startedTokens key s.log, token ∈ claimedTokens key s.log
  bounded : ∀ key, (startedTokens key s.log).length ≤ s.log.count (.released key) + 1

theorem settled_run (more : List Action) {key : String × String} {row : Clarification}
    (hrow : s.table.get? key = some row) :
    ∃ row', (exec (Interaction.step encodedBytes) s more).table.get? key = some row' ∧
      Settled row row' := by
  induction more generalizing s row with
  | nil => exact ⟨row, hrow, .refl row⟩
  | cons a more ih =>
    obtain ⟨row₁, hrow₁, hsettled⟩ :
        ∃ row₁, (Interaction.step encodedBytes s a).table.get? key = some row₁ ∧
          Settled row row₁ := by
      rcases step_changes s a with hsame | ⟨c, -, hchanges⟩
      · exact ⟨row, hsame ▸ hrow, .refl row⟩
      · exact hchanges.settled hrow
    obtain ⟨row', hrow', hsettled'⟩ := ih hrow₁
    exact ⟨row', hrow', hsettled.trans hsettled'⟩

/-- Submissions are started under tokens that were claimed, once each. -/
theorem Consistent.started_claimed (h : Consistent s) (key : String × String) :
    ∀ token ∈ startedTokens key s.log, token ∈ claimedTokens key s.log := by
  intro token htoken
  obtain ⟨worker, hworker, rfl, rfl, -⟩ :=
    h.staffed.started key token (mem_startedTokens.1 htoken)
  exact mem_claimedTokens.2 (h.staffed.claimed worker hworker)

theorem Consistent.kept (h : Consistent s) : Kept encodedBytes s := by
  have honce : ∀ key front mid back, s.log = front ++ mid ++ back →
      ((startedTokens key mid).filter (· ∈ claimedTokens key mid)).length ≤
        mid.count (.released key) + 1 := by
    intro key front mid back hlog
    have horderly := h.ledger.orderly key
    have hnodup := h.staffed.once key
    rw [hlog] at horderly hnodup
    rw [startedTokens_append, startedTokens_append] at hnodup
    have hmid := (List.nodup_append.1 (List.nodup_append.1 hnodup).1).2.1
    have hsub : (startedTokens key mid).filter (· ∈ claimedTokens key mid) ⊆
        claimedTokens key mid := fun token ht => by simpa using (List.mem_filter.1 ht).2
    have hle := (List.subperm_of_subset (hmid.filter _) hsub).length_le
    have hclaims := claims_le (orderly_append.1 (orderly_append.1 horderly).1).2
    omega
  refine ⟨step_changes s, fun c e he => ?_, fun more key row hrow => ?_,
    fun key front token back htokens hback runId notSubmitted table =>
      h.ledger.stale htokens hback, honce,
    fun key => ⟨h.staffed.once key, h.started_claimed key⟩, fun key => ?_⟩
  · show (s.commit encodedBytes c).1 = s
    rw [System.commit, he]
  · obtain ⟨row', hrow', hsettled⟩ := settled_run more hrow
    refine ⟨row', hrow', hsettled, fun hanswers => (hsettled.answers fun hstate => ?_).1⟩
    exact hanswers ((h.ledger.sound key row hrow).unanswered hstate)
  · have hall := honce key [] s.log [] (by simp)
    rwa [List.filter_eq_self.2 fun token ht => decide_eq_true (h.started_claimed key token ht)]
      at hall

/-- **The guarantees of every run** of any number of processes. -/
theorem reached_kept {run : List Action}
    (hrun : Along (Interaction.step encodedBytes) Fresh {} run) :
    Kept encodedBytes (exec (Interaction.step encodedBytes) {} run) := by
  refine Consistent.kept ?_
  exact exec_induction (fun s a hfresh h => h.step hfresh) hrun ⟨.initial, .initial⟩

end

/-! ## A process that is late -/

section

/-- The lengths of the two texts stored below. -/
def sampleBytes : Json → Nat
  | .obj [_] => 15
  | _ => 139

/-- The request. -/
def sampleKey : String × String := ("host", "r1")

/-- One question is asked and answered; a process claims the request and is held up, the host
reconciles with `not_submitted`, a second process claims, and both start their submissions. -/
def lateRun : List Action :=
  [.call (.ask "host" "form" (.arr [.obj [("id", .str "q"), ("prompt", .str "Which file?")]]) .null
      .null .null "r1"),
    .call (.answer "host" "r1" (.int 1) "a1" (.obj [("q", .str "main.py")]) 0),
    .resume "host" "r1" (.int 2) 0 "t1",
    .call (.reconcile "host" "r1" (some "t1") .null (.bool true)),
    .resume "host" "r1" (.int 4) 0 "t2",
    .submit 1,
    .submit 0]

theorem reached_kept_late :
    Along (step sampleBytes) Fresh {} lateRun ∧
      Kept sampleBytes (exec (step sampleBytes) {} lateRun) := by
  have hfresh : Along (step sampleBytes) Fresh {} lateRun := by decide +kernel
  exact ⟨hfresh, reached_kept hfresh⟩

/-- **Two submissions are started after one release**: the one of the claim that was released, and
the one of the next claim. -/
theorem released_twice_started :
    Along (step sampleBytes) Fresh {} lateRun ∧
      ∃ front mid, (exec (step sampleBytes) {} lateRun).log = front ++ .released sampleKey :: mid ∧
        .released sampleKey ∉ mid ∧ startedTokens sampleKey mid = ["t2", "t1"] := by
  refine ⟨by decide +kernel, [.claimed sampleKey "t1"],
    [.claimed sampleKey "t2", .started sampleKey "t2", .started sampleKey "t1"], ?_, ?_, ?_⟩
  · decide +kernel
  · decide
  · decide

end

end Purra.Interaction
