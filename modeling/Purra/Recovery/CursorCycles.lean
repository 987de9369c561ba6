import Purra.Recovery.Cursor

/-!
# A cycle of the cursor covers every candidate

Between two wraps of the stored position of a name, every instance of the name reads pages behind that
position and moves it on.  An acknowledgement whose row is not the stored one any more is refused,
and the revision of the row never comes back; so what is accepted was read behind the stored
position, from the index as it was at some time of the same cycle.

* `Held` — what the instances of a name hold: rows that were stored, pages of the index behind them.
* `acceptedBy`, `accepted` — the acknowledgements that a run accepts.
* `step_accepted`, `step_held` — one event.
* `swept_accepted` — a run that does not wrap.
* `cursor_covers_every_candidate` — the cycle.
-/

namespace Purra

open Sweep SqliteRecoveryCursor

/-- An acknowledgement that was accepted: what was processed, and the new position. -/
structure CursorAck where
  processed : List String
  position : Option String
  deriving DecidableEq, Repr

namespace CursorSystem

/-- The acknowledgement of a name that an event commits. -/
def acceptedBy (name : String) (s : CursorSystem) : CursorEvent → Option CursorAck
  | .transact call false =>
    match s.callAt call with
    | some (⟨_, .committing row after processed⟩, c) =>
      if c.name = name ∧ (commit c.name row after s.store).toOption.isSome = true then
        some ⟨processed, after⟩
      else none
    | _ => none
  | _ => none

/-- The acknowledgements of a name that a run accepts. -/
def accepted (name : String) : CursorSystem → List CursorEvent → List CursorAck
  | _, [] => []
  | s, event :: run => (acceptedBy name s event).toList ++ accepted name (s.step event) run

/-- The row of a name. -/
def stored (s : CursorSystem) (name : String) : CursorRow :=
  (s.store.recoveryCursors.get? name).getD ⟨0, none⟩

/-! ## What an acknowledgement asks of its page -/

/-- The page was read behind the position of the row, from an index that, unless the row is older than
`base`, had every member of `R`. -/
def PageRead (base : Int) (R : String → Prop) (row : CursorRow) (page : CandidatePage) : Prop :=
  ∃ index size, listRunCandidates index row.afterRunId size = .ok page ∧
    (base ≤ row.revision → ∀ runId, R runId → runId ∈ index)

/-- The checks of `acknowledge` passed. -/
def Passed (page : CandidatePage) (processed : List String) (after : Option String) : Prop :=
  processed = page.runIds.take processed.length ∧ positionAfter page processed = .ok after

variable {index : Keys String}

theorem listRunCandidates_eq_ok {position : Option String} {size : Nat}
    {page : CandidatePage} (h : listRunCandidates index position size = .ok page) :
    page.runIds = (listing index position).take size ∧
      (page.nextAfterRunId = none → page.runIds = listing index position) := by
  unfold listRunCandidates at h
  split at h
  · cases h
  · rename_i hsize
    split at h
    · cases h
    · dsimp only at h
      split at h
      · cases h
      · cases h
        have htake : ((listing index position).take (size + 1)).take size =
            (listing index position).take size := by
          rw [List.take_take, Nat.min_eq_left (Nat.le_succ size)]
        refine ⟨htake, fun hnone => ?_⟩
        dsimp only at hnone ⊢
        rw [htake] at hnone ⊢
        have hshort : ¬ size < ((listing index position).take (size + 1)).length := by
          intro hmore
          rw [if_pos hmore, List.getLast?_eq_none_iff, List.take_eq_nil_iff] at hnone
          rw [List.length_take] at hmore
          rcases hnone with hzero | hempty
          · omega
          · rw [hempty, List.length_nil] at hmore
            omega
        rw [List.length_take] at hshort
        exact List.take_of_length_le (by omega)

variable {row : CursorRow} {processed : List String} {after : Option String}

/-- Either the whole listing was processed and the position wraps, or it moves to the last processed
member. -/
theorem passed_cases {size : Nat} {page : CandidatePage}
    (hpage : listRunCandidates index row.afterRunId size = .ok page)
    (hpassed : Passed page processed after) :
    (after = none ∧ processed = listing index row.afterRunId) ∨
      ∃ n q, after = some q ∧ processed = (listing index row.afterRunId).take n ∧
        processed.getLast? = some q := by
  obtain ⟨hids, hall⟩ := listRunCandidates_eq_ok hpage
  obtain ⟨htaken, hafter⟩ := hpassed
  unfold positionAfter at hafter
  split at hafter
  · rename_i hwhole
    refine .inl ⟨(Except.ok.inj hafter).symm, ?_⟩
    rw [htaken, hwhole.1, List.take_length]
    exact hall hwhole.2
  · split at hafter
    · rename_i q hlast
      refine .inr ⟨min processed.length size, q, (Except.ok.inj hafter).symm, ?_, hlast⟩
      rw [hids, List.take_take] at htaken
      exact htaken
    · cases hafter

theorem acknowledge_eq_ok {c : SqliteRecoveryCursor} {task : CursorTask}
    (h : c.acknowledge processed = .ok (some task)) :
    ∃ row page after, c.page = some (row, page) ∧ Passed page processed after ∧
      task = .committing row after processed := by
  unfold acknowledge at h
  split at h
  · cases h
  · rename_i row page hpage
    split at h
    · cases h
    · rename_i htaken
      split at h
      · cases h
      · obtain ⟨after, hafter, h⟩ := bind_eq_ok h
        cases h
        exact ⟨row, page, after, hpage, ⟨not_not.1 fun hne => htaken (.inr hne), hafter⟩, rfl⟩

/-- A commit that goes through found the stored row. -/
theorem commit_eq_ok {name : String}
    {store store' : CursorStore} (h : commit name row after store = .ok store') :
    (store.recoveryCursors.get? name).getD ⟨0, none⟩ = row ∧
      store' = { store with
        recoveryCursors := store.recoveryCursors.set name ⟨row.revision + 1, after⟩ } := by
  obtain ⟨found, hfound, h⟩ := bind_eq_ok h
  split at h
  · cases h
  · rename_i hsame
    obtain ⟨_, -, h⟩ := bind_eq_ok h
    obtain ⟨_, -, hrow⟩ := bind_eq_ok hfound
    split at hrow
    · cases hrow
    · rw [← not_not.1 hsame]
      cases hrow
      cases h
      rw [not_not.1 hsame]
      exact ⟨rfl, rfl⟩

/-! ## What the instances of a name hold -/

/-- The row was stored at some time: it is older than the stored one, or is that one. -/
def RowSeen (current row : CursorRow) : Prop :=
  row.revision ≤ current.revision ∧ (row.revision = current.revision → row = current)

/-- What a call of an instance of the name holds. -/
def TaskHeld (current : CursorRow) (base : Int) (R : String → Prop) : CursorTask → Prop
  | .reading => True
  | .listing row => RowSeen current row
  | .committing row after processed =>
    RowSeen current row ∧ ∃ page, PageRead base R row page ∧ Passed page processed after
  | .ended => True

/-- What the instances of the name hold, when `current` is stored. -/
structure Held (name : String) (current : CursorRow) (base : Int) (R : String → Prop)
    (s : CursorSystem) : Prop where
  pages : ∀ (i : Nat) (c : SqliteRecoveryCursor), s.cursors[i]? = some c → c.name = name →
    ∀ row page, c.page = some (row, page) → RowSeen current row ∧ PageRead base R row page
  tasks : ∀ (k : Nat) (call : CursorCall), s.calls[k]? = some call →
    ∀ c : SqliteRecoveryCursor, s.cursors[call.cursor]? = some c → c.name = name →
      TaskHeld current base R call.task
  inRange : ∀ (k : Nat) (call : CursorCall), s.calls[k]? = some call → call.cursor < s.cursors.length

section

variable {name : String} {current : CursorRow} {base : Int} {R : String → Prop} {s : CursorSystem}

theorem rowSeen_self : RowSeen current current := ⟨le_refl _, fun _ => rfl⟩

variable {current' : CursorRow}

/-- A newer row makes all rows older ones, and leaves no page of the new time. -/
theorem Held.renew {base' : Int} {R' : String → Prop}
    (h : Held name current base R s) (hrow : current.revision < current'.revision)
    (hpage : ∀ row page, row.revision ≤ current.revision → PageRead base R row page →
      PageRead base' R' row page) : Held name current' base' R' s where
  pages i c hc hname row page hheld := by
    obtain ⟨hseen, hread⟩ := h.pages i c hc hname row page hheld
    exact ⟨⟨by have := hseen.1; omega, fun heq => by have := hseen.1; omega⟩,
      hpage row page hseen.1 hread⟩
  tasks k call hcall c hc hname := by
    have hheld := h.tasks k call hcall c hc hname
    cases htask : call.task with
    | reading => trivial
    | ended => trivial
    | listing row =>
      rw [htask] at hheld
      exact ⟨by have := hheld.1; omega, fun heq => by have := hheld.1; omega⟩
    | committing row after processed =>
      rw [htask] at hheld
      obtain ⟨hseen, page, hread, hpassed⟩ := hheld
      exact ⟨⟨by have := hseen.1; omega, fun heq => by have := hseen.1; omega⟩, page,
        hpage row page hseen.1 hread, hpassed⟩
  inRange := h.inRange

theorem Held.newer (h : Held name current base R s)
    (hrow : current.revision < current'.revision) : Held name current' base R s :=
  h.renew hrow fun _ _ _ hread => hread

/-- In a new cycle nobody holds a page yet. -/
theorem Held.cycle {R' : String → Prop} (h : Held name current base R s)
    (hrow : current.revision < current'.revision) :
    Held name current' current'.revision R' s :=
  h.renew hrow fun row page hle ⟨index, size, hlist, _⟩ =>
    ⟨index, size, hlist, fun hbase => by omega⟩

variable {c : SqliteRecoveryCursor}

theorem getElem?_setPage {i j : Nat} {page : Option (CursorRow × CandidatePage)}
    (h : (s.setPage i page).cursors[j]? = some c) :
    ∃ c', s.cursors[j]? = some c' ∧ c'.name = c.name ∧ (c.page = c'.page ∨ i = j ∧ c.page = page) := by
  unfold setPage at h
  dsimp only at h
  rw [List.getElem?_modify, Option.map_eq_map, Option.map_eq_some_iff] at h
  obtain ⟨c', hc', rfl⟩ := h
  refine ⟨c', hc', ?_⟩
  split
  · rename_i hij
    exact ⟨rfl, .inr ⟨hij, rfl⟩⟩
  · exact ⟨rfl, .inl rfl⟩

theorem Held.setPage (h : Held name current base R s) {i : Nat}
    {page : Option (CursorRow × CandidatePage)}
    (hpage : ∀ c : SqliteRecoveryCursor, s.cursors[i]? = some c → c.name = name →
      ∀ row read, page = some (row, read) → RowSeen current row ∧ PageRead base R row read) :
    Held name current base R (s.setPage i page) where
  pages j c hc hname row read hheld := by
    obtain ⟨c', hc', hsame, hkept | ⟨rfl, hset⟩⟩ := getElem?_setPage hc
    · exact h.pages j c' hc' (hsame.trans hname) row read (hkept ▸ hheld)
    · exact hpage c' hc' (hsame.trans hname) row read (hset ▸ hheld)
  tasks k call hcall c hc hname := by
    obtain ⟨c', hc', hsame, -⟩ := getElem?_setPage hc
    exact h.tasks k call hcall c' hc' (hsame.trans hname)
  inRange k call hcall := by
    show call.cursor < (s.cursors.modify i _).length
    rw [List.length_modify]
    exact h.inRange k call hcall

variable {k : Nat}

theorem Held.setTask (h : Held name current base R s) {task : CursorTask}
    (htask : ∀ call : CursorCall, s.calls[k]? = some call →
      ∀ c : SqliteRecoveryCursor, s.cursors[call.cursor]? = some c → c.name = name →
        TaskHeld current base R task) :
    Held name current base R (s.setTask k task) := by
  have hcalls : ∀ {j : Nat} {call : CursorCall}, (s.setTask k task).calls[j]? = some call →
      ∃ call', s.calls[j]? = some call' ∧ call.cursor = call'.cursor ∧
        (call.task = call'.task ∨ k = j ∧ call.task = task) := by
    intro j call hcall
    unfold CursorSystem.setTask at hcall
    dsimp only at hcall
    rw [List.getElem?_modify, Option.map_eq_map, Option.map_eq_some_iff] at hcall
    obtain ⟨call', hcall', rfl⟩ := hcall
    refine ⟨call', hcall', ?_⟩
    split
    · rename_i hkj
      exact ⟨rfl, .inr ⟨hkj, rfl⟩⟩
    · exact ⟨rfl, .inl rfl⟩
  refine ⟨h.pages, fun j call hcall c hc hname => ?_, fun j call hcall => ?_⟩
  · obtain ⟨call', hcall', hcursor, hkept | ⟨rfl, hset⟩⟩ := hcalls hcall
    · rw [hkept]
      exact h.tasks j call' hcall' c (hcursor ▸ hc) hname
    · rw [hset]
      exact htask call' hcall' c (hcursor ▸ hc) hname
  · obtain ⟨call', hcall', hcursor, -⟩ := hcalls hcall
    rw [hcursor]
    exact h.inRange j call' hcall'

/-- The storage is not looked at. -/
theorem Held.store (h : Held name current base R s) (store : CursorStore) :
    Held name current base R { s with store } := ⟨h.pages, h.tasks, h.inRange⟩

/-- A new call of an instance. -/
theorem Held.call (h : Held name current base R s) {cursor : Nat} {task : CursorTask}
    (hcursor : cursor < s.cursors.length)
    (htask : ∀ c : SqliteRecoveryCursor, s.cursors[cursor]? = some c → c.name = name →
      TaskHeld current base R task) :
    Held name current base R { s with calls := s.calls ++ [⟨cursor, task⟩] } := by
  have hcalls : ∀ {j : Nat} {call : CursorCall}, (s.calls ++ [⟨cursor, task⟩])[j]? = some call →
      s.calls[j]? = some call ∨ call = ⟨cursor, task⟩ := by
    intro j call hcall
    rcases Nat.lt_or_ge j s.calls.length with hj | hj
    · rw [List.getElem?_append_left hj] at hcall
      exact .inl hcall
    · rw [List.getElem?_append_right hj] at hcall
      exact .inr (List.mem_singleton.1 (List.mem_of_getElem? hcall))
  refine ⟨h.pages, fun j call hcall c hc hname => ?_, fun j call hcall => ?_⟩
  · rcases hcalls hcall with hold | rfl
    · exact h.tasks j call hold c hc hname
    · exact htask c hc hname
  · rcases hcalls hcall with hold | rfl
    · exact h.inRange j call hold
    · exact hcursor

/-- A new instance. -/
theorem Held.cursor (h : Held name current base R s)
    (hc : c.page = none) : Held name current base R { s with cursors := s.cursors ++ [c] } := by
  have hold : ∀ {j : Nat}, j < s.cursors.length →
      (s.cursors ++ [c])[j]? = s.cursors[j]? := fun hj => List.getElem?_append_left hj
  refine ⟨fun j found hfound hname row page hheld => ?_, fun k call hcall found hfound hname => ?_,
    fun k call hcall => ?_⟩
  · rcases Nat.lt_or_ge j s.cursors.length with hj | hj
    · exact h.pages j found ((hold hj).symm.trans hfound) hname row page hheld
    · have hlast : found = c := by
        dsimp only at hfound
        rw [List.getElem?_append_right hj] at hfound
        exact List.mem_singleton.1 (List.mem_of_getElem? hfound)
      rw [hlast, hc] at hheld
      cases hheld
  · have hj := h.inRange k call hcall
    exact h.tasks k call hcall found ((hold hj).symm.trans hfound) hname
  · have hj := h.inRange k call hcall
    show call.cursor < (s.cursors ++ [c]).length
    rw [List.length_append]
    omega

/-! ## One event -/

theorem callAt_eq_some {call : CursorCall} (h : s.callAt k = some (call, c)) :
    s.calls[k]? = some call ∧ s.cursors[call.cursor]? = some c := by
  obtain ⟨found, hfound, h⟩ := Option.bind_eq_some_iff.1 h
  obtain ⟨c', hc', h⟩ := Option.map_eq_some_iff.1 h
  cases h
  exact ⟨hfound, hc'⟩

theorem row_eq_ok {store : CursorStore} {row : CursorRow}
    (h : SqliteRecoveryCursor.row store name = .ok row) :
    row = (store.recoveryCursors.get? name).getD ⟨0, none⟩ := by
  obtain ⟨_, -, h⟩ := bind_eq_ok h
  split at h
  · cases h
  · exact (Except.ok.inj h).symm

/-- A transaction of a call: it reads the stored row, or a page of the index as it is, or commits. -/
theorem Held.transact (h : Held name (s.stored name) base R s)
    (hR : ∀ runId, R runId → runId ∈ s.store.index) {call : CursorCall}
    (hcall : s.calls[k]? = some call) (hc : s.cursors[call.cursor]? = some c) :
    Held name (s.stored name) base R (s.transact k call.cursor c call.task) := by
  have hended : ∀ {s' : CursorSystem}, Held name (s.stored name) base R s' →
      Held name (s.stored name) base R (s'.setTask k .ended) :=
    fun h' => h'.setTask fun _ _ _ _ _ => trivial
  cases htask : call.task with
  | ended => exact h
  | reading =>
    unfold CursorSystem.transact
    cases hrow : row s.store c.name with
    | error e => exact hended h
    | ok row =>
      refine h.setTask fun found hfound c' hc' hname => ?_
      rw [hcall] at hfound
      cases hfound
      rw [hc] at hc'
      cases hc'
      rw [hname] at hrow
      exact row_eq_ok hrow ▸ rowSeen_self
  | listing row =>
    unfold CursorSystem.transact
    dsimp only
    cases hpage : listRunCandidates s.store.index row.afterRunId c.size with
    | error e => exact hended h
    | ok page =>
      refine hended (h.setPage fun c' hc' hname row' read hread => ?_)
      rw [hc] at hc'
      cases hc'
      cases hread
      have hseen := h.tasks k call hcall c hc hname
      rw [htask] at hseen
      exact ⟨hseen, s.store.index, c.size, hpage, fun _ => hR⟩
  | committing row after processed =>
    unfold CursorSystem.transact
    dsimp only
    cases commit c.name row after s.store with
    | error e => exact hended h
    | ok store => exact hended ((h.store store).setPage fun _ _ _ _ _ hread => by cases hread)

/-- What the instances hold stays so under every event that finds `R` in the index. -/
theorem Held.step (h : Held name (s.stored name) base R s)
    (hR : ∀ runId, R runId → runId ∈ s.store.index) (event : CursorEvent) :
    Held name (s.stored name) base R (s.step event) := by
  cases event with
  | reindex index => exact h.store _
  | cursor name' size =>
    unfold CursorSystem.step
    dsimp only
    cases hnew : new name' size with
    | error e => exact h
    | ok c =>
      refine h.cursor ?_
      unfold new at hnew
      split_ifs at hnew
      cases hnew
      rfl
  | discover cursor =>
    unfold CursorSystem.step
    dsimp only
    split
    · rename_i hcursor
      have hdropped : Held name (s.stored name) base R (s.setPage cursor none) :=
        h.setPage fun _ _ _ _ _ hread => by cases hread
      refine hdropped.call ?_ fun _ _ _ => trivial
      show cursor < (s.cursors.modify cursor _).length
      rwa [List.length_modify]
    · exact h
  | acknowledge cursor processed =>
    unfold CursorSystem.step
    dsimp only
    cases htask : s.acknowledgeAt cursor processed with
    | none => exact h
    | some task =>
      obtain ⟨c, hc, htask⟩ := Option.bind_eq_some_iff.1 htask
      obtain ⟨found, hfound, htask⟩ := Option.bind_eq_some_iff.1 htask
      have hacknowledge : c.acknowledge processed = .ok (some task) := by
        cases hack : c.acknowledge processed with
        | error e =>
          rw [hack] at hfound
          cases hfound
        | ok answer =>
          rw [hack] at hfound
          cases hfound
          rw [id] at htask
          rw [htask]
      obtain ⟨row, page, after, hpage, hpassed, rfl⟩ := acknowledge_eq_ok hacknowledge
      refine h.call (List.getElem?_eq_some_iff.1 hc).1 fun c' hc' hname => ?_
      rw [hc] at hc'
      cases hc'
      obtain ⟨hseen, hread⟩ := h.pages cursor c hc hname row page hpage
      exact ⟨hseen, page, hread, hpassed⟩
  | transact k fails =>
    unfold CursorSystem.step
    dsimp only
    cases hcall : s.callAt k with
    | none => exact h
    | some found =>
      obtain ⟨call, c⟩ := found
      obtain ⟨hget, hc⟩ := callAt_eq_some hcall
      dsimp only
      split
      · exact h.setTask fun _ _ _ _ _ => trivial
      · exact h.transact hR hget hc

variable {event : CursorEvent}

variable {ack : CursorAck}

theorem acceptedBy_eq_some (h : acceptedBy name s event = some ack) :
    ∃ k call c row store', event = .transact k false ∧ s.calls[k]? = some call ∧
      s.cursors[call.cursor]? = some c ∧ s.callAt k = some (call, c) ∧ c.name = name ∧
      call.task = .committing row ack.position ack.processed ∧
      commit c.name row ack.position s.store = .ok store' := by
  unfold acceptedBy at h
  split at h
  · rename_i k
    split at h
    · rename_i cursor row after processed c hcall
      split at h
      · rename_i hok
        cases h
        obtain ⟨hget, hc⟩ := callAt_eq_some hcall
        obtain ⟨store', hstore⟩ := Option.isSome_iff_exists.1 hok.2
        refine ⟨k, _, c, row, store', rfl, hget, hc, hcall, hok.1, rfl, ?_⟩
        cases hcommit : commit c.name row after s.store with
        | error e =>
          rw [hcommit] at hstore
          cases hstore
        | ok found =>
          rw [hcommit] at hstore
          cases hstore
          rfl
      · cases h
    · cases h
  · cases h

/-- An accepted acknowledgement moves the stored position on, over a page that was read behind it. -/
theorem step_accepted (h : Held name (s.stored name) base R s)
    (hack : acceptedBy name s event = some ack) :
    (s.step event).stored name = ⟨(s.stored name).revision + 1, ack.position⟩ ∧
      ∃ page, PageRead base R (s.stored name) page ∧ Passed page ack.processed ack.position := by
  obtain ⟨k, call, c, row, store', rfl, hget, hc, hcall, rfl, htask, hcommit⟩ :=
    acceptedBy_eq_some hack
  obtain ⟨hrow, rfl⟩ := commit_eq_ok hcommit
  have hheld := h.tasks k call hget c hc rfl
  rw [htask] at hheld
  obtain ⟨-, page, hread, hpassed⟩ := hheld
  have hstored : s.stored c.name = row := hrow
  rw [hstored]
  refine ⟨?_, page, hread, hpassed⟩
  unfold CursorSystem.step
  simp only [hcall, Bool.false_eq_true, if_false, htask, CursorSystem.transact, hcommit]
  unfold stored
  show ((s.store.recoveryCursors.set c.name _).get? c.name).getD _ = _
  rw [Dict.get?_set_self]
  rfl

/-- No other event moves it. -/
theorem step_unaccepted (hack : acceptedBy name s event = none) :
    (s.step event).stored name = s.stored name := by
  cases event with
  | reindex index => rfl
  | cursor name' size =>
    unfold CursorSystem.step
    dsimp only
    cases new name' size <;> rfl
  | discover cursor =>
    unfold CursorSystem.step
    dsimp only
    split <;> rfl
  | acknowledge cursor processed =>
    unfold CursorSystem.step
    dsimp only
    cases s.acknowledgeAt cursor processed <;> rfl
  | transact k fails =>
    unfold CursorSystem.step
    dsimp only
    cases hcall : s.callAt k with
    | none => rfl
    | some found =>
      obtain ⟨call, c⟩ := found
      dsimp only
      split
      · rfl
      · rename_i hworks
        cases htask : call.task with
        | ended => rfl
        | reading =>
          unfold CursorSystem.transact
          cases row s.store c.name <;> rfl
        | listing row =>
          unfold CursorSystem.transact
          dsimp only
          cases listRunCandidates s.store.index row.afterRunId c.size <;> rfl
        | committing row after processed =>
          unfold CursorSystem.transact
          dsimp only
          cases hcommit : commit c.name row after s.store with
          | error e => rfl
          | ok store =>
            obtain ⟨-, rfl⟩ := commit_eq_ok hcommit
            have hother : c.name ≠ name := by
              rintro rfl
              obtain ⟨cursor, task⟩ := call
              dsimp only at htask
              rw [Bool.not_eq_true] at hworks
              simp [acceptedBy, hworks, hcall, htask, hcommit, Except.toOption] at hack
            show ((s.store.recoveryCursors.set c.name _).get? name).getD _ = _
            rw [Dict.get?_set_of_ne (Ne.symm hother)]
            rfl

/-! ## Runs -/

/-- After any event the instances hold rows that were stored. -/
theorem Held.next (h : Held name (s.stored name) base R s)
    (hR : ∀ runId, R runId → runId ∈ s.store.index) (event : CursorEvent) :
    Held name ((s.step event).stored name) base R (s.step event) := by
  have hstep := h.step hR event
  cases hack : acceptedBy name s event with
  | none =>
    rw [step_unaccepted hack]
    exact hstep
  | some ack =>
    rw [(step_accepted h hack).1]
    exact hstep.newer (Int.lt_add_one_of_le le_rfl)

variable {done : List String}

/-- What an accepted acknowledgement adds to the cycle. -/
theorem swept_accepted (h : Held name (s.stored name) base R s)
    (hbase : base ≤ (s.stored name).revision) (hswept : Swept R (s.stored name).afterRunId done)
    (hack : acceptedBy name s event = some ack) :
    (ack.position = none ∧ (done ++ ack.processed).Pairwise (· < ·) ∧
        ∀ runId, R runId → runId ∈ done ++ ack.processed) ∨
      ∃ q, ack.position = some q ∧ Behind (s.stored name).afterRunId q ∧
        Swept R (some q) (done ++ ack.processed) := by
  obtain ⟨-, page, ⟨index, size, hpage, hindex⟩, hpassed⟩ := step_accepted h hack
  have hR := hindex hbase
  rcases passed_cases hpage hpassed with ⟨hwrap, hall⟩ | ⟨n, q, hq, htake, hlast⟩
  · rw [hall]
    exact .inl ⟨hwrap, hswept.finish hR⟩
  · rw [htake] at hlast ⊢
    obtain ⟨hbehind, hadvanced⟩ := hswept.advance hR hlast
    exact .inr ⟨q, hq, hbehind, hadvanced⟩

theorem base_next (h : Held name (s.stored name) base R s)
    (hbase : base ≤ (s.stored name).revision) (event : CursorEvent) :
    base ≤ ((s.step event).stored name).revision := by
  cases hack : acceptedBy name s event with
  | none =>
    rw [step_unaccepted hack]
    exact hbase
  | some ack =>
    rw [(step_accepted h hack).1]
    exact Int.le_add_one hbase

/-- Every member of `R` is in the index whenever something happens. -/
def Stays (R : String → Prop) (s : CursorSystem) (run : List CursorEvent) : Prop :=
  Along CursorSystem.step (fun s _ => ∀ runId, R runId → runId ∈ s.store.index) s run

/-- The positions of a run that does not wrap, by induction on the run. -/
theorem positions_pairwise {run : List CursorEvent} (h : Held name (s.stored name) base R s)
    (hbase : base ≤ (s.stored name).revision)
    (hswept : Swept R (s.stored name).afterRunId done) (hstays : Stays R s run)
    (hopen : ∀ ack ∈ accepted name s run, ack.position ≠ none) :
    ((accepted name s run).filterMap (·.position)).Pairwise (· < ·) ∧
      ∀ q ∈ (accepted name s run).filterMap (·.position), Behind (s.stored name).afterRunId q := by
  induction run generalizing s done with
  | nil => exact ⟨.nil, fun q hq => by cases hq⟩
  | cons event run ih =>
    have hnext := h.next hstays.1 event
    have hbase' := base_next h hbase event
    unfold accepted at hopen ⊢
    cases hack : acceptedBy name s event with
    | none =>
      rw [hack] at hopen
      have hstored := step_unaccepted hack
      have hrest := ih hnext hbase' (hstored.symm ▸ hswept) hstays.2 hopen
      rw [hstored] at hrest
      exact hrest
    | some ack =>
      rw [hack] at hopen
      have hack' : ack.position ≠ none := hopen ack (List.mem_append_left _ List.mem_cons_self)
      rcases swept_accepted h hbase hswept hack with ⟨hwrap, -⟩ | ⟨q, hq, hbehind, hadvanced⟩
      · exact absurd hwrap hack'
      · have hstored := (step_accepted h hack).1
        rw [hq] at hstored
        have hswept' : Swept R ((s.step event).stored name).afterRunId (done ++ ack.processed) := by
          rw [hstored]
          exact hadvanced
        obtain ⟨hsorted, hlater⟩ := ih hnext hbase' hswept' hstays.2
          fun ack hmem => hopen ack (List.mem_append_right _ hmem)
        rw [hstored] at hlater
        have hgreater : ∀ p ∈ (accepted name (s.step event) run).filterMap (·.position), q < p :=
          fun p hp => hlater p hp q rfl
        simp only [Option.toList_some, List.singleton_append, List.filterMap_cons, hq]
        refine ⟨List.pairwise_cons.2 ⟨hgreater, hsorted⟩, fun p hp => ?_⟩
        rcases List.mem_cons.1 hp with rfl | hp
        · exact hbehind
        · exact fun r hr => lt_trans (hbehind r hr) (hgreater p hp)

/-- A run that wraps once, at its end, has acknowledged everything that stayed, in order: by
induction on the run. -/
theorem cycle_acknowledged {run : List CursorEvent} (h : Held name (s.stored name) base R s)
    (hbase : base ≤ (s.stored name).revision)
    (hswept : Swept R (s.stored name).afterRunId done) (hstays : Stays R s run)
    {acks : List CursorAck} {last : CursorAck} (haccepted : accepted name s run = acks ++ [last])
    (hopen : ∀ ack ∈ acks, ack.position ≠ none) (hwrap : last.position = none) :
    (done ++ (acks ++ [last]).flatMap (·.processed)).Pairwise (· < ·) ∧
      ∀ runId, R runId → runId ∈ done ++ (acks ++ [last]).flatMap (·.processed) := by
  induction run generalizing s done acks with
  | nil =>
    have hlength := congrArg List.length haccepted
    simp [accepted] at hlength
  | cons event run ih =>
    have hnext := h.next hstays.1 event
    have hbase' := base_next h hbase event
    unfold accepted at haccepted
    cases hack : acceptedBy name s event with
    | none =>
      rw [hack] at haccepted
      exact ih hnext hbase' ((step_unaccepted hack).symm ▸ hswept) hstays.2 haccepted hopen
    | some ack =>
      rw [hack, Option.toList_some, List.singleton_append] at haccepted
      rcases swept_accepted h hbase hswept hack with ⟨hnone, hall⟩ | ⟨q, hq, -, hadvanced⟩
      · -- the wrap is the last acknowledgement of the cycle
        cases acks with
        | nil =>
          obtain ⟨rfl, -⟩ := List.cons.inj haccepted
          rw [List.nil_append, List.flatMap_singleton]
          exact hall
        | cons first acks =>
          obtain ⟨rfl, -⟩ := List.cons.inj haccepted
          exact absurd hnone (hopen ack List.mem_cons_self)
      · cases acks with
        | nil =>
          obtain ⟨rfl, -⟩ := List.cons.inj haccepted
          rw [hwrap] at hq
          cases hq
        | cons first acks =>
          obtain ⟨rfl, hrest⟩ := List.cons.inj haccepted
          have hstored := (step_accepted h hack).1
          rw [hq] at hstored
          have hswept' : Swept R ((s.step event).stored name).afterRunId
              (done ++ ack.processed) := by
            rw [hstored]
            exact hadvanced
          have hcycle := ih hnext hbase' hswept' hstays.2 hrest
            fun ack hmem => hopen ack (List.mem_cons_of_mem _ hmem)
          rw [List.append_assoc] at hcycle
          exact hcycle

end

/-! ## Cycles -/

/-- A cycle of a name begins: nothing has happened yet, or the last event wrapped the position. -/
def CycleStart (name : String) (index : Keys String) (before : List CursorEvent) : Prop :=
  before = [] ∨ ∃ run event ack, before = run ++ [event] ∧
    acceptedBy name (exec step (initial index) run) event = some ack ∧ ack.position = none

theorem held_initial (name : String) (index : Keys String) (current : CursorRow) (base : Int)
    (R : String → Prop) : Held name current base R (initial index) where
  pages i c hc := by cases hc
  tasks k call hcall := by cases hcall
  inRange k call hcall := by cases hcall

theorem held_exec (name : String) (index : Keys String) (run : List CursorEvent) :
    Held name ((exec step (initial index) run).stored name) 0 (fun _ => False)
      (exec step (initial index) run) :=
  exec_induction_of_all (I := fun s : CursorSystem => Held name (s.stored name) 0 (fun _ => False) s)
    (fun _ event h => h.next (fun _ hfalse => hfalse.elim) event) run
    (held_initial name index _ _ _)

/-- When a cycle begins, nobody holds a page of it. -/
theorem CycleStart.held {name : String} {before : List CursorEvent}
    (h : CycleStart name index before) (R : String → Prop) :
    let start := exec step (initial index) before
    Held name (start.stored name) (start.stored name).revision R start ∧
      (start.stored name).afterRunId = none := by
  rcases h with rfl | ⟨run, event, ack, rfl, hack, hwrap⟩
  · exact ⟨held_initial name index _ _ R, rfl⟩
  · have hheld := held_exec name index run
    have hstored := (step_accepted hheld hack).1
    rw [hwrap] at hstored
    rw [exec_append, exec_cons, exec_nil]
    dsimp only
    rw [hstored]
    exact ⟨(hheld.step (fun _ hfalse => hfalse.elim) event).cycle
      (Int.lt_add_one_of_le le_rfl), rfl⟩

/-- A call whose row is not the stored one any more changes neither the storage nor an instance. -/
theorem conflict_unchanged (s : CursorSystem) {k : Nat} {call : CursorCall}
    {c : SqliteRecoveryCursor}
    (hcall : s.callAt k = some (call, c)) (htask : call.task = .committing row after processed)
    (hrow : s.stored c.name ≠ row) (fails : Bool) :
    (s.step (.transact k fails)).store = s.store ∧
      (s.step (.transact k fails)).cursors = s.cursors := by
  unfold CursorSystem.step
  simp only [hcall]
  split
  · exact ⟨rfl, rfl⟩
  · rw [htask]
    unfold CursorSystem.transact
    dsimp only
    cases hcommit : commit c.name row after s.store with
    | error e => exact ⟨rfl, rfl⟩
    | ok store => exact absurd (commit_eq_ok hcommit).1 hrow

/-- **The cursor's cycle.**  From the start of a cycle of a name, whatever the instances and the index
do: the stored positions increase as long as none wraps; when the position wraps, the
acknowledged Runs of the cycle are in increasing order, and every Run that was in the index
throughout is among them exactly once; and an acknowledgement that finds another row than it read
changes nothing. -/
theorem cursor_covers_every_candidate (name : String) (index : Keys String)
    (before : List CursorEvent) (hstart : CycleStart name index before) :
    let start := exec step (initial index) before
    (∀ run, (∀ ack ∈ accepted name start run, ack.position ≠ none) →
      ((accepted name start run).filterMap (·.position)).Pairwise (· < ·)) ∧
    (∀ run acks last, accepted name start run = acks ++ [last] →
      (∀ ack ∈ acks, ack.position ≠ none) → last.position = none →
        ((acks ++ [last]).flatMap (·.processed)).Pairwise (· < ·) ∧
          ∀ runId, Along step (fun s _ => runId ∈ s.store.index) start run →
            ((acks ++ [last]).flatMap (·.processed)).count runId = 1) ∧
    ∀ run k call c row after processed fails,
      (exec step start run).callAt k = some (call, c) →
      call.task = .committing row after processed → (exec step start run).stored c.name ≠ row →
        ((exec step start run).step (.transact k fails)).store = (exec step start run).store ∧
        ((exec step start run).step (.transact k fails)).cursors = (exec step start run).cursors := by
  intro start
  have hswept : ∀ R : String → Prop, Swept R (start.stored name).afterRunId [] := by
    intro R
    rw [(hstart.held R).2]
    exact swept_nil R
  have hanything : ∀ run, Stays (fun _ => False) start run := fun run =>
    (along_of_forall (P := fun _ : CursorEvent => True) fun _ _ => trivial).mono
      fun _ _ _ _ hfalse => hfalse.elim
  refine ⟨fun run hopen => ?_, fun run acks last haccepted hopen hwrap => ⟨?_, fun runId hstays => ?_⟩,
    fun run k call c row after processed fails hcall htask hrow =>
      conflict_unchanged _ hcall htask hrow fails⟩
  · exact (positions_pairwise (hstart.held fun _ => False).1 le_rfl (hswept _) (hanything run)
      hopen).1
  · have hcycle := cycle_acknowledged (hstart.held fun _ => False).1 le_rfl (hswept _)
      (hanything run) haccepted hopen hwrap
    rw [List.nil_append] at hcycle
    exact hcycle.1
  · have hstays' : Stays (· = runId) start run :=
      hstays.mono fun s _ hmem runId' hsame => hsame ▸ hmem
    have hcycle := cycle_acknowledged (hstart.held (· = runId)).1 le_rfl (hswept _) hstays'
      haccepted hopen hwrap
    rw [List.nil_append] at hcycle
    have hnodup : ((acks ++ [last]).flatMap (·.processed)).Nodup :=
      hcycle.1.imp fun hlt => ne_of_lt hlt
    exact List.count_eq_one_of_mem hnodup (hcycle.2 runId rfl)

/-- Two Runs. -/
def pairIndex : Keys String := ⟨["a", "b"], by decide⟩

/-- A cycle of pages of one Run. -/
def pairCycle : List CursorEvent :=
  [.cursor "w" 1, .discover 0, .transact 0 false, .transact 0 false, .acknowledge 0 ["a"],
    .transact 1 false, .discover 0, .transact 2 false, .transact 2 false, .acknowledge 0 ["b"],
    .transact 3 false]

theorem cursor_covers_every_candidate_pair :
    ((accepted "w" (initial pairIndex) pairCycle).flatMap (·.processed)).count "b" = 1 := by
  have haccepted : accepted "w" (initial pairIndex) pairCycle =
      [⟨["a"], some "a"⟩] ++ [⟨["b"], none⟩] := by
    decide +kernel
  have h := (cursor_covers_every_candidate "w" pairIndex [] (.inl rfl)).2.1 pairCycle _ _ haccepted
    (by decide) rfl
  rw [haccepted]
  exact h.2 "b" (by decide +kernel)

end CursorSystem

end Purra
