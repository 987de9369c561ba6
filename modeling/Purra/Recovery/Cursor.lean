import Purra.Approvals.Session
import Purra.Lib.Sweep
import Purra.Lib.Run
import Mathlib.Data.String.Basic

/-!
# The durable recovery cursor

`SqliteRecoveryCursor` of `purra_sqlite/recovery_cursor.py` and `list_run_candidates` of
`purra_sqlite/__init__.py`.  A discovery reads the stored position in one transaction and a page of
the index in another; an acknowledgement moves the position if it is still the one that was
read.  Anything may happen in between: other instances of the same name, other workers that add
and remove Runs, a restart.

`CursorSystem` is the storage, every instance that was ever opened, and the calls that wait for their
next transaction; `CursorEvent` is one atomic thing that happens.  SQLite compares texts by their
UTF-8 bytes, which is the order of their code points.
-/

namespace Purra

open Sweep

/-- A value of `extra["recoveryCursors"]`. -/
structure CursorRow where
  revision : Int
  afterRunId : Option String
  deriving DecidableEq, Repr

/-- What `list_run_candidates` returns. -/
structure CandidatePage where
  runIds : List String
  nextAfterRunId : Option String
  deriving DecidableEq, Repr

/-- The rows of one scope that the cursor touches: the Runs of `purra_journal_runs`, by the index of
their primary key, and the stored positions. -/
structure CursorStore where
  index : Keys String
  recoveryCursors : Dict String CursorRow

/-- `SqliteRecoveryCursor`. -/
structure SqliteRecoveryCursor where
  name : String
  size : Nat
  page : Option (CursorRow × CandidatePage)

/-- A call that waits for its next transaction. -/
inductive CursorTask where
  /-- `discover` has dropped the page. -/
  | reading
  /-- `discover` has read the row. -/
  | listing (row : CursorRow)
  /-- `acknowledge` has passed its checks. -/
  | committing (row : CursorRow) (after : Option String) (processed : List String)
  /-- Returned, or raised. -/
  | ended
  deriving DecidableEq, Repr

/-- A task, and the instance it was called on. -/
structure CursorCall where
  cursor : Nat
  task : CursorTask

/-- The system. -/
structure CursorSystem where
  store : CursorStore
  cursors : List SqliteRecoveryCursor
  calls : List CursorCall

namespace SqliteRecoveryCursor

/-- `_row`. -/
def row (store : CursorStore) (name : String) : Except PyError CursorRow := do
  let row := (store.recoveryCursors.get? name).getD ⟨0, none⟩
  RecoverySchedule.checkInteger row.revision
  if row.afterRunId = some "" then .error (.valueError "invalid recovery cursor position")
  else .ok row

/-- `list_run_candidates`. -/
def listRunCandidates (index : Keys String) (afterRunId : Option String) (limit : Nat) :
    Except PyError CandidatePage :=
  if limit < 1 ∨ 1000 < limit then
    .error (.valueError "candidate page limit must be between 1 and 1000")
  else if afterRunId = some "" then
    .error (.valueError "candidate cursor must be a nonempty Run id")
  else
    let rows := (listing index afterRunId).take (limit + 1)
    let ids := rows.take limit
    if "" ∈ rows then .error (.valueError "invalid Run candidate identity")
    else .ok ⟨ids, if limit < rows.length then ids.getLast? else none⟩

/-- The position an acknowledgement moves to. -/
def positionAfter (page : CandidatePage) (processed : List String) :
    Except PyError (Option String) :=
  if processed.length = page.runIds.length ∧ page.nextAfterRunId = none then .ok none
  else match processed.getLast? with
    | some runId => .ok (some runId)
    | none => .error (.lookupError "tuple index out of range")

/-- The part of `acknowledge` before its transaction: nothing, when nothing was processed. -/
def acknowledge (cursor : SqliteRecoveryCursor) (processed : List String) :
    Except PyError (Option CursorTask) :=
  match cursor.page with
  | none => .error (.valueError "cursor page not discovered")
  | some (row, page) =>
    if page.runIds.length < processed.length ∨
        processed ≠ page.runIds.take processed.length then
      .error (.valueError "cursor acknowledgement must be a processed prefix")
    else if processed = [] ∧ (page.runIds ≠ [] ∨ row.afterRunId = none) then .ok none
    else do
      let after ← positionAfter page processed
      .ok (some (.committing row after processed))

/-- The transaction of `acknowledge`. -/
def commit (name : String) (found : CursorRow) (after : Option String) (store : CursorStore) :
    Except PyError CursorStore := do
  let stored ← row store name
  if stored ≠ found then .error (.valueError "recovery_cursor_conflict")
  else
    RecoverySchedule.checkInteger (found.revision + 1)
    .ok { store with
      recoveryCursors := store.recoveryCursors.set name ⟨found.revision + 1, after⟩ }

/-- `__init__`. -/
def new (name : String) (size : Nat) : Except PyError SqliteRecoveryCursor :=
  if strip name = "" then .error (.valueError "cursor name required")
  else if size < 1 ∨ 1000 < size then .error (.valueError "invalid cursor page size")
  else .ok ⟨name, size, none⟩

end SqliteRecoveryCursor

/-- One atomic thing that happens.  A transaction may also fail by the storage: then it is rolled
back and its call ends. -/
inductive CursorEvent where
  /-- Runs are added or removed. -/
  | reindex (index : Keys String)
  /-- An instance is made, by a worker that starts or starts again. -/
  | cursor (name : String) (size : Nat)
  | discover (cursor : Nat)
  | acknowledge (cursor : Nat) (processed : List String)
  /-- The next transaction of a call. -/
  | transact (call : Nat) (fails : Bool)

namespace CursorSystem

open SqliteRecoveryCursor

/-- Set the page of an instance. -/
def setPage (s : CursorSystem) (cursor : Nat) (page : Option (CursorRow × CandidatePage)) :
    CursorSystem :=
  { s with cursors := s.cursors.modify cursor fun c => { c with page } }

/-- Go on with a call. -/
def setTask (s : CursorSystem) (call : Nat) (task : CursorTask) : CursorSystem :=
  { s with calls := s.calls.modify call fun c => { c with task } }

/-- The next transaction of a call of an instance. -/
def transact (s : CursorSystem) (call : Nat) (cursor : Nat) (c : SqliteRecoveryCursor) :
    CursorTask → CursorSystem
  | .reading =>
    match row s.store c.name with
    | .ok row => s.setTask call (.listing row)
    | .error _ => s.setTask call .ended
  | .listing row =>
    match listRunCandidates s.store.index row.afterRunId c.size with
    | .ok page => (s.setPage cursor (some (row, page))).setTask call .ended
    | .error _ => s.setTask call .ended
  | .committing row after _ =>
    match commit c.name row after s.store with
    | .ok store => ({ s with store }.setPage cursor none).setTask call .ended
    | .error _ => s.setTask call .ended
  | .ended => s

/-- The call at an index, with its instance. -/
def callAt (s : CursorSystem) (call : Nat) : Option (CursorCall × SqliteRecoveryCursor) :=
  s.calls[call]?.bind fun found => s.cursors[found.cursor]?.map fun c => (found, c)

/-- What is left to do of an acknowledgement by an instance: nothing if it raises or is empty. -/
def acknowledgeAt (s : CursorSystem) (cursor : Nat) (processed : List String) : Option CursorTask :=
  s.cursors[cursor]?.bind fun c => (c.acknowledge processed).toOption.bind id

/-- The state after an event. -/
def step (s : CursorSystem) : CursorEvent → CursorSystem
  | .reindex index => { s with store := { s.store with index } }
  | .cursor name size =>
    match new name size with
    | .ok c => { s with cursors := s.cursors ++ [c] }
    | .error _ => s
  | .discover cursor =>
    if cursor < s.cursors.length then
      { s.setPage cursor none with calls := s.calls ++ [⟨cursor, .reading⟩] }
    else s
  | .acknowledge cursor processed =>
    match s.acknowledgeAt cursor processed with
    | some task => { s with calls := s.calls ++ [⟨cursor, task⟩] }
    | none => s
  | .transact call fails =>
    match s.callAt call with
    | none => s
    | some (found, c) =>
      if fails then s.setTask call .ended else s.transact call found.cursor c found.task

/-- A scope with some Runs, and no cursor yet. -/
def initial (index : Keys String) : CursorSystem := ⟨⟨index, .empty⟩, [], []⟩

end CursorSystem

end Purra
