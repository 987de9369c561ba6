import Purra.RunMemory.Records
import Purra.Approvals.Session

/-!
# One execution of a tool call

`_InMemoryToolIdempotencyGateway` (`purra/adapters/memory.py`).  Callers of `execute_once`
share one task for a Run and call: the first creates it and registers it in flight, the
others await it through a shield, and later ones get its receipt.  Everything happens
under one lock, so what interleaves are the critical sections:

* `executeOnce` — a caller finds the receipt, the task in flight, or neither.
* `stored` — the operation of a task has returned, and its receipt is written.
* `left` — a task takes itself out of flight, whatever has come of it.
* `GatewayState.step` — one event: a section, an operation that ends, a caller that
  arrives, wakes up or is cancelled, or anything that happens to the Runs meanwhile.

A key is bound to a call by the two tables, and `Sound` says what they hold: one task in
flight at most, and receipts of tasks that ended well.
-/

namespace Purra.ToolGateway

open RunMemory (Host requireRunWrite)

/-- What an operation, a task or a caller may end with instead of a result. -/
inductive Raised where
  | error (e : PyError)
  /-- `asyncio.CancelledError`. -/
  | cancelled
  deriving DecidableEq, Repr

/-- How a task ends. -/
abbrev Outcome : Type := Except Raised ToolHandlerResult

/-- What the coroutine of an operation gives back. -/
inductive Returned where
  | result (result : ToolHandlerResult)
  /-- Something that is not a `ToolHandlerResult`. -/
  | other
  | raised (e : Raised)

/-- Where a task of `_execute_and_store` stands. -/
inductive TaskPhase where
  /-- `await operation()`. -/
  | operating
  /-- The operation returned a result; the task waits for the lock to store it. -/
  | storing (result : ToolHandlerResult)
  /-- In the `finally` clause. -/
  | leaving (outcome : Outcome)
  | done (outcome : Outcome)
  deriving DecidableEq

/-- A task of `_execute_and_store`; it inherits the lease of the caller that created it. -/
structure Execution where
  runId : String
  call : ToolCall
  lease : Option RunMemory.LeaseClaim
  phase : TaskPhase := .operating

/-- Where a caller of `execute_once` stands. -/
inductive CallerPhase where
  /-- It waits for the lock. -/
  | arriving
  /-- `await asyncio.shield(task)`. -/
  | waiting (task : Nat)
  | answered (outcome : Outcome)
  /-- It was cancelled; the task is shielded. -/
  | cancelled
  deriving DecidableEq

/-- A caller of `execute_once`. -/
structure Caller where
  runId : String
  call : ToolCall
  lease : Option RunMemory.LeaseClaim
  phase : CallerPhase := .arriving

/-- `key = (run_id, tool_call.id)`. -/
def Caller.key (caller : Caller) : String × String := (caller.runId, caller.call.id)

@[inherit_doc Caller.key]
def Execution.key (execution : Execution) : String × String := (execution.runId, execution.call.id)

/-- What the gateway reads and writes of `RunState`, with the tasks and callers there are. -/
structure GatewayState where
  runs : RunMemory.RunState
  authority : Option (Nat → String → Option (String × Nat) → Except PyError Unit)
  toolReceipts : Dict (String × String) (ToolCall × ToolHandlerResult) := .empty
  toolInflight : Dict (String × String) (ToolCall × Nat) := .empty
  executions : List Execution := []
  callers : List Caller := []

/-! ## The critical sections -/

section

variable (host : Host)

/-- `_require_run_write`, in a task bound to a lease. -/
def requireWrite (s : GatewayState) (lease : Option RunMemory.LeaseClaim) (runId : String) :
    Except PyError RunMemory.StoredRun :=
  requireRunWrite host ⟨s.authority, lease⟩ 0 s.runs runId

/-- `_require_same_call`. -/
def requireSameCall (expected actual : ToolCall) : Except PyError Unit :=
  if expected ≠ actual then
    .error (.contractViolation "tool call id is already bound to different arguments"
      "contract_violation" [])
  else .ok ()

/-- What a caller is to do when it leaves the lock. -/
inductive Entered where
  | replay (result : ToolHandlerResult)
  | join (task : Nat)
  | create

/-- `replace(receipt[1], from_cache=True)`. -/
def replayed (result : ToolHandlerResult) : ToolHandlerResult := { result with fromCache := true }

/-- The critical section of `execute_once`. -/
def executeOnce (s : GatewayState) (caller : Caller) : Except PyError Entered := do
  let _ ← requireWrite host s caller.lease caller.runId
  match s.toolReceipts.get? caller.key with
  | some receipt => do
    requireSameCall receipt.1 caller.call
    .ok (.replay (replayed receipt.2))
  | none =>
    match s.toolInflight.get? caller.key with
    | some inflight => do
      requireSameCall inflight.1 caller.call
      .ok (.join inflight.2)
    | none => .ok .create

namespace GatewayState

/-- A caller moves on. -/
def setCaller (s : GatewayState) (c : Nat) (phase : CallerPhase) : GatewayState :=
  { s with callers := s.callers.modify c fun caller => { caller with phase } }

/-- A task moves on. -/
def setTask (s : GatewayState) (t : Nat) (phase : TaskPhase) : GatewayState :=
  { s with executions := s.executions.modify t fun execution => { execution with phase } }

/-- A task is created and registered in flight. -/
def create (s : GatewayState) (caller : Caller) : GatewayState :=
  { s with
    toolInflight := s.toolInflight.set caller.key (caller.call, s.executions.length)
    executions := s.executions ++ [⟨caller.runId, caller.call, caller.lease, .operating⟩] }

/-- `execute_once`, up to its `await`. -/
def entered (s : GatewayState) (c : Nat) (caller : Caller) : GatewayState :=
  match executeOnce host s caller with
  | .error e => s.setCaller c (.answered (.error (.error e)))
  | .ok (.replay result) => s.setCaller c (.answered (.ok result))
  | .ok (.join task) => s.setCaller c (.waiting task)
  | .ok .create => (s.create caller).setCaller c (.waiting s.executions.length)

/-- The operation of a task has ended. -/
def returned (s : GatewayState) (t : Nat) : Returned → GatewayState
  | .result result => s.setTask t (.storing result)
  | .other => s.setTask t (.leaving (.error (.error (.contractViolation
      "tool idempotency operation returned an invalid result" "contract_violation" []))))
  | .raised e => s.setTask t (.leaving (.error e))

/-- The critical section that stores a result. -/
def stored (s : GatewayState) (t : Nat) (execution : Execution) (result : ToolHandlerResult) :
    GatewayState :=
  match requireWrite host s execution.lease execution.runId with
  | .error e => s.setTask t (.leaving (.error (.error e)))
  | .ok _ =>
    { s.setTask t (.leaving (.ok result)) with
      toolReceipts := s.toolReceipts.set execution.key (execution.call, result) }

/-- The critical section of the `finally` clause. -/
def left (s : GatewayState) (t : Nat) (execution : Execution) (outcome : Outcome) : GatewayState :=
  { s.setTask t (.done outcome) with
    toolInflight :=
      if (s.toolInflight.get? execution.key).any (·.2 = t) = true then
        s.toolInflight.erase execution.key
      else s.toolInflight }

end GatewayState

/-! ## The system -/

/-- One event. -/
inductive GatewayEvent where
  /-- Anything happens to the Runs and to the Run tree. -/
  | world (runs : RunMemory.RunState)
      (authority : Option (Nat → String → Option (String × Nat) → Except PyError Unit))
  /-- A task bound to a lease calls `execute_once`. -/
  | call (runId : String) (call : ToolCall) (lease : Option RunMemory.LeaseClaim)
  /-- A caller gets the lock. -/
  | enter (caller : Nat)
  /-- The operation of a task ends. -/
  | returns (task : Nat) (returned : Returned)
  /-- A task gets the lock to store its result. -/
  | store (task : Nat)
  /-- A task gets the lock to leave. -/
  | leave (task : Nat)
  /-- A waiting caller wakes up. -/
  | receive (caller : Nat)
  /-- A caller is cancelled. -/
  | cancel (caller : Nat)

/-- The task an event moves. -/
def GatewayEvent.task? : GatewayEvent → Option Nat
  | .returns t _ | .store t | .leave t => some t
  | _ => none

namespace GatewayState

/-- The state after an event; an event whose party does not wait for it changes nothing. -/
def step (s : GatewayState) : GatewayEvent → GatewayState
  | .world runs authority => { s with runs, authority }
  | .call runId call lease => { s with callers := s.callers ++ [⟨runId, call, lease, .arriving⟩] }
  | .enter c =>
    match s.callers[c]? with
    | some caller => if caller.phase = .arriving then s.entered host c caller else s
    | none => s
  | .returns t outcome =>
    match s.executions[t]? with
    | some execution => if execution.phase = .operating then s.returned t outcome else s
    | none => s
  | .store t =>
    match s.executions[t]? with
    | some execution =>
      match execution.phase with
      | .storing result => s.stored host t execution result
      | _ => s
    | none => s
  | .leave t =>
    match s.executions[t]? with
    | some execution =>
      match execution.phase with
      | .leaving outcome => s.left t execution outcome
      | _ => s
    | none => s
  | .receive c =>
    match s.callers[c]? with
    | some caller =>
      match caller.phase with
      | .waiting t =>
        match s.executions[t]? with
        | some execution =>
          match execution.phase with
          | .done outcome => s.setCaller c (.answered outcome)
          | _ => s
        | none => s
      | _ => s
    | none => s
  | .cancel c =>
    match s.callers[c]? with
    | some caller =>
      match caller.phase with
      | .arriving | .waiting _ => s.setCaller c .cancelled
      | _ => s
    | none => s

end GatewayState

end

/-! ## What the tables hold -/

/-- The task is still in flight. -/
def TaskPhase.live : TaskPhase → Bool
  | .done _ => false
  | _ => true

/-- What has come of the task, once its `try` is over. -/
def TaskPhase.outcome? : TaskPhase → Option Outcome
  | .leaving outcome | .done outcome => some outcome
  | _ => none

/-- The result of the operation, once it has returned one that is not refused. -/
def TaskPhase.result? : TaskPhase → Option ToolHandlerResult
  | .storing result => some result
  | .leaving (.ok result) | .done (.ok result) => some result
  | _ => none

theorem TaskPhase.result?_of_outcome? {phase : TaskPhase} {result : ToolHandlerResult}
    (h : phase.outcome? = some (.ok result)) : phase.result? = some result := by
  cases phase with
  | operating => cases h
  | storing stored => cases h
  | leaving outcome =>
    cases h
    rfl
  | done outcome =>
    cases h
    rfl

/-- What the two tables hold under the key of a task. -/
structure TaskPhase.Fits (phase : TaskPhase) (t : Nat) (call : ToolCall)
    (inflight : Option (ToolCall × Nat)) (receipt : Option (ToolCall × ToolHandlerResult)) :
    Prop where
  inflight_eq : phase.live = true → inflight = some (call, t)
  stored : ∀ result, phase.outcome? = some (.ok result) → receipt = some (call, result)
  /-- There is no receipt as long as there may be one. -/
  open_eq : phase.live = true → (∀ result, phase.outcome? ≠ some (.ok result)) → receipt = none

/-- What a caller waits for, or was told. -/
def Caller.Fits (s : GatewayState) (caller : Caller) : Prop :=
  match caller.phase with
  | .waiting t => ∃ execution : Execution, s.executions[t]? = some execution ∧ execution.key = caller.key ∧
      execution.call = caller.call
  | .answered (.ok result) => ∃ stored,
      s.toolReceipts.get? caller.key = some (caller.call, stored) ∧
        (result = stored ∨ result = replayed stored)
  | _ => True

/-- **The invariant.**  A key has one task in flight at most, and a receipt is the result of a task
that has ended well. -/
structure Sound (s : GatewayState) : Prop where
  tasks : ∀ (t : Nat) (execution : Execution), s.executions[t]? = some execution →
    execution.phase.Fits t execution.call (s.toolInflight.get? execution.key)
      (s.toolReceipts.get? execution.key)
  inflight : ∀ key entry, s.toolInflight.get? key = some entry →
    ∃ execution : Execution, s.executions[entry.2]? = some execution ∧ execution.key = key ∧
      execution.phase.live = true
  receipts : ∀ key receipt, s.toolReceipts.get? key = some receipt →
    ∃ (t : Nat) (execution : Execution), s.executions[t]? = some execution ∧ execution.key = key ∧
      execution.phase.outcome? = some (.ok receipt.2)
  callers : ∀ caller ∈ s.callers, caller.Fits s

/-- Tasks keep their call, and receipts stay. -/
structure Grows (s s' : GatewayState) : Prop where
  tasks : ∀ (t : Nat) (execution : Execution), s.executions[t]? = some execution →
    ∃ execution' : Execution, s'.executions[t]? = some execution' ∧ execution'.key = execution.key ∧
      execution'.call = execution.call
  receipts : ∀ key receipt, s.toolReceipts.get? key = some receipt →
    s'.toolReceipts.get? key = some receipt

/-- One task moves on, and the tables change under its key only. -/
structure Advances (s s' : GatewayState) (t : Nat) (execution : Execution) (phase : TaskPhase) :
    Prop where
  task : s.executions[t]? = some execution
  live : execution.phase.live = true
  executions : s'.executions = (s.setTask t phase).executions
  callers : s'.callers = s.callers
  inflight_other : ∀ key, key ≠ execution.key →
    s'.toolInflight.get? key = s.toolInflight.get? key
  receipts_other : ∀ key, key ≠ execution.key →
    s'.toolReceipts.get? key = s.toolReceipts.get? key
  kept : ∀ receipt, s.toolReceipts.get? execution.key = some receipt →
    s'.toolReceipts.get? execution.key = some receipt
  fits : phase.Fits t execution.call (s'.toolInflight.get? execution.key)
    (s'.toolReceipts.get? execution.key)
  registered : ∀ entry, s'.toolInflight.get? execution.key = some entry →
    entry.2 = t ∧ phase.live = true
  receipt : ∀ receipt, s'.toolReceipts.get? execution.key = some receipt →
    phase.outcome? = some (.ok receipt.2)

section

variable {s s' : GatewayState} {t c : Nat} {execution : Execution} {caller : Caller}
  {phase : TaskPhase}

theorem getElem?_setTask (s : GatewayState) (t t' : Nat) (phase : TaskPhase) :
    (s.setTask t phase).executions[t']? =
      (s.executions[t']?).map fun execution =>
        if t = t' then { execution with phase } else execution := by
  unfold GatewayState.setTask
  rw [List.getElem?_modify]
  rfl

theorem mem_setCaller {phase : CallerPhase} (h : caller ∈ (s.setCaller c phase).callers) :
    caller ∈ s.callers ∨ ∃ old, s.callers[c]? = some old ∧ caller = { old with phase } := by
  obtain ⟨i, hi⟩ := List.getElem?_of_mem h
  unfold GatewayState.setCaller at hi
  rw [List.getElem?_modify, Option.map_eq_map, Option.map_eq_some_iff] at hi
  obtain ⟨old, hold, heq⟩ := hi
  by_cases hc : c = i
  · rw [if_pos hc] at heq
    rw [← hc] at hold
    exact Or.inr ⟨old, hold, heq.symm⟩
  · rw [if_neg hc] at heq
    rw [← heq]
    exact Or.inl (List.mem_of_getElem? hold)

/-- The task in flight under a key is the only one. -/
theorem Sound.live_unique (hs : Sound s) {t' : Nat} {execution' : Execution}
    (h : s.executions[t]? = some execution) (h' : s.executions[t']? = some execution')
    (hkey : execution'.key = execution.key) (hlive : execution.phase.live = true)
    (hlive' : execution'.phase.live = true) : t' = t := by
  have hin := (hs.tasks t execution h).inflight_eq hlive
  have hin' := (hs.tasks t' execution' h').inflight_eq hlive'
  rw [hkey, hin] at hin'
  exact (congrArg Prod.snd (Option.some.inj hin')).symm

theorem Caller.Fits.grows (h : caller.Fits s) (hgrows : Grows s s') : caller.Fits s' := by
  unfold Caller.Fits at h ⊢
  cases hphase : caller.phase with
  | arriving => trivial
  | cancelled => trivial
  | waiting t =>
    simp only [hphase] at h
    obtain ⟨execution, hget, hkey, hcall⟩ := h
    obtain ⟨execution', hget', hkey', hcall'⟩ := hgrows.tasks t execution hget
    exact ⟨execution', hget', hkey'.trans hkey, hcall'.trans hcall⟩
  | answered outcome =>
    simp only [hphase] at h
    cases outcome with
    | error e => trivial
    | ok result =>
      obtain ⟨stored, hget, hresult⟩ := h
      exact ⟨stored, hgrows.receipts _ _ hget, hresult⟩

theorem Grows.refl (s : GatewayState) : Grows s s :=
  ⟨fun _ execution h => ⟨execution, h, rfl, rfl⟩, fun _ _ h => h⟩

theorem Grows.of_eq (hexecutions : s'.executions = s.executions)
    (hreceipts : s'.toolReceipts = s.toolReceipts) : Grows s s' := by
  constructor
  · intro t execution h
    rw [hexecutions]
    exact ⟨execution, h, rfl, rfl⟩
  · intro key receipt h
    rw [hreceipts]
    exact h

theorem Advances.grows (h : Advances s s' t execution phase) : Grows s s' := by
  constructor
  · intro t' other hget
    rw [h.executions, getElem?_setTask, hget, Option.map_some]
    refine ⟨_, rfl, ?_⟩
    by_cases ht : t = t'
    · rw [if_pos ht]
      exact ⟨rfl, rfl⟩
    · rw [if_neg ht]
      exact ⟨rfl, rfl⟩
  · intro key receipt hget
    by_cases hkey : key = execution.key
    · rw [hkey] at hget ⊢
      exact h.kept receipt hget
    · rw [h.receipts_other key hkey]
      exact hget

/-- A step that only moves callers. -/
theorem Sound.of_callers (hs : Sound s) (hexecutions : s'.executions = s.executions)
    (hinflight : s'.toolInflight = s.toolInflight) (hreceipts : s'.toolReceipts = s.toolReceipts)
    (hcallers : ∀ caller ∈ s'.callers, caller ∈ s.callers ∨ caller.Fits s) : Sound s' := by
  constructor
  · intro t execution h
    rw [hexecutions] at h
    rw [hinflight, hreceipts]
    exact hs.tasks t execution h
  · intro key entry h
    rw [hinflight] at h
    rw [hexecutions]
    exact hs.inflight key entry h
  · intro key receipt h
    rw [hreceipts] at h
    rw [hexecutions]
    exact hs.receipts key receipt h
  · intro caller hcaller
    have hfits : caller.Fits s := by
      rcases hcallers caller hcaller with hold | hfits
      · exact hs.callers caller hold
      · exact hfits
    exact hfits.grows (Grows.of_eq hexecutions hreceipts)

/-- A step of one task. -/
theorem Sound.of_advances (hs : Sound s) (h : Advances s s' t execution phase) : Sound s' := by
  have hself : s'.executions[t]? = some { execution with phase } := by
    rw [h.executions, getElem?_setTask, h.task, Option.map_some, if_pos rfl]
  have hother : ∀ t', t' ≠ t → s'.executions[t']? = s.executions[t']? := by
    intro t' ht
    rw [h.executions, getElem?_setTask]
    simp only [if_neg ht.symm, Option.map_id']
  constructor
  · intro t' other hget
    by_cases ht : t' = t
    · rw [ht, hself] at hget
      cases hget
      rw [ht]
      exact h.fits
    · rw [hother t' ht] at hget
      have hfits := hs.tasks t' other hget
      by_cases hkey : other.key = execution.key
      · -- of two tasks with one key the other has ended
        have hended : ¬ other.phase.live = true := fun hlive =>
          ht (hs.live_unique h.task hget hkey h.live hlive)
        refine ⟨fun hlive => absurd hlive hended, fun result hresult => ?_,
          fun hlive => absurd hlive hended⟩
        have hstored := hfits.stored result hresult
        rw [hkey] at hstored ⊢
        exact h.kept _ hstored
      · rw [h.inflight_other _ hkey, h.receipts_other _ hkey]
        exact hfits
  · intro key entry hget
    by_cases hkey : key = execution.key
    · rw [hkey] at hget ⊢
      obtain ⟨ht, hlive⟩ := h.registered entry hget
      rw [ht]
      exact ⟨_, hself, rfl, hlive⟩
    · rw [h.inflight_other key hkey] at hget
      obtain ⟨other, hat, hotherKey, hlive⟩ := hs.inflight key entry hget
      have ht : entry.2 ≠ t := by
        intro ht
        rw [ht, h.task] at hat
        cases hat
        exact hkey hotherKey.symm
      exact ⟨other, (hother _ ht).trans hat, hotherKey, hlive⟩
  · intro key receipt hget
    by_cases hkey : key = execution.key
    · rw [hkey] at hget ⊢
      exact ⟨t, _, hself, rfl, h.receipt receipt hget⟩
    · rw [h.receipts_other key hkey] at hget
      obtain ⟨t', other, hat, hotherKey, houtcome⟩ := hs.receipts key receipt hget
      have ht : t' ≠ t := by
        intro ht
        rw [ht, h.task] at hat
        cases hat
        exact hkey hotherKey.symm
      exact ⟨t', other, (hother _ ht).trans hat, hotherKey, houtcome⟩
  · intro caller hcaller
    rw [h.callers] at hcaller
    exact (hs.callers caller hcaller).grows h.grows

/-- A task that has no result yet goes on without one. -/
theorem Sound.advances_setTask (hs : Sound s) (hget : s.executions[t]? = some execution)
    (hlive : execution.phase.live = true) (hopen : execution.phase.outcome? = none)
    (hphase : phase.live = true) (hresult : ∀ result, phase.outcome? ≠ some (.ok result)) :
    Advances s (s.setTask t phase) t execution phase := by
  have hfits := hs.tasks t execution hget
  have hin := hfits.inflight_eq hlive
  have hnone := hfits.open_eq hlive fun result h => by
    rw [hopen] at h
    cases h
  refine ⟨hget, hlive, rfl, rfl, fun _ _ => rfl, fun _ _ => rfl, fun _ h => h,
    ⟨fun _ => hin, fun result h => absurd h (hresult result), fun _ _ => hnone⟩, ?_, ?_⟩
  · intro entry hentry
    have hsame : s.toolInflight.get? execution.key = some entry := hentry
    rw [hin] at hsame
    cases hsame
    exact ⟨rfl, hphase⟩
  · intro receipt hreceipt
    have hsome : s.toolReceipts.get? execution.key = some receipt := hreceipt
    rw [hnone] at hsome
    cases hsome

/-- A result is stored. -/
theorem Sound.advances_stored (hs : Sound s) (hget : s.executions[t]? = some execution)
    {result : ToolHandlerResult} (hphase : execution.phase = .storing result) :
    Advances s { s.setTask t (.leaving (.ok result)) with
      toolReceipts := s.toolReceipts.set execution.key (execution.call, result) } t execution
      (.leaving (.ok result)) := by
  have hlive : execution.phase.live = true := by rw [hphase]; rfl
  have hfits := hs.tasks t execution hget
  have hin := hfits.inflight_eq hlive
  have hnone := hfits.open_eq hlive fun result h => by
    rw [hphase] at h
    cases h
  have hset : (s.toolReceipts.set execution.key (execution.call, result)).get? execution.key =
      some (execution.call, result) := Dict.get?_set_self _ _ _
  refine ⟨hget, hlive, rfl, rfl, fun _ _ => rfl, fun key hkey => Dict.get?_set_of_ne hkey, ?_,
    ⟨fun _ => hin, ?_, fun _ h => absurd rfl (h result)⟩, ?_, ?_⟩
  · intro receipt hreceipt
    rw [hnone] at hreceipt
    cases hreceipt
  · intro result' hresult
    cases hresult
    exact hset
  · intro entry hentry
    have hsame : s.toolInflight.get? execution.key = some entry := hentry
    rw [hin] at hsame
    cases hsame
    exact ⟨rfl, rfl⟩
  · intro receipt hreceipt
    have hsame := hset.symm.trans hreceipt
    cases hsame
    rfl

/-- A task leaves. -/
theorem Sound.advances_left (hs : Sound s) (hget : s.executions[t]? = some execution)
    {outcome : Outcome} (hphase : execution.phase = .leaving outcome) :
    Advances s (s.left t execution outcome) t execution (.done outcome) := by
  have hlive : execution.phase.live = true := by rw [hphase]; rfl
  have hfits := hs.tasks t execution hget
  have hin := hfits.inflight_eq hlive
  have herased : (s.left t execution outcome).toolInflight =
      s.toolInflight.erase execution.key := by
    unfold GatewayState.left
    rw [hin]
    exact if_pos (by simp)
  refine ⟨hget, hlive, rfl, rfl, fun key hkey => ?_, fun _ _ => rfl, fun _ h => h, ⟨?_, ?_, ?_⟩,
    ?_, ?_⟩
  · rw [herased, Dict.get?_erase_of_ne hkey]
  · intro h
    cases h
  · intro result hresult
    cases hresult
    exact hfits.stored result (by rw [hphase]; rfl)
  · intro h
    cases h
  · intro entry hentry
    rw [herased, Dict.get?_erase_self] at hentry
    cases hentry
  · intro receipt hreceipt
    have hsome : s.toolReceipts.get? execution.key = some receipt := hreceipt
    cases outcome with
    | ok result =>
      have hstored := hfits.stored result (by rw [hphase]; rfl)
      rw [hstored] at hsome
      cases hsome
      rfl
    | error e =>
      have hnone := hfits.open_eq hlive fun result h => by
        rw [hphase] at h
        cases h
      rw [hnone] at hsome
      cases hsome

end

/-! ## One step -/

section

variable {host : Host} {s : GatewayState} {t c : Nat} {execution : Execution} {caller : Caller}

theorem grows_create (s : GatewayState) (caller : Caller) : Grows s (s.create caller) := by
  refine ⟨fun t execution h => ⟨execution, ?_, rfl, rfl⟩, fun _ _ h => h⟩
  show (s.executions ++ _)[t]? = some execution
  rw [List.getElem?_append_left (List.getElem?_eq_some_iff.1 h).1]
  exact h

/-- A task is created where nothing is in flight and nothing is stored. -/
theorem Sound.create (hs : Sound s) (hreceipt : s.toolReceipts.get? caller.key = none)
    (hinflight : s.toolInflight.get? caller.key = none) : Sound (s.create caller) := by
  have hlast : (s.create caller).executions[s.executions.length]? =
      some ⟨caller.runId, caller.call, caller.lease, .operating⟩ := by
    show (s.executions ++ _)[s.executions.length]? = _
    rw [List.getElem?_append_right (le_refl _), Nat.sub_self, List.getElem?_cons_zero]
  have hold : ∀ {t : Nat}, t ≠ s.executions.length →
      (s.create caller).executions[t]? = s.executions[t]? := by
    intro t ht
    show (s.executions ++ _)[t]? = _
    rcases Nat.lt_or_ge t s.executions.length with hlt | hge
    · exact List.getElem?_append_left hlt
    · rw [List.getElem?_append_right hge, List.getElem?_eq_none hge]
      exact List.getElem?_eq_none (by rw [List.length_singleton]; omega)
  have hregistered : (s.create caller).toolInflight.get? caller.key =
      some (caller.call, s.executions.length) := Dict.get?_set_self _ _ _
  have hothers : ∀ {key}, key ≠ caller.key →
      (s.create caller).toolInflight.get? key = s.toolInflight.get? key :=
    fun hkey => Dict.get?_set_of_ne hkey
  constructor
  · intro t execution hget
    by_cases ht : t = s.executions.length
    · rw [ht, hlast] at hget
      cases hget
      rw [ht]
      refine ⟨fun _ => hregistered, fun result h => ?_, fun _ _ => hreceipt⟩
      cases h
    · rw [hold ht] at hget
      have hfits := hs.tasks t execution hget
      by_cases hkey : execution.key = caller.key
      · have hended : ¬ execution.phase.live = true := by
          intro hlive
          have hin := hfits.inflight_eq hlive
          rw [hkey, hinflight] at hin
          cases hin
        exact ⟨fun hlive => absurd hlive hended, hfits.stored, fun hlive => absurd hlive hended⟩
      · rw [hothers hkey]
        exact hfits
  · intro key entry hget
    by_cases hkey : key = caller.key
    · rw [hkey, hregistered] at hget
      cases hget
      exact ⟨_, hlast, hkey.symm, rfl⟩
    · rw [hothers hkey] at hget
      obtain ⟨execution, hat, hsame, hlive⟩ := hs.inflight key entry hget
      have ht : entry.2 ≠ s.executions.length :=
        (List.getElem?_eq_some_iff.1 hat).1.ne
      exact ⟨execution, (hold ht).trans hat, hsame, hlive⟩
  · intro key receipt hget
    obtain ⟨t, execution, hat, hsame, houtcome⟩ := hs.receipts key receipt hget
    exact ⟨t, execution, (hold (List.getElem?_eq_some_iff.1 hat).1.ne).trans hat, hsame, houtcome⟩
  · intro other hother
    exact (hs.callers other hother).grows (grows_create s caller)

/-- A caller that moves on to a phase that fits. -/
theorem Sound.setCaller {phase : CallerPhase} (hs : Sound s) (hget : s.callers[c]? = some caller)
    (hfits : Caller.Fits s { caller with phase }) : Sound (s.setCaller c phase) := by
  refine hs.of_callers rfl rfl rfl fun other hother => ?_
  rcases mem_setCaller hother with hold | ⟨old, hold, heq⟩
  · exact Or.inl hold
  · rw [hget] at hold
    cases hold
    rw [heq]
    exact Or.inr hfits

theorem requireSameCall_eq_ok {expected actual : ToolCall} {u : Unit} :
    requireSameCall expected actual = .ok u ↔ expected = actual := by
  unfold requireSameCall
  by_cases h : expected = actual
  · simp [h]
  · simp [h]

/-- What a caller finds. -/
theorem executeOnce_eq_ok {found : Entered} (h : executeOnce host s caller = .ok found) :
    (∃ result, s.toolReceipts.get? caller.key = some (caller.call, result) ∧
        found = .replay (replayed result)) ∨
      s.toolReceipts.get? caller.key = none ∧
        ((∃ t, s.toolInflight.get? caller.key = some (caller.call, t) ∧ found = .join t) ∨
          s.toolInflight.get? caller.key = none ∧ found = .create) := by
  obtain ⟨_, -, h⟩ := bind_eq_ok h
  cases hreceipt : s.toolReceipts.get? caller.key with
  | some receipt =>
    simp only [hreceipt] at h
    obtain ⟨_, hsame, h⟩ := bind_eq_ok h
    cases h
    rw [← requireSameCall_eq_ok.1 hsame]
    exact Or.inl ⟨receipt.2, rfl, rfl⟩
  | none =>
    simp only [hreceipt] at h
    refine Or.inr ⟨rfl, ?_⟩
    cases hinflight : s.toolInflight.get? caller.key with
    | some inflight =>
      simp only [hinflight] at h
      obtain ⟨_, hsame, h⟩ := bind_eq_ok h
      cases h
      rw [← requireSameCall_eq_ok.1 hsame]
      exact Or.inl ⟨inflight.2, rfl, rfl⟩
    | none =>
      simp only [hinflight] at h
      cases h
      exact Or.inr ⟨rfl, rfl⟩

/-- Entering adds a task at most. -/
theorem executions_entered (host : Host) (s : GatewayState) (c : Nat) (caller : Caller) :
    (s.entered host c caller).executions = s.executions ∨
      (s.entered host c caller).executions =
        s.executions ++ [⟨caller.runId, caller.call, caller.lease, .operating⟩] := by
  unfold GatewayState.entered
  cases executeOnce host s caller with
  | error e => exact Or.inl rfl
  | ok found =>
    cases found with
    | replay result => exact Or.inl rfl
    | join task => exact Or.inl rfl
    | create => exact Or.inr rfl

theorem getElem?_entered (hget : s.executions[t]? = some execution) :
    (s.entered host c caller).executions[t]? = some execution := by
  rcases executions_entered host s c caller with hsame | hadded
  · rw [hsame]
    exact hget
  · rw [hadded, List.getElem?_append_left (List.getElem?_eq_some_iff.1 hget).1]
    exact hget

theorem grows_entered (s : GatewayState) (c : Nat) (caller : Caller) :
    Grows s (s.entered host c caller) := by
  unfold GatewayState.entered
  cases executeOnce host s caller with
  | error e => exact .of_eq rfl rfl
  | ok found =>
    cases found with
    | replay result => exact .of_eq rfl rfl
    | join task => exact .of_eq rfl rfl
    | create => exact ⟨(grows_create s caller).tasks, (grows_create s caller).receipts⟩

theorem Sound.entered (hs : Sound s) (hget : s.callers[c]? = some caller) :
    Sound (s.entered host c caller) := by
  unfold GatewayState.entered
  cases honce : executeOnce host s caller with
  | error e => exact hs.setCaller hget trivial
  | ok found =>
    rcases executeOnce_eq_ok honce with
      ⟨result, hreceipt, rfl⟩ | ⟨hreceipt, ⟨t, hinflight, rfl⟩ | ⟨hinflight, rfl⟩⟩
    · exact hs.setCaller hget ⟨result, hreceipt, Or.inr rfl⟩
    · obtain ⟨execution, hat, hkey, hlive⟩ := hs.inflight _ _ hinflight
      have hcall := (hs.tasks t execution hat).inflight_eq hlive
      rw [hkey, hinflight] at hcall
      exact hs.setCaller hget
        ⟨execution, hat, hkey, (congrArg Prod.fst (Option.some.inj hcall)).symm⟩
    · have hcreated := hs.create hreceipt hinflight
      refine hcreated.setCaller hget
        ⟨⟨caller.runId, caller.call, caller.lease, .operating⟩, ?_, rfl, rfl⟩
      show (s.executions ++ [_])[s.executions.length]? = some _
      rw [List.getElem?_append_right (le_refl _), Nat.sub_self, List.getElem?_cons_zero]

theorem Sound.returned (hs : Sound s) (hget : s.executions[t]? = some execution)
    (hphase : execution.phase = .operating) (outcome : Returned) :
    ∃ phase, Advances s (s.returned t outcome) t execution phase ∧
      ∀ result, phase.result? = some result → outcome = .result result := by
  have hlive : execution.phase.live = true := by rw [hphase]; rfl
  have hopen : execution.phase.outcome? = none := by rw [hphase]; rfl
  cases outcome with
  | result result =>
    refine ⟨_, hs.advances_setTask hget hlive hopen rfl (fun result h => by cases h), ?_⟩
    intro result' h
    cases h
    rfl
  | other =>
    exact ⟨_, hs.advances_setTask hget hlive hopen rfl (fun result h => by cases h),
      fun result h => by cases h⟩
  | raised e =>
    exact ⟨_, hs.advances_setTask hget hlive hopen rfl (fun result h => by cases h),
      fun result h => by cases h⟩

theorem Sound.stored (hs : Sound s) (host : Host) (hget : s.executions[t]? = some execution)
    {result : ToolHandlerResult} (hphase : execution.phase = .storing result) :
    ∃ phase, Advances s (s.stored host t execution result) t execution phase ∧
      ∀ result, phase.result? = some result → execution.phase.result? = some result := by
  unfold GatewayState.stored
  cases requireWrite host s execution.lease execution.runId with
  | error e =>
    have hlive : execution.phase.live = true := by rw [hphase]; rfl
    have hopen : execution.phase.outcome? = none := by rw [hphase]; rfl
    exact ⟨_, hs.advances_setTask hget hlive hopen rfl (fun result h => by cases h),
      fun result h => by cases h⟩
  | ok run =>
    refine ⟨_, hs.advances_stored hget hphase, fun result' h => ?_⟩
    rw [hphase]
    exact h

/-- A caller is told what has come of its task. -/
theorem Sound.fits_answered (hs : Sound s) {outcome : Outcome} (hget : s.callers[c]? = some caller)
    (hphase : caller.phase = .waiting t) (htask : s.executions[t]? = some execution)
    (hdone : execution.phase = .done outcome) :
    Caller.Fits s { caller with phase := .answered outcome } := by
  have hwaits := hs.callers caller (List.mem_of_getElem? hget)
  unfold Caller.Fits at hwaits
  simp only [hphase] at hwaits
  obtain ⟨other, hat, hkey, hcall⟩ := hwaits
  rw [htask] at hat
  cases hat
  cases outcome with
  | error e => trivial
  | ok result =>
    have hstored := (hs.tasks t execution htask).stored result (by rw [hdone]; rfl)
    rw [hkey, hcall] at hstored
    exact ⟨result, hstored, Or.inl rfl⟩

/-- **What one event can do**: move callers, create a task, or move one task on. -/
theorem step_cases (host : Host) (hs : Sound s) (event : GatewayEvent) :
    s.step host event = s ∨
      ((s.step host event).executions = s.executions ∧
        (s.step host event).toolInflight = s.toolInflight ∧
        (s.step host event).toolReceipts = s.toolReceipts ∧
        ∀ caller ∈ (s.step host event).callers, caller ∈ s.callers ∨ caller.Fits s) ∨
      (∃ c caller, event = .enter c ∧ s.callers[c]? = some caller ∧
        s.step host event = s.entered host c caller) ∨
      ∃ t execution phase, event.task? = some t ∧
        Advances s (s.step host event) t execution phase ∧
        ∀ result, phase.result? = some result → execution.phase.result? = some result ∨
          (event = .returns t (.result result) ∧ execution.phase = .operating) := by
  cases event with
  | world runs authority => exact Or.inr (Or.inl ⟨rfl, rfl, rfl, fun caller h => Or.inl h⟩)
  | call runId call lease =>
    refine Or.inr (Or.inl ⟨rfl, rfl, rfl, fun caller h => ?_⟩)
    rcases List.mem_append.1 h with h | h
    · exact Or.inl h
    · rw [List.mem_singleton.1 h]
      exact Or.inr trivial
  | enter c =>
    cases hget : s.callers[c]? with
    | none => exact Or.inl (by simp only [GatewayState.step, hget])
    | some caller =>
      by_cases hphase : caller.phase = .arriving
      · exact Or.inr (Or.inr (Or.inl ⟨c, caller, rfl, hget,
          by simp only [GatewayState.step, hget, if_pos hphase]⟩))
      · exact Or.inl (by simp only [GatewayState.step, hget, if_neg hphase])
  | returns t outcome =>
    cases hget : s.executions[t]? with
    | none => exact Or.inl (by simp only [GatewayState.step, hget])
    | some execution =>
      by_cases hphase : execution.phase = .operating
      · simp only [GatewayState.step, hget, if_pos hphase]
        obtain ⟨phase, hadvances, hresult⟩ := hs.returned hget hphase outcome
        refine Or.inr (Or.inr (Or.inr ⟨t, execution, phase, rfl, hadvances, fun result h => ?_⟩))
        rw [hresult result h]
        exact Or.inr ⟨rfl, hphase⟩
      · exact Or.inl (by simp only [GatewayState.step, hget, if_neg hphase])
  | store t =>
    cases hget : s.executions[t]? with
    | none => exact Or.inl (by simp only [GatewayState.step, hget])
    | some execution =>
      cases hphase : execution.phase with
      | storing result =>
        simp only [GatewayState.step, hget, hphase]
        obtain ⟨phase, hadvances, hresult⟩ := hs.stored host hget hphase
        exact Or.inr (Or.inr (Or.inr ⟨t, execution, phase, rfl, hadvances,
          fun result h => Or.inl (hresult result h)⟩))
      | operating => exact Or.inl (by simp only [GatewayState.step, hget, hphase])
      | leaving outcome => exact Or.inl (by simp only [GatewayState.step, hget, hphase])
      | done outcome => exact Or.inl (by simp only [GatewayState.step, hget, hphase])
  | leave t =>
    cases hget : s.executions[t]? with
    | none => exact Or.inl (by simp only [GatewayState.step, hget])
    | some execution =>
      cases hphase : execution.phase with
      | leaving outcome =>
        simp only [GatewayState.step, hget, hphase]
        refine Or.inr (Or.inr (Or.inr ⟨t, execution, _, rfl, hs.advances_left hget hphase,
          fun result h => Or.inl ?_⟩))
        rw [hphase]
        cases outcome <;> exact h
      | operating => exact Or.inl (by simp only [GatewayState.step, hget, hphase])
      | storing result => exact Or.inl (by simp only [GatewayState.step, hget, hphase])
      | done outcome => exact Or.inl (by simp only [GatewayState.step, hget, hphase])
  | receive c =>
    cases hget : s.callers[c]? with
    | none => exact Or.inl (by simp only [GatewayState.step, hget])
    | some caller =>
      cases hphase : caller.phase with
      | waiting t =>
        cases htask : s.executions[t]? with
        | none => exact Or.inl (by simp only [GatewayState.step, hget, hphase, htask])
        | some execution =>
          cases hdone : execution.phase with
          | done outcome =>
            simp only [GatewayState.step, hget, hphase, htask, hdone]
            refine Or.inr (Or.inl ⟨rfl, rfl, rfl, fun other hother => ?_⟩)
            rcases mem_setCaller hother with hold | ⟨old, hold, heq⟩
            · exact Or.inl hold
            · rw [hget] at hold
              cases hold
              rw [heq]
              exact Or.inr (hs.fits_answered hget hphase htask hdone)
          | operating => exact Or.inl (by simp only [GatewayState.step, hget, hphase, htask, hdone])
          | storing result =>
            exact Or.inl (by simp only [GatewayState.step, hget, hphase, htask, hdone])
          | leaving outcome =>
            exact Or.inl (by simp only [GatewayState.step, hget, hphase, htask, hdone])
      | arriving => exact Or.inl (by simp only [GatewayState.step, hget, hphase])
      | answered outcome => exact Or.inl (by simp only [GatewayState.step, hget, hphase])
      | cancelled => exact Or.inl (by simp only [GatewayState.step, hget, hphase])
  | cancel c =>
    have hcancelled : ∀ caller ∈ (s.setCaller c .cancelled).callers,
        caller ∈ s.callers ∨ caller.Fits s := by
      intro other hother
      rcases mem_setCaller hother with hold | ⟨old, -, heq⟩
      · exact Or.inl hold
      · rw [heq]
        exact Or.inr trivial
    cases hget : s.callers[c]? with
    | none => exact Or.inl (by simp only [GatewayState.step, hget])
    | some caller =>
      cases hphase : caller.phase with
      | arriving =>
        simp only [GatewayState.step, hget, hphase]
        exact Or.inr (Or.inl ⟨rfl, rfl, rfl, hcancelled⟩)
      | waiting t =>
        simp only [GatewayState.step, hget, hphase]
        exact Or.inr (Or.inl ⟨rfl, rfl, rfl, hcancelled⟩)
      | answered outcome => exact Or.inl (by simp only [GatewayState.step, hget, hphase])
      | cancelled => exact Or.inl (by simp only [GatewayState.step, hget, hphase])

theorem Sound.step (hs : Sound s) (event : GatewayEvent) : Sound (s.step host event) := by
  rcases step_cases host hs event with
    hsame | ⟨hexecutions, hinflight, hreceipts, hcallers⟩ | ⟨c, caller, -, hget, hstep⟩ |
      ⟨t, execution, phase, -, hadvances, -⟩
  · rw [hsame]
    exact hs
  · exact hs.of_callers hexecutions hinflight hreceipts hcallers
  · rw [hstep]
    exact hs.entered hget
  · exact hs.of_advances hadvances

theorem Sound.grows_step (hs : Sound s) (event : GatewayEvent) : Grows s (s.step host event) := by
  rcases step_cases host hs event with
    hsame | ⟨hexecutions, hinflight, hreceipts, hcallers⟩ | ⟨c, caller, -, hget, hstep⟩ |
      ⟨t, execution, phase, -, hadvances, -⟩
  · rw [hsame]
    exact Grows.refl s
  · exact Grows.of_eq hexecutions hreceipts
  · rw [hstep]
    exact grows_entered s c caller
  · exact hadvances.grows

end

end Purra.ToolGateway
