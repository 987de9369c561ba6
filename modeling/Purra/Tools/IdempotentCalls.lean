import Purra.RunMemory.Batches
import Purra.Tools.Idempotency

/-!
# Calls are idempotent

What the gateway promises over every run of callers and tasks, in any order.

* `Settling` — a result is stored under a key, or its task is about to store it; no other
  operation of the key completes meanwhile.
* `calls_idempotent` — one operation completes, everyone gets its result, other arguments
  are turned away, and a failure leaves nothing behind.

A task whose Run no longer accepts its write when the operation returns stores nothing, so
that a later attempt runs the operation again: `operation_succeeds_twice`.
-/

namespace Purra.ToolGateway

open RunMemory (Host)

/-! ## Every run -/

section

variable {host : Host} {runs : RunMemory.RunState}
  {authority : Option (Nat → String → Option (String × Nat) → Except PyError Unit)}

/-- The gateway after a run of a fresh process. -/
def gatewayAfter (host : Host) (runs : RunMemory.RunState)
    (authority : Option (Nat → String → Option (String × Nat) → Except PyError Unit))
    (run : List GatewayEvent) : GatewayState :=
  exec (GatewayState.step host) { runs, authority } run

/-- The task whose operation for a key an event completes with a result. -/
def completed (key : String × String) (s : GatewayState) : GatewayEvent → Option Nat
  | .returns t (.result _) =>
    if (s.executions[t]?).any (fun execution =>
        decide (execution.key = key) && decide (execution.phase = .operating)) = true then some t
    else none
  | _ => none

/-- The Run does not accept the write of a task. -/
def Refused (host : Host) (s : GatewayState) (t : Nat) : Prop :=
  ∃ execution error, s.executions[t]? = some execution ∧
    requireWrite host s execution.lease execution.runId = .error error

/-- A result for the key is stored, or its task is about to store it. -/
def Settling (s : GatewayState) (t : Nat) (key : String × String) : Prop :=
  (∃ receipt, s.toolReceipts.get? key = some receipt) ∨
    ∃ execution result, s.executions[t]? = some execution ∧ execution.key = key ∧
      execution.phase = .storing result

theorem gatewayAfter_append (run run' : List GatewayEvent) :
    gatewayAfter host runs authority (run ++ run') =
      exec (GatewayState.step host) (gatewayAfter host runs authority run) run' :=
  exec_append _ run run'

theorem gatewayAfter_concat (run : List GatewayEvent) (event : GatewayEvent) :
    gatewayAfter host runs authority (run ++ [event]) =
      (gatewayAfter host runs authority run).step host event :=
  gatewayAfter_append run [event]

theorem sound_start : Sound { runs, authority } where
  tasks t execution h := by cases h
  inflight key entry h := by cases h
  receipts key receipt h := by cases h
  callers caller h := by cases h

theorem sound_gatewayAfter (run : List GatewayEvent) :
    Sound (gatewayAfter host runs authority run) :=
  exec_induction_of_all (fun _ event hs => hs.step event) run sound_start

theorem Grows.trans {s s' s'' : GatewayState} (h : Grows s s') (h' : Grows s' s'') :
    Grows s s'' := by
  constructor
  · intro t execution hget
    obtain ⟨execution', hget', hkey, hcall⟩ := h.tasks t execution hget
    obtain ⟨execution'', hget'', hkey', hcall'⟩ := h'.tasks t execution' hget'
    exact ⟨execution'', hget'', hkey'.trans hkey, hcall'.trans hcall⟩
  · intro key receipt hget
    exact h'.receipts key receipt (h.receipts key receipt hget)

theorem grows_exec {s : GatewayState} (hs : Sound s) (run : List GatewayEvent) :
    Grows s (exec (GatewayState.step host) s run) := by
  induction run generalizing s with
  | nil => exact Grows.refl s
  | cons event run ih => exact (hs.grows_step event).trans (ih (hs.step event))

variable {s : GatewayState} {t : Nat} {key : String × String} {event : GatewayEvent}

theorem completed_eq_some (h : completed key s event = some t) :
    ∃ result execution, event = .returns t (.result result) ∧
      s.executions[t]? = some execution ∧ execution.key = key ∧ execution.phase = .operating := by
  unfold completed at h
  cases event with
  | returns t' outcome =>
    cases outcome with
    | result result =>
      simp only [] at h
      cases hget : s.executions[t']? with
      | none =>
        rw [hget] at h
        cases h
      | some execution =>
        rw [hget, Option.any_some] at h
        by_cases hboth : execution.key = key ∧ execution.phase = .operating
        · rw [if_pos (by simp [hboth])] at h
          cases h
          exact ⟨result, execution, rfl, hget, hboth⟩
        · rw [if_neg (by simpa using hboth)] at h
          cases h
    | other => cases h
    | raised e => cases h
  | world _ _ => cases h
  | call _ _ _ => cases h
  | enter _ => cases h
  | store _ => cases h
  | leave _ => cases h
  | receive _ => cases h
  | cancel _ => cases h

/-- A result that is there, or about to be, keeps every other operation from completing. -/
theorem Settling.completed_eq_none (h : Settling s t key) (hs : Sound s) (event : GatewayEvent) :
    completed key s event = none := by
  cases hcompleted : completed key s event with
  | none => rfl
  | some t' =>
    obtain ⟨result, execution, -, hget, hkey, hphase⟩ := completed_eq_some hcompleted
    have hlive : execution.phase.live = true := by rw [hphase]; rfl
    have hnone := (hs.tasks t' execution hget).open_eq hlive fun result h => by
      rw [hphase] at h
      cases h
    rw [hkey] at hnone
    rcases h with ⟨receipt, hreceipt⟩ | ⟨other, stored, hother, hotherKey, hstoring⟩
    · rw [hnone] at hreceipt
      cases hreceipt
    · have ht := hs.live_unique hget hother (hotherKey.trans hkey.symm) hlive (by rw [hstoring]; rfl)
      rw [ht, hget] at hother
      cases hother
      rw [hphase] at hstoring
      cases hstoring

theorem settling_of_completed (h : completed key s event = some t) :
    Settling (s.step host event) t key := by
  obtain ⟨result, execution, rfl, hget, hkey, hphase⟩ := completed_eq_some h
  refine Or.inr ⟨{ execution with phase := .storing result }, result, ?_, hkey, rfl⟩
  simp only [GatewayState.step, hget, if_pos hphase, GatewayState.returned]
  rw [getElem?_setTask, hget, Option.map_some, if_pos rfl]

/-- It stays that way, unless the Run refuses the write. -/
theorem Settling.step (h : Settling s t key) (hs : Sound s) (event : GatewayEvent) :
    Settling (s.step host event) t key ∨ (event = .store t ∧ Refused host s t) := by
  rcases h with ⟨receipt, hreceipt⟩ | ⟨execution, result, hget, hkey, hphase⟩
  · exact Or.inl (Or.inl ⟨receipt, (hs.grows_step event).receipts key receipt hreceipt⟩)
  · by_cases htask : event.task? = some t
    · cases event with
      | returns t' outcome =>
        cases htask
        refine Or.inl (Or.inr ⟨execution, result, ?_, hkey, hphase⟩)
        have hne : execution.phase ≠ .operating := by
          rw [hphase]
          exact fun h => by cases h
        simp only [GatewayState.step, hget, if_neg hne]
      | leave t' =>
        cases htask
        refine Or.inl (Or.inr ⟨execution, result, ?_, hkey, hphase⟩)
        simp only [GatewayState.step, hget, hphase]
      | store t' =>
        cases htask
        cases hwrite : requireWrite host s execution.lease execution.runId with
        | error e => exact Or.inr ⟨rfl, execution, e, hget, hwrite⟩
        | ok run =>
          refine Or.inl (Or.inl ⟨(execution.call, result), ?_⟩)
          simp only [GatewayState.step, hget, hphase, GatewayState.stored, hwrite]
          rw [← hkey]
          exact Dict.get?_set_self _ _ _
      | world _ _ => cases htask
      | call _ _ _ => cases htask
      | enter _ => cases htask
      | receive _ => cases htask
      | cancel _ => cases htask
    · refine Or.inl (Or.inr ⟨execution, result, ?_, hkey, hphase⟩)
      rcases step_cases host hs event with
        hsame | ⟨hexecutions, -⟩ | ⟨c, caller, -, -, hstep⟩ | ⟨t', other, phase, htask', hadv, -⟩
      · rw [hsame]
        exact hget
      · rw [hexecutions]
        exact hget
      · rw [hstep]
        exact getElem?_entered hget
      · have ht : t' ≠ t := fun ht => htask (ht ▸ htask')
        rw [hadv.executions, getElem?_setTask, hget, Option.map_some, if_neg ht]

theorem settling_exec (hs : Sound s) (h : Settling s t key) (between : List GatewayEvent) :
    Settling (exec (GatewayState.step host) s between) t key ∨
      ∃ mid rest, between = mid ++ .store t :: rest ∧
        Refused host (exec (GatewayState.step host) s mid) t := by
  induction between generalizing s with
  | nil => exact Or.inl h
  | cons event between ih =>
    rcases h.step hs event with hsettling | ⟨rfl, hrefused⟩
    · rcases ih (hs.step event) hsettling with hend | ⟨mid, rest, hsplit, hrefused⟩
      · exact Or.inl hend
      · rw [hsplit]
        exact Or.inr ⟨event :: mid, rest, rfl, hrefused⟩
    · exact Or.inr ⟨[], between, rfl, hrefused⟩

/-- A second operation completes only after the Run has refused the result of the first. -/
theorem refused_of_completed {before between : List GatewayEvent} {event event' : GatewayEvent}
    {t' : Nat} (h : completed key (gatewayAfter host runs authority before) event = some t)
    (h' : completed key (gatewayAfter host runs authority (before ++ event :: between)) event' =
      some t') :
    ∃ mid rest, between = mid ++ .store t :: rest ∧
      Refused host (gatewayAfter host runs authority (before ++ event :: mid)) t := by
  have hs : Sound (gatewayAfter host runs authority before) := sound_gatewayAfter before
  have hfirst : Settling ((gatewayAfter host runs authority before).step host event) t key :=
    settling_of_completed h
  simp only [gatewayAfter_append, exec_cons] at h' ⊢
  rcases settling_exec (hs.step event) hfirst between with hend | hrefused
  · have hsound : Sound (exec (GatewayState.step host)
        ((gatewayAfter host runs authority before).step host event) between) :=
      exec_induction_of_all (fun _ event hs => hs.step event) between (hs.step event)
    rw [hend.completed_eq_none hsound event'] at h'
    cases h'
  · exact hrefused

/-- A result comes from an operation that completed. -/
theorem Sound.result_step {execution' : Execution} {result : ToolHandlerResult} (hs : Sound s)
    (hget : (s.step host event).executions[t]? = some execution')
    (hresult : execution'.phase.result? = some result) :
    (∃ execution, s.executions[t]? = some execution ∧ execution.key = execution'.key ∧
        execution.phase.result? = some result) ∨
      (event = .returns t (.result result) ∧ completed execution'.key s event = some t) := by
  rcases step_cases host hs event with
    hsame | ⟨hexecutions, -⟩ | ⟨c, caller, -, -, hstep⟩ | ⟨t', other, phase, -, hadv, hearned⟩
  · rw [hsame] at hget
    exact Or.inl ⟨execution', hget, rfl, hresult⟩
  · rw [hexecutions] at hget
    exact Or.inl ⟨execution', hget, rfl, hresult⟩
  · rw [hstep] at hget
    rcases executions_entered host s c caller with hkept | hadded
    · rw [hkept] at hget
      exact Or.inl ⟨execution', hget, rfl, hresult⟩
    · rw [hadded, List.getElem?_append] at hget
      by_cases hlt : t < s.executions.length
      · rw [if_pos hlt] at hget
        exact Or.inl ⟨execution', hget, rfl, hresult⟩
      · rw [if_neg hlt] at hget
        rw [List.mem_singleton.1 (List.mem_of_getElem? hget)] at hresult
        cases hresult
  · rw [hadv.executions, getElem?_setTask] at hget
    obtain ⟨execution, hat, heq⟩ := Option.map_eq_some_iff.1 hget
    by_cases ht : t' = t
    · rw [if_pos ht] at heq
      rw [← ht, hadv.task] at hat
      cases hat
      rw [← heq] at hresult ⊢
      rcases hearned result hresult with hold | ⟨hevent, hphase⟩
      · exact Or.inl ⟨other, ht ▸ hadv.task, rfl, hold⟩
      · rw [ht] at hevent
        refine Or.inr ⟨hevent, ?_⟩
        have htask : s.executions[t]? = some other := ht ▸ hadv.task
        rw [hevent]
        unfold completed
        simp only [htask, Option.any_some]
        rw [if_pos]
        simp [Execution.key, hphase]
    · rw [if_neg ht] at heq
      exact Or.inl ⟨execution, hat, by rw [heq], by rw [heq]; exact hresult⟩

theorem exists_completed {run : List GatewayEvent} {execution : Execution}
    {result : ToolHandlerResult}
    (hget : (gatewayAfter host runs authority run).executions[t]? = some execution)
    (hresult : execution.phase.result? = some result) :
    ∃ before after, run = before ++ .returns t (.result result) :: after ∧
      completed execution.key (gatewayAfter host runs authority before)
        (.returns t (.result result)) = some t := by
  induction run using List.reverseRecOn generalizing execution with
  | nil => cases hget
  | append_singleton run event ih =>
    rw [gatewayAfter_concat] at hget
    rcases (sound_gatewayAfter run).result_step hget hresult with
      ⟨old, hold, hkey, holdResult⟩ | ⟨hevent, hcompleted⟩
    · obtain ⟨before, after, hrun, hcompleted⟩ := ih hold holdResult
      refine ⟨before, after ++ [event], ?_, hkey ▸ hcompleted⟩
      rw [hrun, List.append_assoc, List.cons_append]
    · refine ⟨run, [], by rw [hevent], ?_⟩
      rw [hevent] at hcompleted
      exact hcompleted

/-- The call a key is bound to. -/
def boundCall (s : GatewayState) (key : String × String) : Option ToolCall :=
  match s.toolReceipts.get? key with
  | some receipt => some receipt.1
  | none => (s.toolInflight.get? key).map Prod.fst

variable {c : Nat} {caller : Caller}

theorem callers_setCaller {phase : CallerPhase} (hget : s.callers[c]? = some caller) :
    (s.setCaller c phase).callers[c]? = some { caller with phase } := by
  unfold GatewayState.setCaller
  rw [List.getElem?_modify, hget]
  simp

theorem step_enter (hget : s.callers[c]? = some caller) (hphase : caller.phase = .arriving) :
    s.step host (.enter c) = s.entered host c caller := by
  simp only [GatewayState.step, hget, if_pos hphase]

theorem callers_setCaller_of_ne {phase : CallerPhase} {other : Nat} (h : other ≠ c) :
    (s.setCaller c phase).callers[other]? = s.callers[other]? := by
  unfold GatewayState.setCaller
  rw [List.getElem?_modify]
  simp only [if_neg h.symm, Option.map_eq_map, Option.map_id']

/-- A caller that is cancelled is gone, unless it was answered before. -/
theorem step_cancel (host : Host) (s : GatewayState) (c : Nat) :
    s.step host (.cancel c) = s ∨ s.step host (.cancel c) = s.setCaller c .cancelled := by
  cases hget : s.callers[c]? with
  | none => exact Or.inl (by simp only [GatewayState.step, hget])
  | some caller =>
    cases hphase : caller.phase with
    | arriving => exact Or.inr (by simp only [GatewayState.step, hget, hphase])
    | waiting t => exact Or.inr (by simp only [GatewayState.step, hget, hphase])
    | answered outcome => exact Or.inl (by simp only [GatewayState.step, hget, hphase])
    | cancelled => exact Or.inl (by simp only [GatewayState.step, hget, hphase])

/-- A caller that arrives at a receipt of its call is given it. -/
theorem entered_replay {stored : ToolHandlerResult} {run : RunMemory.StoredRun}
    (hget : s.callers[c]? = some caller)
    (hwrite : requireWrite host s caller.lease caller.runId = .ok run)
    (hreceipt : s.toolReceipts.get? caller.key = some (caller.call, stored)) :
    (s.entered host c caller).callers[c]? =
      some { caller with phase := .answered (.ok (replayed stored)) } := by
  have honce : executeOnce host s caller = .ok (.replay (replayed stored)) := by
    unfold executeOnce
    rw [hwrite, ok_bind]
    simp only [hreceipt]
    rw [requireSameCall_eq_ok (u := ()).2 (rfl : caller.call = caller.call), ok_bind]
  unfold GatewayState.entered
  rw [honce]
  exact callers_setCaller hget

/-- A caller with other arguments runs nothing. -/
theorem entered_conflict (host : Host) {bound : ToolCall} (hget : s.callers[c]? = some caller)
    (hbound : boundCall s caller.key = some bound) (hne : bound ≠ caller.call) :
    ∃ e, s.entered host c caller = s.setCaller c (.answered (.error (.error e))) ∧
      (s.setCaller c (.answered (.error (.error e)))).callers[c]? =
        some { caller with phase := .answered (.error (.error e)) } := by
  cases honce : executeOnce host s caller with
  | error e =>
    refine ⟨e, ?_, callers_setCaller hget⟩
    unfold GatewayState.entered
    rw [honce]
  | ok found =>
    unfold boundCall at hbound
    rcases executeOnce_eq_ok honce with
      ⟨result, hreceipt, -⟩ | ⟨hreceipt, ⟨t, hinflight, -⟩ | ⟨hinflight, -⟩⟩
    · rw [hreceipt] at hbound
      exact absurd (Option.some.inj hbound).symm hne
    · rw [hreceipt, hinflight] at hbound
      exact absurd (Option.some.inj hbound).symm hne
    · rw [hreceipt, hinflight] at hbound
      cases hbound

/-- Where nothing is bound, an accepted caller runs its own operation. -/
theorem entered_create {run : RunMemory.StoredRun}
    (hwrite : requireWrite host s caller.lease caller.runId = .ok run)
    (hbound : boundCall s caller.key = none) :
    s.entered host c caller = (s.create caller).setCaller c (.waiting s.executions.length) := by
  unfold boundCall at hbound
  cases hreceipt : s.toolReceipts.get? caller.key with
  | some receipt =>
    rw [hreceipt] at hbound
    cases hbound
  | none =>
    rw [hreceipt] at hbound
    have hinflight : s.toolInflight.get? caller.key = none := Option.map_eq_none_iff.1 hbound
    have honce : executeOnce host s caller = .ok .create := by
      unfold executeOnce
      rw [hwrite, ok_bind]
      simp only [hreceipt, hinflight]
    unfold GatewayState.entered
    rw [honce]

/-- A task that leaves after a failure leaves nothing behind. -/
theorem Sound.boundCall_left {execution : Execution} {e : Raised} (hs : Sound s)
    (hget : s.executions[t]? = some execution) (hphase : execution.phase = .leaving (.error e)) :
    boundCall (s.step host (.leave t)) execution.key = none := by
  have hadvances := hs.advances_left hget hphase
  have hstep : s.step host (.leave t) = s.left t execution (.error e) := by
    simp only [GatewayState.step, hget, hphase]
  rw [hstep]
  unfold boundCall
  cases hreceipt : (s.left t execution (.error e)).toolReceipts.get? execution.key with
  | some receipt => exact absurd (hadvances.receipt receipt hreceipt) (fun h => by cases h)
  | none =>
    cases hinflight : (s.left t execution (.error e)).toolInflight.get? execution.key with
    | some entry => exact absurd (hadvances.registered entry hinflight).2 (fun h => by cases h)
    | none => simp

/-- **Calls are idempotent.**  In every run of the gateway, for every key: a second operation
completes only if the Run has refused the result of the first; receipts stay, and each is the result
of an operation that completed; whoever is answered with a result is answered with the receipt of
its own call; a caller that finds the receipt is given it, and one that waits is given what its task
ends with; a caller with other arguments is turned away and runs nothing; a cancelled caller takes
nobody with it; and a task that fails leaves the key unbound, so that the next caller runs its own
operation. -/
theorem calls_idempotent (host : Host) (runs : RunMemory.RunState)
    (authority : Option (Nat → String → Option (String × Nat) → Except PyError Unit)) :
    (∀ before event between event' key t t',
      completed key (gatewayAfter host runs authority before) event = some t →
      completed key (gatewayAfter host runs authority (before ++ event :: between)) event' =
        some t' →
      ∃ mid rest, between = mid ++ .store t :: rest ∧
        Refused host (gatewayAfter host runs authority (before ++ event :: mid)) t) ∧
    (∀ before between key receipt,
      (gatewayAfter host runs authority before).toolReceipts.get? key = some receipt →
      (gatewayAfter host runs authority (before ++ between)).toolReceipts.get? key =
        some receipt) ∧
    (∀ run key receipt,
      (gatewayAfter host runs authority run).toolReceipts.get? key = some receipt →
      ∃ before t after, run = before ++ .returns t (.result receipt.2) :: after ∧
        completed key (gatewayAfter host runs authority before) (.returns t (.result receipt.2)) =
          some t) ∧
    (∀ run caller result, caller ∈ (gatewayAfter host runs authority run).callers →
      caller.phase = .answered (.ok result) →
      ∃ stored, (gatewayAfter host runs authority run).toolReceipts.get? caller.key =
        some (caller.call, stored) ∧ (result = stored ∨ result = replayed stored)) ∧
    (∀ run c caller, let s := gatewayAfter host runs authority run
      s.callers[c]? = some caller → caller.phase = .arriving →
      let s' := gatewayAfter host runs authority (run ++ [.enter c])
      (∀ stored record, requireWrite host s caller.lease caller.runId = .ok record →
        s.toolReceipts.get? caller.key = some (caller.call, stored) →
        s'.callers[c]? = some { caller with phase := .answered (.ok (replayed stored)) }) ∧
      (∀ bound, boundCall s caller.key = some bound → bound ≠ caller.call →
        s'.executions = s.executions ∧ s'.toolReceipts = s.toolReceipts ∧
          s'.toolInflight = s.toolInflight ∧
          ∃ e, s'.callers[c]? = some { caller with phase := .answered (.error (.error e)) }) ∧
      (∀ record, requireWrite host s caller.lease caller.runId = .ok record →
        boundCall s caller.key = none →
        s'.executions = s.executions ++ [⟨caller.runId, caller.call, caller.lease, .operating⟩])) ∧
    (∀ run c caller t, let s := gatewayAfter host runs authority run
      s.callers[c]? = some caller → caller.phase = .waiting t →
      ∃ execution : Execution, s.executions[t]? = some execution ∧ execution.key = caller.key ∧
        execution.call = caller.call ∧ ∀ outcome, execution.phase = .done outcome →
          (gatewayAfter host runs authority (run ++ [.receive c])).callers[c]? =
            some { caller with phase := .answered outcome }) ∧
    (∀ run c, let s := gatewayAfter host runs authority run
      let s' := gatewayAfter host runs authority (run ++ [.cancel c])
      s'.executions = s.executions ∧ s'.toolReceipts = s.toolReceipts ∧
        s'.toolInflight = s.toolInflight ∧
        ∀ other : Nat, other ≠ c → s'.callers[other]? = s.callers[other]?) ∧
    ∀ run t execution e, let s := gatewayAfter host runs authority run
      s.executions[t]? = some execution → execution.phase = .leaving (.error e) →
      boundCall (gatewayAfter host runs authority (run ++ [.leave t])) execution.key = none := by
  refine ⟨fun _ _ _ _ _ _ _ h h' => refused_of_completed h h', ?_, ?_, ?_, ?_, ?_, ?_, ?_⟩
  · intro before between key receipt hget
    rw [gatewayAfter_append]
    exact (grows_exec (sound_gatewayAfter before) between).receipts key receipt hget
  · intro run key receipt hget
    obtain ⟨t, execution, hat, hkey, houtcome⟩ := (sound_gatewayAfter run).receipts key receipt hget
    obtain ⟨before, after, hrun, hcompleted⟩ :=
      exists_completed hat (TaskPhase.result?_of_outcome? houtcome)
    exact ⟨before, t, after, hrun, hkey ▸ hcompleted⟩
  · intro run caller result hcaller hphase
    have hfits := (sound_gatewayAfter run).callers caller hcaller
    unfold Caller.Fits at hfits
    simp only [hphase] at hfits
    exact hfits
  · intro run c caller s hget hphase
    simp only [gatewayAfter_concat]
    have hstep : (gatewayAfter host runs authority run).step host (.enter c) =
        (gatewayAfter host runs authority run).entered host c caller := step_enter hget hphase
    rw [hstep]
    refine ⟨fun stored record hwrite hreceipt => entered_replay hget hwrite hreceipt, ?_, ?_⟩
    · intro bound hbound hne
      obtain ⟨e, hentered, hcaller⟩ := entered_conflict host hget hbound hne
      rw [hentered]
      exact ⟨rfl, rfl, rfl, e, hcaller⟩
    · intro record hwrite hbound
      rw [entered_create hwrite hbound]
      rfl
  · intro run c caller t s hget hphase
    have hfits := (sound_gatewayAfter run).callers caller (List.mem_of_getElem? hget)
    unfold Caller.Fits at hfits
    simp only [hphase] at hfits
    obtain ⟨execution, htask, hkey, hcall⟩ := hfits
    refine ⟨execution, htask, hkey, hcall, fun outcome hdone => ?_⟩
    rw [gatewayAfter_concat]
    have hstep : (gatewayAfter host runs authority run).step host (.receive c) =
        (gatewayAfter host runs authority run).setCaller c (.answered outcome) := by
      simp only [GatewayState.step, s, hget, hphase, htask, hdone]
    rw [hstep]
    exact callers_setCaller hget
  · intro run c s s'
    have hs' : s' = s.step host (.cancel c) := gatewayAfter_concat run (.cancel c)
    rw [hs']
    rcases step_cancel host s c with hsame | hcancelled
    · rw [hsame]
      exact ⟨rfl, rfl, rfl, fun _ _ => rfl⟩
    · rw [hcancelled]
      exact ⟨rfl, rfl, rfl, fun other hother => callers_setCaller_of_ne hother⟩
  · intro run t execution e s hget hphase
    rw [gatewayAfter_concat]
    exact (sound_gatewayAfter run).boundCall_left hget hphase

end

/-! ## A lease that is lost -/

/-- A Run of a child, under a lease. -/
def leasedRuns : RunMemory.RunState where
  runs := Dict.empty.set "run" { params := { rootRunId := some "root", leaseEpoch := some 1 } }

/-- The Run tree, while an owner holds the lease at an epoch. -/
def heldBy (owner : String) (epoch : Nat) :
    Nat → String → Option (String × Nat) → Except PyError Unit := fun _ _ claim =>
  if claim = some (owner, epoch) then .ok ()
  else .error (.contractViolation "Agent Run lease is stale or expired" "agent_run_lease_lost" [])

/-- A call. -/
def writeCall : ToolCall := ⟨"call", "write", "\x7b\x7d"⟩

/-- What its operation returns. -/
def written : ToolHandlerResult := ⟨"done", false, none, .committed⟩

/-- The first owner's operation is under way when the second takes the lease. -/
def takenOver : List GatewayEvent :=
  [.call "run" writeCall (some ⟨"run", "first", 1⟩), .enter 0,
    .world leasedRuns (some (heldBy "second" 2))]

/-- Its result is refused, and the second owner calls the tool. -/
def calledAgain : List GatewayEvent :=
  [.store 0, .leave 0, .receive 0, .call "run" writeCall (some ⟨"run", "second", 2⟩), .enter 1]

/-- **Twice.**  The operation of one Run and call completes under the first owner and again under
the second. -/
theorem operation_succeeds_twice :
    completed ("run", "call")
        (gatewayAfter RunMemory.sampleHost leasedRuns (some (heldBy "first" 1)) takenOver)
        (.returns 0 (.result written)) = some 0 ∧
      completed ("run", "call")
        (gatewayAfter RunMemory.sampleHost leasedRuns (some (heldBy "first" 1))
          (takenOver ++ .returns 0 (.result written) :: calledAgain))
        (.returns 1 (.result written)) = some 1 := by
  decide +kernel

end Purra.ToolGateway
