import Purra.Lib.Run
import Mathlib.Data.List.Induction

/-!
# Progress of a tool batch

`stream_tool_batch` (`purra/runtime/tool_round.py`) runs a gateway as a task of its own and
yields what it emits.  Between the two stands a queue, and before the queue a second task
that waits for one item, so that the generator can wait for an item, the gateway and a
cancellation at once.

* `BatchState` — the three tasks: what is in the queue, what the reader holds, how the
  gateway ended, and where the generator is suspended.
* `BatchState.proceed` — the generator, from one suspension to the next.
* `BatchState.step` — one event, of any task or from outside.

The final drain takes what the reader holds and then empties the queue, but a reader that
is still pending is not withdrawn first: while the consumer is suspended at an event of the
drain, it may take the next one, which nobody yields any more.  `progress_delivered` says
that nothing else is ever lost: progress is delivered completely and in order exactly when
no reader takes an item during the drain.
-/

namespace Purra.ToolBatch

variable {α ρ χ : Type}

/-! ## The tasks -/

/-- How the task of the gateway ends. -/
inductive GatewayOutcome (ρ χ : Type) where
  | result (result : ρ)
  /-- It returns `None`. -/
  | nothing
  | raised (error : χ)
  /-- It raises `CancelledError`. -/
  | cancelled
  deriving DecidableEq

/-- How `stream_tool_batch` ends. -/
inductive Terminal (ρ χ : Type) where
  /-- `yield terminal_result`. -/
  | result (result : ρ)
  | raised (error : χ)
  /-- `RuntimeError("tool gateway returned no result")`. -/
  | noResult
  /-- `OperationCanceled("agent run was canceled")`. -/
  | operationCanceled
  /-- `CancelledError`. -/
  | cancelled
  deriving DecidableEq

/-- The task that runs `queue.get()`. -/
inductive Reader (α : Type) where
  /-- Created, or woken by an item: it runs when the loop gets to it. -/
  | ready
  /-- It found the queue empty. -/
  | waiting
  | finished (event : α)
  /-- `progress_task = None`. -/
  | gone
  deriving DecidableEq

/-- What asked for the cancellation of the gateway. -/
inductive CancelSource where
  | signal | caller
  deriving DecidableEq

/-- What the reader holds. -/
def Reader.item : Reader α → List α
  | .finished event => [event]
  | _ => []

/-- What is raised when a cancelled gateway returned no result. -/
def CancelSource.terminal : CancelSource → Terminal ρ χ
  | .signal => .operationCanceled
  | .caller => .cancelled

/-- What the loop makes of the outcome of the gateway. -/
def GatewayOutcome.terminal : GatewayOutcome ρ χ → Terminal ρ χ
  | .result value => .result value
  | .nothing => .noResult
  | .raised error => .raised error
  | .cancelled => .cancelled

/-- Where the generator is suspended. -/
inductive Suspension (ρ χ : Type) where
  /-- `await asyncio.wait(waiters)`. -/
  | waiting
  /-- At an event of the reader, in the loop. -/
  | progress
  /-- At an event of the final drain, which ends like this. -/
  | draining (terminal : Terminal ρ χ)
  /-- `await asyncio.shield(task)`, in `_cancel_gateway_for_result`. -/
  | cancelling (source : CancelSource)
  | ended (terminal : Terminal ρ χ)
  deriving DecidableEq

/-- The three tasks of a batch, with what was emitted and what was yielded so far. -/
structure BatchState (α ρ χ : Type) where
  queue : List α := []
  reader : Reader α := .ready
  gateway : Option (GatewayOutcome ρ χ) := none
  /-- The signal is set. -/
  canceled : Bool := false
  suspension : Suspension ρ χ := .waiting
  emitted : List α := []
  yielded : List α := []
  deriving DecidableEq

namespace BatchState

/-! ## The generator -/

/-- `yield event`, or another suspension. -/
def yieldAt (s : BatchState α ρ χ) (event : α) (suspension : Suspension ρ χ) : BatchState α ρ χ :=
  { s with yielded := s.yielded ++ [event], suspension }

/-- `while not queue.empty(): yield queue.get_nowait()`, and the end. -/
def drainQueue (s : BatchState α ρ χ) (terminal : Terminal ρ χ) : BatchState α ρ χ :=
  match s.queue with
  | event :: rest => { s with queue := rest }.yieldAt event (.draining terminal)
  | [] => { s with suspension := .ended terminal }

/-- The final drain: first what the reader holds. -/
def drain (s : BatchState α ρ χ) (terminal : Terminal ρ χ) : BatchState α ρ χ :=
  match s.reader with
  | .finished event => { s with reader := .gone }.yieldAt event (.draining terminal)
  | _ => s.drainQueue terminal

/-- A cancelled gateway has ended: its result is kept, and nothing else is. -/
def settleCancel (s : BatchState α ρ χ) (source : CancelSource) :
    GatewayOutcome ρ χ → BatchState α ρ χ
  | .result result => s.drain (.result result)
  | _ => { s with suspension := .ended source.terminal }

/-- `_cancel_gateway_for_result`, which does not wait for a task that has ended. -/
def cancelGateway (s : BatchState α ρ χ) (source : CancelSource) : BatchState α ρ χ :=
  match s.gateway with
  | some outcome => s.settleCancel source outcome
  | none => { s with suspension := .cancelling source }

/-- `while True`, up to the next suspension. -/
def loop (s : BatchState α ρ χ) : BatchState α ρ χ :=
  match s.gateway with
  | some outcome => s.drain outcome.terminal
  | none =>
    match s.reader with
    | .finished event => s.yieldAt event .progress
    | _ => if s.canceled then s.cancelGateway .signal else { s with suspension := .waiting }

/-- The generator goes on. -/
def proceed (s : BatchState α ρ χ) : BatchState α ρ χ :=
  match s.suspension with
  | .waiting => s.loop
  | .progress => { s with reader := .ready }.loop
  | .draining terminal => s.drainQueue terminal
  | .cancelling source =>
    match s.gateway with
    | some outcome => s.settleCancel source outcome
    | none => s
  | .ended _ => s

/-- `CancelledError` is raised in the generator; only an `await` can be met by it. -/
def interrupt (s : BatchState α ρ χ) : BatchState α ρ χ :=
  match s.suspension with
  | .waiting => s.cancelGateway .caller
  | .cancelling source =>
    match s.gateway with
    | none => s
    | some (.raised error) => { s with suspension := .ended (.raised error) }
    | some outcome => s.settleCancel source outcome
  | _ => s

/-! ## The system -/

/-- The tasks are created, and the generator runs up to its first suspension. -/
def start (canceled : Bool) : BatchState α ρ χ := ({ canceled } : BatchState α ρ χ).loop

/-- `_QueueEventSink.emit`; an item wakes the reader. -/
def emit (s : BatchState α ρ χ) (event : α) : BatchState α ρ χ :=
  { s with
    queue := s.queue ++ [event]
    emitted := s.emitted ++ [event]
    reader := match s.reader with
      | .waiting => .ready
      | reader => reader }

/-- The reader runs: it takes an item, or waits for one. -/
def read (s : BatchState α ρ χ) : BatchState α ρ χ :=
  match s.reader, s.queue with
  | .ready, event :: rest => { s with queue := rest, reader := .finished event }
  | .ready, [] => { s with reader := .waiting }
  | _, _ => s

end BatchState

/-- One event. -/
inductive BatchEvent (α ρ χ : Type) where
  /-- The gateway emits progress. -/
  | emit (event : α)
  /-- The gateway returns or raises. -/
  | finish (outcome : GatewayOutcome ρ χ)
  /-- The reader runs. -/
  | read
  /-- The generator goes on: its `await` is over, or the consumer asks for more. -/
  | resume
  /-- The signal is set. -/
  | signal
  /-- The task of the consumer is cancelled in an `await` of the generator. -/
  | interrupt

namespace BatchState

/-- The state after an event. -/
def step (s : BatchState α ρ χ) : BatchEvent α ρ χ → BatchState α ρ χ
  | .emit event => if s.gateway.isNone then s.emit event else s
  | .finish outcome => if s.gateway.isNone then { s with gateway := some outcome } else s
  | .read => s.read
  | .resume => s.proceed
  | .signal => { s with canceled := true }
  | .interrupt => s.interrupt

/-! ## What is still to come -/

/-- What the reader holds and the generator has not yielded. -/
def held (s : BatchState α ρ χ) : List α :=
  match s.suspension with
  | .progress => []
  | _ => s.reader.item

/-- What was emitted and not yielded. -/
def pending (s : BatchState α ρ χ) : List α := s.held ++ s.queue

/-- The generator has taken what the reader held for the last time. -/
def Draining (s : BatchState α ρ χ) : Prop :=
  ∃ terminal, s.suspension = .draining terminal ∨ s.suspension = .ended terminal

/-- Nothing is held that nobody will ask for. -/
def Intact (s : BatchState α ρ χ) : Prop := s.Draining → s.held = []

/-- The reader takes nothing during the drain. -/
def Undisturbed (s : BatchState α ρ χ) : BatchEvent α ρ χ → Prop
  | .read => ∀ terminal, s.suspension = .draining terminal → s.reader = .ready → s.queue = []
  | _ => True

/-- **The invariant without cancellation.** -/
structure Flows (s : BatchState α ρ χ) : Prop where
  running : s.canceled = false
  count : s.emitted.length = s.yielded.length + s.pending.length
  order : s.Intact → s.emitted = s.yielded ++ s.pending
  progress : s.suspension = .progress → ∃ event, s.reader = .finished event
  ended : ∀ terminal, s.suspension = .ended terminal → s.queue = []
  selected : ∀ terminal, s.suspension = .draining terminal ∨ s.suspension = .ended terminal →
    ∃ outcome, s.gateway = some outcome ∧ terminal = outcome.terminal
  cancelling : ∀ source, s.suspension ≠ .cancelling source

end BatchState

/-- The event has nothing to do with cancellation. -/
def BatchEvent.plain : BatchEvent α ρ χ → Bool
  | .signal | .interrupt => false
  | _ => true

namespace BatchState

variable {s : BatchState α ρ χ} {outcome : GatewayOutcome ρ χ}

theorem held_of_ne (h : s.suspension ≠ .progress) : s.held = s.reader.item := by
  unfold held
  cases hsuspension : s.suspension with
  | progress => exact absurd hsuspension h
  | waiting => rfl
  | draining terminal => rfl
  | cancelling source => rfl
  | ended terminal => rfl

variable {terminal : Terminal ρ χ}

theorem drainQueue_nil (h : s.queue = []) :
    s.drainQueue terminal = { s with suspension := .ended terminal } := by
  simp only [drainQueue, h]

theorem drainQueue_cons {event : α} {rest : List α} (h : s.queue = event :: rest) :
    s.drainQueue terminal = { s with queue := rest }.yieldAt event (.draining terminal) := by
  simp only [drainQueue, h]

theorem drain_finished {event : α} (h : s.reader = .finished event) :
    s.drain terminal = { s with reader := .gone }.yieldAt event (.draining terminal) := by
  simp only [drain, h]

theorem drain_of_item (h : s.reader.item = []) :
    s.drain terminal = s.drainQueue terminal := by
  unfold drain
  cases hreader : s.reader with
  | finished event =>
    rw [hreader] at h
    cases h
  | ready => rfl
  | waiting => rfl
  | gone => rfl

theorem loop_some (h : s.gateway = some outcome) : s.loop = s.drain outcome.terminal := by
  simp only [loop, h]

theorem loop_finished {event : α} (h : s.gateway = none) (hreader : s.reader = .finished event) :
    s.loop = s.yieldAt event .progress := by
  simp only [loop, h, hreader, yieldAt]

theorem loop_waits (h : s.gateway = none) (hreader : s.reader.item = []) :
    s.loop =
      if s.canceled then s.cancelGateway .signal else { s with suspension := .waiting } := by
  unfold loop
  rw [h]
  cases hfound : s.reader with
  | finished event =>
    rw [hfound] at hreader
    cases hreader
  | ready => simp only []
  | waiting => simp only []
  | gone => simp only []

/-! ## The drain -/

/-- A state of the drain keeps the account of what was emitted. -/
theorem flows_draining (hrunning : s.canceled = false)
    (hsuspension : s.suspension = .draining terminal ∨
      s.suspension = .ended terminal ∧ s.queue = [])
    (hgateway : s.gateway = some outcome) (hterminal : terminal = outcome.terminal)
    (hcount : s.emitted.length = s.yielded.length + (s.reader.item ++ s.queue).length)
    (horder : s.reader.item = [] → s.emitted = s.yielded ++ s.queue) :
    s.Flows ∧ (s.Intact ↔ s.reader.item = []) := by
  have hne : s.suspension ≠ .progress := by
    intro h
    rcases hsuspension with hdraining | ⟨hended, -⟩
    · rw [h] at hdraining
      cases hdraining
    · rw [h] at hended
      cases hended
  have hdraining : s.Draining := by
    rcases hsuspension with hdraining | ⟨hended, -⟩
    · exact ⟨terminal, Or.inl hdraining⟩
    · exact ⟨terminal, Or.inr hended⟩
  have hintact : s.Intact ↔ s.reader.item = [] := by
    unfold Intact
    rw [held_of_ne hne]
    exact ⟨fun h => h hdraining, fun h _ => h⟩
  refine ⟨⟨hrunning, ?_, fun h => ?_, fun h => absurd h hne, ?_, ?_, ?_⟩, hintact⟩
  · unfold pending
    rw [held_of_ne hne]
    exact hcount
  · unfold pending
    rw [held_of_ne hne, hintact.1 h, List.nil_append]
    exact horder (hintact.1 h)
  · intro terminal' hended
    rcases hsuspension with hdraining | ⟨-, hqueue⟩
    · rw [hended] at hdraining
      cases hdraining
    · exact hqueue
  · intro terminal' hselected
    refine ⟨outcome, hgateway, ?_⟩
    rw [← hterminal]
    rcases hsuspension with hdraining | ⟨hended, -⟩
    · rw [hdraining] at hselected
      rcases hselected with h | h <;> cases h
      rfl
    · rw [hended] at hselected
      rcases hselected with h | h <;> cases h
      rfl
  · intro source h
    rcases hsuspension with hdraining | ⟨hended, -⟩
    · rw [hdraining] at h
      cases h
    · rw [hended] at h
      cases h

theorem flows_drainQueue (hrunning : s.canceled = false) (hgateway : s.gateway = some outcome)
    (hcount : s.emitted.length = s.yielded.length + (s.reader.item ++ s.queue).length)
    (horder : s.reader.item = [] → s.emitted = s.yielded ++ s.queue) :
    (s.drainQueue outcome.terminal).Flows ∧
      ((s.drainQueue outcome.terminal).Intact ↔ s.reader.item = []) := by
  cases hqueue : s.queue with
  | nil =>
    rw [drainQueue_nil hqueue]
    exact flows_draining (s := { s with suspension := .ended outcome.terminal }) hrunning
      (Or.inr ⟨rfl, hqueue⟩) hgateway rfl hcount horder
  | cons event rest =>
    rw [drainQueue_cons hqueue]
    rw [hqueue] at hcount horder
    refine flows_draining (s := { s with queue := rest }.yieldAt event (.draining outcome.terminal))
      hrunning (Or.inl rfl) hgateway rfl ?_ ?_
    · simp only [yieldAt, List.length_append, List.length_cons, List.length_nil] at hcount ⊢
      omega
    · intro h
      simp only [yieldAt, List.append_assoc, List.cons_append, List.nil_append]
      exact horder h

theorem flows_drain (hrunning : s.canceled = false) (hgateway : s.gateway = some outcome)
    (horder : s.emitted = s.yielded ++ (s.reader.item ++ s.queue)) :
    (s.drain outcome.terminal).Flows ∧ (s.drain outcome.terminal).Intact := by
  cases hreader : s.reader with
  | finished event =>
    rw [drain_finished hreader]
    rw [hreader] at horder
    have hflows := flows_draining
      (s := { s with reader := .gone }.yieldAt event (.draining outcome.terminal))
      hrunning (Or.inl rfl) hgateway rfl (by simp [yieldAt, horder, Reader.item]; omega)
      (fun _ => by simp [yieldAt, horder, Reader.item])
    exact ⟨hflows.1, hflows.2.2 rfl⟩
  | _ =>
    have hitem : s.reader.item = [] := by rw [hreader]; rfl
    rw [drain_of_item hitem]
    have hflows := flows_drainQueue hrunning hgateway
      (by rw [horder, List.length_append]) (fun _ => by rw [horder, hitem, List.nil_append])
    exact ⟨hflows.1, hflows.2.2 hitem⟩

theorem not_draining_intact (hdraining : ∀ terminal, s.suspension ≠ .draining terminal)
    (hended : ∀ terminal, s.suspension ≠ .ended terminal) : s.Intact := by
  rintro ⟨terminal, h | h⟩
  · exact absurd h (hdraining terminal)
  · exact absurd h (hended terminal)

/-- A state outside the drain keeps the account. -/
theorem flows_awaiting (hrunning : s.canceled = false)
    (hsuspension : s.suspension = .waiting ∨
      s.suspension = .progress ∧ ∃ event, s.reader = .finished event)
    (horder : s.emitted = s.yielded ++ s.pending) : s.Flows ∧ s.Intact := by
  have hneither : (∀ terminal, s.suspension ≠ .draining terminal) ∧
      (∀ terminal, s.suspension ≠ .ended terminal) ∧
        ∀ source, s.suspension ≠ .cancelling source := by
    rcases hsuspension with h | ⟨h, -⟩ <;> rw [h] <;> simp
  obtain ⟨hdraining, hended, hcancelling⟩ := hneither
  refine ⟨⟨hrunning, by rw [horder, List.length_append], fun _ => horder, ?_,
    fun terminal h => absurd h (hended terminal), ?_, hcancelling⟩,
    not_draining_intact hdraining hended⟩
  · intro hprogress
    rcases hsuspension with h | ⟨-, hreader⟩
    · rw [h] at hprogress
      cases hprogress
    · exact hreader
  · rintro terminal (h | h)
    · exact absurd h (hdraining terminal)
    · exact absurd h (hended terminal)

theorem flows_loop (hrunning : s.canceled = false)
    (horder : s.emitted = s.yielded ++ (s.reader.item ++ s.queue)) : s.loop.Flows ∧ s.loop.Intact := by
  cases hgateway : s.gateway with
  | some outcome =>
    rw [loop_some hgateway]
    exact flows_drain hrunning hgateway horder
  | none =>
    cases hreader : s.reader with
    | finished event =>
      rw [loop_finished hgateway hreader]
      rw [hreader] at horder
      refine flows_awaiting (s := s.yieldAt event .progress) hrunning
        (Or.inr ⟨rfl, event, hreader⟩) ?_
      show s.emitted = (s.yielded ++ [event]) ++ ([] ++ s.queue)
      rw [horder]
      simp [Reader.item]
    | _ =>
      have hitem : s.reader.item = [] := by rw [hreader]; rfl
      rw [loop_waits hgateway hitem, if_neg (by rw [hrunning]; simp)]
      exact flows_awaiting (s := { s with suspension := .waiting }) hrunning (Or.inl rfl) horder

/-- The generator goes on. -/
theorem Flows.proceed (h : s.Flows) : s.proceed.Flows ∧ (s.proceed.Intact ↔ s.Intact) := by
  unfold BatchState.proceed
  cases hsuspension : s.suspension with
  | waiting =>
    have hintact : s.Intact := not_draining_intact (by rw [hsuspension]; simp) (by rw [hsuspension]; simp)
    have horder := h.order hintact
    unfold pending at horder
    rw [held_of_ne (by rw [hsuspension]; simp)] at horder
    have hloop := flows_loop h.running horder
    exact ⟨hloop.1, iff_of_true hloop.2 hintact⟩
  | progress =>
    have hintact : s.Intact := not_draining_intact (by rw [hsuspension]; simp) (by rw [hsuspension]; simp)
    have horder := h.order hintact
    unfold pending held at horder
    simp only [hsuspension] at horder
    have hloop := flows_loop (s := { s with reader := .ready }) h.running horder
    exact ⟨hloop.1, iff_of_true hloop.2 hintact⟩
  | draining terminal =>
    obtain ⟨outcome, hgateway, rfl⟩ := h.selected terminal (Or.inl hsuspension)
    have hne : s.suspension ≠ .progress := by rw [hsuspension]; simp
    have hintact : s.Intact ↔ s.reader.item = [] := by
      unfold Intact
      rw [held_of_ne hne]
      exact ⟨fun h => h ⟨_, Or.inl hsuspension⟩, fun h _ => h⟩
    have hcount := h.count
    have horder := h.order
    unfold pending at hcount horder
    rw [held_of_ne hne] at hcount horder
    have hdrain := flows_drainQueue h.running hgateway hcount
      fun hitem => by
        have hemitted := horder (hintact.2 hitem)
        rw [hitem] at hemitted
        exact hemitted
    exact ⟨hdrain.1, hdrain.2.trans hintact.symm⟩
  | cancelling source => exact absurd hsuspension (h.cancelling source)
  | ended terminal => exact ⟨h, Iff.rfl⟩

/-- A change that only the queue, the reader and the gateway see. -/
theorem Flows.of_kept {s' : BatchState α ρ χ} (h : s.Flows) (more : List α)
    (hcanceled : s'.canceled = s.canceled) (hsuspension : s'.suspension = s.suspension)
    (hyielded : s'.yielded = s.yielded) (hheld : s'.held = s.held)
    (hpending : s'.pending = s.pending ++ more)
    (hemitted : s'.emitted = s.emitted ++ more)
    (hreader : s.suspension = .progress → s'.reader = s.reader)
    (hqueue : ∀ terminal, s.suspension = .ended terminal → s'.queue = s.queue)
    (hgateway : ∀ outcome, s.gateway = some outcome → s'.gateway = some outcome) :
    s'.Flows ∧ (s'.Intact ↔ s.Intact) := by
  have hintact : s'.Intact ↔ s.Intact := by
    unfold Intact Draining
    rw [hsuspension, hheld]
  refine ⟨⟨hcanceled.trans h.running, ?_, fun hs' => ?_, fun hprogress => ?_,
    fun terminal hended => ?_, fun terminal hselected => ?_, fun source => ?_⟩, hintact⟩
  · rw [hemitted, hyielded, hpending, List.length_append, List.length_append, h.count]
    omega
  · rw [hemitted, hyielded, hpending, h.order (hintact.1 hs'), List.append_assoc]
  · rw [hsuspension] at hprogress
    rw [hreader hprogress]
    exact h.progress hprogress
  · rw [hsuspension] at hended
    rw [hqueue terminal hended]
    exact h.ended terminal hended
  · rw [hsuspension] at hselected
    obtain ⟨outcome, hsome, hterminal⟩ := h.selected terminal hselected
    exact ⟨outcome, hgateway outcome hsome, hterminal⟩
  · rw [hsuspension]
    exact h.cancelling source

/-- Progress is emitted while the gateway runs. -/
theorem Flows.emit (h : s.Flows) (hgateway : s.gateway = none) (event : α) :
    (s.emit event).Flows ∧ ((s.emit event).Intact ↔ s.Intact) := by
  have hitem : (s.emit event).reader.item = s.reader.item := by
    unfold BatchState.emit
    cases s.reader <;> rfl
  have hheld : (s.emit event).held = s.held := by
    unfold held
    rw [hitem]
    rfl
  refine h.of_kept [event] rfl rfl rfl hheld ?_ rfl ?_ ?_ ?_
  · unfold pending
    rw [hheld, List.append_assoc]
    rfl
  · intro hprogress
    obtain ⟨held, hreader⟩ := h.progress hprogress
    simp only [BatchState.emit, hreader]
  · intro terminal hended
    obtain ⟨outcome, hsome, -⟩ := h.selected terminal (Or.inr hended)
    rw [hgateway] at hsome
    cases hsome
  · intro outcome hsome
    exact hsome

/-- The gateway ends. -/
theorem Flows.finish (h : s.Flows) (hgateway : s.gateway = none) (outcome : GatewayOutcome ρ χ) :
    ({ s with gateway := some outcome } : BatchState α ρ χ).Flows ∧
      (({ s with gateway := some outcome } : BatchState α ρ χ).Intact ↔ s.Intact) := by
  refine h.of_kept [] rfl rfl rfl rfl (List.append_nil _).symm (List.append_nil _).symm
    (fun _ => rfl) (fun _ _ => rfl) ?_
  intro outcome' hsome
  rw [hgateway] at hsome
  cases hsome

/-- The reader runs; what it takes during the drain is lost. -/
theorem Flows.read (h : s.Flows) :
    s.read.Flows ∧ (s.read.Intact ↔ s.Intact ∧ s.Undisturbed (.read : BatchEvent α ρ χ)) := by
  cases hreader : s.reader with
  | ready =>
    cases hqueue : s.queue with
    | nil =>
      have hread : s.read = { s with reader := .waiting } := by
        simp only [BatchState.read, hreader, hqueue]
      have hheld : ({ s with reader := .waiting } : BatchState α ρ χ).held = s.held := by
        unfold held
        rw [hreader]
        rfl
      have hkept : ({ s with reader := .waiting } : BatchState α ρ χ).Flows ∧
          (({ s with reader := .waiting } : BatchState α ρ χ).Intact ↔ s.Intact) :=
        h.of_kept [] rfl rfl rfl hheld
        (by unfold pending; rw [hheld, List.append_nil]) (List.append_nil _).symm
        (fun hprogress => by
          obtain ⟨held, hfinished⟩ := h.progress hprogress
          rw [hreader] at hfinished
          cases hfinished)
        (fun _ _ => rfl) (fun _ hsome => hsome)
      rw [hread]
      exact ⟨hkept.1, hkept.2.trans (iff_self_and.2 fun _ _ _ _ => hqueue)⟩
    | cons event rest =>
      have hread : s.read = { s with queue := rest, reader := .finished event } := by
        simp only [BatchState.read, hreader, hqueue]
      cases hsuspension : s.suspension with
      | waiting =>
        have hintact : s.Intact :=
          not_draining_intact (by rw [hsuspension]; simp) (by rw [hsuspension]; simp)
        have horder := h.order hintact
        unfold pending at horder
        rw [held_of_ne (by rw [hsuspension]; simp), hreader, hqueue] at horder
        have hflows := flows_awaiting
          (s := { s with queue := rest, reader := .finished event }) h.running
          (Or.inl hsuspension) (by
            unfold pending
            rw [held_of_ne (by simp [hsuspension])]
            exact horder)
        rw [hread]
        exact ⟨hflows.1, iff_of_true hflows.2 ⟨hintact, fun terminal hdraining => by
          rw [hsuspension] at hdraining
          cases hdraining⟩⟩
      | progress =>
        obtain ⟨held, hfinished⟩ := h.progress hsuspension
        rw [hreader] at hfinished
        cases hfinished
      | draining terminal =>
        obtain ⟨outcome, hgateway, hterminal⟩ := h.selected terminal (Or.inl hsuspension)
        have hcount := h.count
        unfold pending at hcount
        rw [held_of_ne (by rw [hsuspension]; simp), hreader, hqueue] at hcount
        have hflows := flows_draining
          (s := { s with queue := rest, reader := .finished event }) h.running
          (Or.inl hsuspension) hgateway hterminal hcount (fun hitem => by cases hitem)
        rw [hread]
        refine ⟨hflows.1, iff_of_false (fun hintact => ?_) fun hboth => ?_⟩
        · cases hflows.2.1 hintact
        · have hempty := hboth.2 terminal hsuspension hreader
          rw [hqueue] at hempty
          cases hempty
      | cancelling source => exact absurd hsuspension (h.cancelling source)
      | ended terminal =>
        have hempty := h.ended terminal hsuspension
        rw [hqueue] at hempty
        cases hempty
  | _ =>
    have hread : s.read = s := by simp only [BatchState.read, hreader]
    rw [hread]
    refine ⟨h, iff_self_and.2 fun _ terminal _ hready => ?_⟩
    rw [hreader] at hready
    cases hready

/-- **One step without cancellation.** -/
theorem Flows.step (h : s.Flows) {event : BatchEvent α ρ χ} (hplain : event.plain = true) :
    (s.step event).Flows ∧ ((s.step event).Intact ↔ s.Intact ∧ s.Undisturbed event) := by
  cases event with
  | emit event =>
    cases hgateway : s.gateway with
    | none =>
      have hstep : s.step (.emit event : BatchEvent α ρ χ) = s.emit event := by
        simp [BatchState.step, hgateway]
      have hemit := h.emit hgateway event
      rw [hstep]
      exact ⟨hemit.1, hemit.2.trans (iff_self_and.2 fun _ => trivial)⟩
    | some outcome =>
      have hstep : s.step (.emit event : BatchEvent α ρ χ) = s := by
        simp [BatchState.step, hgateway]
      rw [hstep]
      exact ⟨h, iff_self_and.2 fun _ => trivial⟩
  | finish outcome =>
    cases hgateway : s.gateway with
    | none =>
      have hstep : s.step (.finish outcome : BatchEvent α ρ χ) =
          { s with gateway := some outcome } := by
        simp [BatchState.step, hgateway]
      have hfinish := h.finish hgateway outcome
      rw [hstep]
      exact ⟨hfinish.1, hfinish.2.trans (iff_self_and.2 fun _ => trivial)⟩
    | some old =>
      have hstep : s.step (.finish outcome : BatchEvent α ρ χ) = s := by
        simp [BatchState.step, hgateway]
      rw [hstep]
      exact ⟨h, iff_self_and.2 fun _ => trivial⟩
  | read => exact h.read
  | resume =>
    have hproceed := h.proceed
    exact ⟨hproceed.1, hproceed.2.trans (iff_self_and.2 fun _ => trivial)⟩
  | signal => cases hplain
  | interrupt => cases hplain

/-! ## Results -/

/-- The drain keeps to the outcome of the gateway, where that is a result. -/
def Selected (s : BatchState α ρ χ) : Prop :=
  ∀ terminal, s.suspension = .draining terminal ∨ s.suspension = .ended terminal →
    ∃ outcome, s.gateway = some outcome ∧
      ∀ result, outcome = .result result → terminal = .result result

theorem selected_drainQueue (hgateway : s.gateway = some outcome)
    (hterminal : ∀ result, outcome = .result result → terminal = .result result) :
    (s.drainQueue terminal).Selected := by
  intro other hother
  cases hqueue : s.queue with
  | nil =>
    rw [drainQueue_nil hqueue] at hother ⊢
    refine ⟨outcome, hgateway, ?_⟩
    rcases hother with h | h <;> cases h
    exact hterminal
  | cons event rest =>
    rw [drainQueue_cons hqueue] at hother ⊢
    refine ⟨outcome, hgateway, ?_⟩
    rcases hother with h | h <;> cases h
    exact hterminal

theorem selected_drain (hgateway : s.gateway = some outcome)
    (hterminal : ∀ result, outcome = .result result → terminal = .result result) :
    (s.drain terminal).Selected := by
  cases hreader : s.reader with
  | finished event =>
    rw [drain_finished hreader]
    intro other hother
    refine ⟨outcome, hgateway, ?_⟩
    rcases hother with h | h <;> cases h
    exact hterminal
  | _ =>
    rw [drain_of_item (by rw [hreader]; rfl)]
    exact selected_drainQueue hgateway hterminal

theorem selected_ended (hgateway : s.gateway = some outcome)
    (hterminal : ∀ result, outcome = .result result → terminal = .result result) :
    ({ s with suspension := .ended terminal } : BatchState α ρ χ).Selected := by
  intro other hother
  refine ⟨outcome, hgateway, ?_⟩
  rcases hother with h | h <;> cases h
  exact hterminal

theorem selected_of_not_draining (h : ¬ s.Draining) : s.Selected :=
  fun terminal hselected => absurd ⟨terminal, hselected⟩ h

theorem Selected.of_kept {s' : BatchState α ρ χ} (h : s.Selected)
    (hsuspension : s'.suspension = s.suspension)
    (hgateway : ∀ outcome, s.gateway = some outcome → s'.gateway = some outcome) :
    s'.Selected := by
  intro terminal hselected
  rw [hsuspension] at hselected
  obtain ⟨outcome, hsome, hterminal⟩ := h terminal hselected
  exact ⟨outcome, hgateway outcome hsome, hterminal⟩

theorem selected_settleCancel (hgateway : s.gateway = some outcome) (source : CancelSource) :
    (s.settleCancel source outcome).Selected := by
  cases outcome with
  | result value => exact selected_drain hgateway fun result h => by cases h; rfl
  | _ => exact selected_ended hgateway fun result h => by cases h

theorem selected_cancelGateway (s : BatchState α ρ χ) (source : CancelSource) :
    (s.cancelGateway source).Selected := by
  cases hgateway : s.gateway with
  | some outcome =>
    have hcancel : s.cancelGateway source = s.settleCancel source outcome := by
      simp only [cancelGateway, hgateway]
    rw [hcancel]
    exact selected_settleCancel hgateway source
  | none =>
    have hcancel : s.cancelGateway source = { s with suspension := .cancelling source } := by
      simp only [cancelGateway, hgateway]
    rw [hcancel]
    exact selected_of_not_draining fun ⟨terminal, h⟩ => by rcases h with h | h <;> cases h

theorem selected_loop (s : BatchState α ρ χ) : s.loop.Selected := by
  cases hgateway : s.gateway with
  | some outcome =>
    rw [loop_some hgateway]
    exact selected_drain hgateway fun result h => by rw [h]; rfl
  | none =>
    cases hreader : s.reader with
    | finished event =>
      rw [loop_finished hgateway hreader]
      exact selected_of_not_draining fun ⟨terminal, h⟩ => by rcases h with h | h <;> cases h
    | _ =>
      rw [loop_waits hgateway (by rw [hreader]; rfl)]
      by_cases hcanceled : s.canceled = true
      · rw [if_pos hcanceled]
        exact selected_cancelGateway s .signal
      · rw [if_neg hcanceled]
        exact selected_of_not_draining fun ⟨terminal, h⟩ => by rcases h with h | h <;> cases h

theorem Selected.proceed (h : s.Selected) : s.proceed.Selected := by
  cases hsuspension : s.suspension with
  | waiting =>
    have hproceed : s.proceed = s.loop := by simp only [BatchState.proceed, hsuspension]
    rw [hproceed]
    exact selected_loop s
  | progress =>
    have hproceed : s.proceed = { s with reader := .ready }.loop := by
      simp only [BatchState.proceed, hsuspension]
    rw [hproceed]
    exact selected_loop _
  | draining terminal =>
    have hproceed : s.proceed = s.drainQueue terminal := by
      simp only [BatchState.proceed, hsuspension]
    obtain ⟨outcome, hgateway, hterminal⟩ := h terminal (Or.inl hsuspension)
    rw [hproceed]
    exact selected_drainQueue hgateway hterminal
  | cancelling source =>
    cases hgateway : s.gateway with
    | some outcome =>
      have hproceed : s.proceed = s.settleCancel source outcome := by
        simp only [BatchState.proceed, hsuspension, hgateway]
      rw [hproceed]
      exact selected_settleCancel hgateway source
    | none =>
      have hproceed : s.proceed = s := by
        simp only [BatchState.proceed, hsuspension, hgateway]
      rw [hproceed]
      exact h
  | ended terminal =>
    have hproceed : s.proceed = s := by simp only [BatchState.proceed, hsuspension]
    rw [hproceed]
    exact h

theorem Selected.interrupt (h : s.Selected) : s.interrupt.Selected := by
  cases hsuspension : s.suspension with
  | waiting =>
    have hinterrupt : s.interrupt = s.cancelGateway .caller := by
      simp only [BatchState.interrupt, hsuspension]
    rw [hinterrupt]
    exact selected_cancelGateway s .caller
  | cancelling source =>
    cases hgateway : s.gateway with
    | none =>
      have hinterrupt : s.interrupt = s := by
        simp only [BatchState.interrupt, hsuspension, hgateway]
      rw [hinterrupt]
      exact h
    | some outcome =>
      have hsettled := selected_settleCancel hgateway source
      cases outcome with
      | raised error =>
        have hinterrupt : s.interrupt = { s with suspension := .ended (.raised error) } := by
          simp only [BatchState.interrupt, hsuspension, hgateway]
        rw [hinterrupt]
        exact selected_ended hgateway fun result h => by cases h
      | _ =>
        simp only [BatchState.interrupt, hsuspension, hgateway]
        exact hsettled
  | _ =>
    have hinterrupt : s.interrupt = s := by simp only [BatchState.interrupt, hsuspension]
    rw [hinterrupt]
    exact h

/-- **One step, cancellations included.** -/
theorem Selected.step (h : s.Selected) (event : BatchEvent α ρ χ) : (s.step event).Selected := by
  cases event with
  | emit event =>
    cases hgateway : s.gateway with
    | none =>
      have hstep : s.step (.emit event : BatchEvent α ρ χ) = s.emit event := by
        simp [BatchState.step, hgateway]
      rw [hstep]
      exact h.of_kept rfl fun _ hsome => hsome
    | some outcome =>
      have hstep : s.step (.emit event : BatchEvent α ρ χ) = s := by
        simp [BatchState.step, hgateway]
      rw [hstep]
      exact h
  | finish outcome =>
    cases hgateway : s.gateway with
    | none =>
      have hstep : s.step (.finish outcome : BatchEvent α ρ χ) =
          { s with gateway := some outcome } := by
        simp [BatchState.step, hgateway]
      rw [hstep]
      refine h.of_kept rfl fun outcome' hsome => ?_
      rw [hgateway] at hsome
      cases hsome
    | some old =>
      have hstep : s.step (.finish outcome : BatchEvent α ρ χ) = s := by
        simp [BatchState.step, hgateway]
      rw [hstep]
      exact h
  | read =>
    have hkept : s.read.suspension = s.suspension ∧ s.read.gateway = s.gateway := by
      unfold BatchState.read
      cases s.reader <;> cases s.queue <;> exact ⟨rfl, rfl⟩
    exact h.of_kept hkept.1 fun _ hsome => hkept.2.trans hsome
  | resume => exact h.proceed
  | signal => exact h.of_kept rfl fun _ hsome => hsome
  | interrupt => exact h.interrupt

/-! ## The generator ends -/

/-- What the gateway has done. -/
def done (s : BatchState α ρ χ) : Option (GatewayOutcome ρ χ) × List α := (s.gateway, s.emitted)

theorem done_drainQueue (s : BatchState α ρ χ) (terminal : Terminal ρ χ) :
    (s.drainQueue terminal).done = s.done := by
  unfold drainQueue
  cases s.queue <;> rfl

theorem done_drain (s : BatchState α ρ χ) (terminal : Terminal ρ χ) :
    (s.drain terminal).done = s.done := by
  unfold drain
  cases s.reader with
  | finished event => rfl
  | _ => exact done_drainQueue s terminal

theorem done_settleCancel (s : BatchState α ρ χ) (source : CancelSource)
    (outcome : GatewayOutcome ρ χ) : (s.settleCancel source outcome).done = s.done := by
  cases outcome with
  | result value => exact done_drain s _
  | _ => rfl

theorem done_cancelGateway (s : BatchState α ρ χ) (source : CancelSource) :
    (s.cancelGateway source).done = s.done := by
  cases hgateway : s.gateway with
  | some outcome =>
    have hcancel : s.cancelGateway source = s.settleCancel source outcome := by
      simp only [cancelGateway, hgateway]
    rw [hcancel, done_settleCancel]
  | none =>
    have hcancel : s.cancelGateway source = { s with suspension := .cancelling source } := by
      simp only [cancelGateway, hgateway]
    rw [hcancel]
    rfl

theorem done_loop (s : BatchState α ρ χ) : s.loop.done = s.done := by
  cases hgateway : s.gateway with
  | some outcome => rw [loop_some hgateway, done_drain]
  | none =>
    cases hreader : s.reader with
    | finished event =>
      rw [loop_finished hgateway hreader]
      rfl
    | _ =>
      rw [loop_waits hgateway (by rw [hreader]; rfl)]
      by_cases hcanceled : s.canceled = true
      · rw [if_pos hcanceled, done_cancelGateway]
      · rw [if_neg hcanceled]
        rfl

/-- The generator neither emits nor ends the gateway. -/
theorem done_proceed (s : BatchState α ρ χ) : s.proceed.done = s.done := by
  unfold proceed
  cases s.suspension with
  | waiting => exact done_loop s
  | progress => exact done_loop _
  | draining terminal => exact done_drainQueue s terminal
  | cancelling source =>
    cases s.gateway with
    | some outcome => exact done_settleCancel s source outcome
    | none => rfl
  | ended terminal => rfl

/-- The generator is asked for more a number of times. -/
def resumed (s : BatchState α ρ χ) (n : Nat) : BatchState α ρ χ :=
  exec step s (List.replicate n .resume)

theorem resumed_succ (s : BatchState α ρ χ) (n : Nat) : s.resumed (n + 1) = s.proceed.resumed n :=
  rfl

theorem done_resumed (s : BatchState α ρ χ) (n : Nat) : (s.resumed n).done = s.done := by
  induction n generalizing s with
  | zero => rfl
  | succ n ih => rw [resumed_succ, ih, done_proceed]

/-- The drain comes to its end. -/
theorem exists_ended_drainQueue (s : BatchState α ρ χ) (terminal : Terminal ρ χ) :
    ∃ n, ((s.drainQueue terminal).resumed n).suspension = .ended terminal := by
  induction hqueue : s.queue generalizing s with
  | nil =>
    rw [drainQueue_nil hqueue]
    exact ⟨0, rfl⟩
  | cons event rest ih =>
    obtain ⟨n, hn⟩ := ih ({ s with queue := rest }.yieldAt event (.draining terminal)) rfl
    rw [drainQueue_cons hqueue]
    exact ⟨n + 1, hn⟩

theorem exists_ended_drain (s : BatchState α ρ χ) (terminal : Terminal ρ χ) :
    ∃ n, ((s.drain terminal).resumed n).suspension = .ended terminal := by
  cases hreader : s.reader with
  | finished event =>
    rw [drain_finished hreader]
    obtain ⟨n, hn⟩ := exists_ended_drainQueue
      ({ s with reader := .gone }.yieldAt event (.draining terminal)) terminal
    exact ⟨n + 1, hn⟩
  | _ =>
    rw [drain_of_item (by rw [hreader]; rfl)]
    exact exists_ended_drainQueue s terminal

/-- Once the gateway has ended, the generator ends. -/
theorem exists_ended (h : s.gateway = some outcome) :
    ∃ n terminal, (s.resumed n).suspension = .ended terminal := by
  have hnext : (∃ terminal, s.proceed = s.drain terminal ∨
        s.proceed = ({ s with reader := .ready } : BatchState α ρ χ).drain terminal ∨
        s.proceed = s.drainQueue terminal ∨
        s.proceed = { s with suspension := .ended terminal }) →
      ∃ n terminal, (s.resumed n).suspension = .ended terminal := by
    rintro ⟨terminal, heq | heq | heq | heq⟩
    · obtain ⟨n, hn⟩ := exists_ended_drain s terminal
      exact ⟨n + 1, terminal, by rw [resumed_succ, heq, hn]⟩
    · obtain ⟨n, hn⟩ := exists_ended_drain { s with reader := .ready } terminal
      exact ⟨n + 1, terminal, by rw [resumed_succ, heq, hn]⟩
    · obtain ⟨n, hn⟩ := exists_ended_drainQueue s terminal
      exact ⟨n + 1, terminal, by rw [resumed_succ, heq, hn]⟩
    · exact ⟨1, terminal, by rw [resumed_succ, heq]; rfl⟩
  cases hsuspension : s.suspension with
  | waiting =>
    refine hnext ⟨outcome.terminal, Or.inl ?_⟩
    simp only [proceed, hsuspension, loop_some h]
  | progress =>
    refine hnext ⟨outcome.terminal, Or.inr (Or.inl ?_)⟩
    simp only [proceed, hsuspension]
    exact loop_some (s := { s with reader := .ready }) h
  | draining terminal =>
    refine hnext ⟨terminal, Or.inr (Or.inr (Or.inl ?_))⟩
    simp only [proceed, hsuspension]
  | cancelling source =>
    have hproceed : s.proceed = s.settleCancel source outcome := by
      simp only [proceed, hsuspension, h]
    cases outcome with
    | result value => exact hnext ⟨.result value, Or.inl hproceed⟩
    | _ => exact hnext ⟨source.terminal, Or.inr (Or.inr (Or.inr hproceed))⟩
  | ended terminal => exact ⟨0, terminal, hsuspension⟩

/-! ## Every run -/

theorem flows_start : (start false : BatchState α ρ χ).Flows ∧
    (start false : BatchState α ρ χ).Intact :=
  flows_loop rfl rfl

/-- In every run without cancellation, nothing is lost exactly if the drain is undisturbed. -/
theorem flows_exec {run : List (BatchEvent α ρ χ)} (h : ∀ event ∈ run, event.plain = true) :
    (exec step (start false) run).Flows ∧
      ((exec step (start false) run).Intact ↔ Along step Undisturbed (start false) run) := by
  induction run using List.reverseRecOn with
  | nil => exact ⟨flows_start.1, iff_of_true flows_start.2 trivial⟩
  | append_singleton run event ih =>
    have hrun := ih fun event hevent => h event (List.mem_append_left _ hevent)
    have hstep := hrun.1.step (h event (List.mem_append_right _ (List.mem_singleton_self _)))
    rw [exec_append, along_append, exec_cons, exec_nil]
    refine ⟨hstep.1, hstep.2.trans (and_congr hrun.2 ?_)⟩
    exact ⟨fun hevent => ⟨hevent, trivial⟩, fun hboth => hboth.1⟩

theorem selected_exec (canceled : Bool) (run : List (BatchEvent α ρ χ)) :
    (exec step (start canceled) run).Selected :=
  exec_induction_of_all (fun _ event h => h.step event) run (selected_loop _)

theorem Flows.resumed (h : s.Flows) (n : Nat) : (s.resumed n).Flows := by
  induction n generalizing s with
  | zero => exact h
  | succ n ih =>
    rw [resumed_succ]
    exact ih h.proceed.1

theorem Selected.resumed (h : s.Selected) (n : Nat) : (s.resumed n).Selected := by
  induction n generalizing s with
  | zero => exact h
  | succ n ih =>
    rw [resumed_succ]
    exact ih h.proceed

/-- Whoever has ended and is intact has yielded everything, and nobody else has. -/
theorem Flows.yielded_eq_iff (h : s.Flows)
    (hended : s.suspension = .ended terminal) : s.yielded = s.emitted ↔ s.Intact := by
  have hqueue := h.ended terminal hended
  have hdraining : s.Draining := ⟨terminal, Or.inr hended⟩
  constructor
  · intro heq _
    have hcount := h.count
    unfold pending at hcount
    rw [heq, hqueue, List.append_nil] at hcount
    exact List.eq_nil_of_length_eq_zero (by omega)
  · intro hintact
    have horder := h.order hintact
    unfold pending at horder
    rw [hintact hdraining, hqueue, List.append_nil, List.append_nil] at horder
    exact horder.symm

end BatchState

open BatchState

/-- **Progress is delivered.**  In every run without cancellation, whatever the order of the three
tasks: as long as no reader takes an item during the drain, what was emitted is what was yielded
followed by what is pending; once the gateway has ended the generator ends, as the gateway did; and
when it has ended, it has yielded exactly what was emitted if and only if no reader took an item
during the drain.  In every run, with any cancellation, a gateway that returns a result has it
yielded in the end. -/
theorem progress_delivered (α ρ χ : Type) :
    (∀ run : List (BatchEvent α ρ χ), (∀ event ∈ run, event.plain = true) →
      let s := exec step (start false) run
      (Along step BatchState.Undisturbed (start false) run → s.emitted = s.yielded ++ s.pending) ∧
      (∀ terminal, s.suspension = .ended terminal →
        (s.yielded = s.emitted ↔ Along step BatchState.Undisturbed (start false) run) ∧
          ∃ outcome, s.gateway = some outcome ∧ terminal = outcome.terminal) ∧
      ∀ outcome, s.gateway = some outcome →
        ∃ n, (s.resumed n).suspension = .ended outcome.terminal) ∧
    ∀ (canceled : Bool) (run : List (BatchEvent α ρ χ)) (result : ρ),
      let s := exec step (start canceled) run
      s.gateway = some (.result result) →
      (∀ terminal, s.suspension = .ended terminal → terminal = .result result) ∧
        ∃ n, (s.resumed n).suspension = .ended (.result result) := by
  constructor
  · intro run hplain s
    obtain ⟨hflows, hintact⟩ := flows_exec hplain
    refine ⟨fun halong => hflows.order (hintact.2 halong), fun terminal hended => ?_, ?_⟩
    · exact ⟨(hflows.yielded_eq_iff hended).trans hintact,
        hflows.selected terminal (Or.inr hended)⟩
    · intro outcome hgateway
      obtain ⟨n, terminal, hn⟩ := exists_ended hgateway
      obtain ⟨outcome', hgateway', hterminal⟩ := (hflows.resumed n).selected terminal (Or.inr hn)
      have hsame : (s.resumed n).gateway = s.gateway := congrArg Prod.fst (done_resumed s n)
      rw [hsame, hgateway] at hgateway'
      cases hgateway'
      exact ⟨n, by rw [hn, hterminal]⟩
  · intro canceled run result s hgateway
    have hselected : s.Selected := selected_exec canceled run
    constructor
    · intro terminal hended
      obtain ⟨outcome, hgateway', hterminal⟩ := hselected terminal (Or.inr hended)
      rw [hgateway] at hgateway'
      exact hterminal result (Option.some.inj hgateway').symm
    · obtain ⟨n, terminal, hn⟩ := exists_ended hgateway
      obtain ⟨outcome, hgateway', hterminal⟩ := hselected.resumed n terminal (Or.inr hn)
      have hsame : (s.resumed n).gateway = s.gateway := congrArg Prod.fst (done_resumed s n)
      rw [hsame, hgateway] at hgateway'
      exact ⟨n, by rw [hn, hterminal result (Option.some.inj hgateway').symm]⟩

/-- The gateway emits two more events and returns while the consumer is at the first; the consumer
is suspended again at the second, and the new reader runs. -/
def overtaken : List (BatchEvent Nat Nat Nat) :=
  [.emit 1, .read, .resume, .emit 2, .emit 3, .finish (.result 0), .resume, .read, .resume]

/-- **The last event is lost.** -/
theorem event_lost :
    (∀ event ∈ overtaken, event.plain = true) ∧
      (exec step (start false) overtaken).suspension = .ended (.result 0) ∧
      (exec step (start false) overtaken).emitted = [1, 2, 3] ∧
      (exec step (start false) overtaken).yielded = [1, 2] := by
  decide

end Purra.ToolBatch
