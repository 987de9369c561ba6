import Purra.Output.ResponseTransaction

/-!
# What a response transaction guarantees

Whatever the world answers, `execute_validated` commits one text at most, and only one that the last
candidate stream completed and that every check accepted.

* `invocations`, `commits` — what the log says has been asked of the world.
* `ModelStream.Completes` — a stream that was read to its end, with its whole text.
* `Accepted` — the log behind a candidate that may be committed.
* `ModelStream.Clean` — no content comes with tool calls from a stream whose closing asks for
  another attempt.
* `executeValidated_spec` — **the guarantees of every execution** whose presentation streams are
  clean; `shown_twice` is one of a stream that is not.
-/

namespace Purra.Output.ResponseTransaction

open Purra.Contracts

/-! ## The log -/

/-- What a model invocation got. -/
abbrev Invocation : Type := Except Fault ModelStream

/-- The invocation of an event. -/
def Event.invocation? (intent : AgentOutputIntent) : Event → Option Invocation
  | .invoked intent' _ reply => if intent' = intent then some reply else none
  | _ => none

/-- The text of a commit. -/
def Event.commit? : Event → Option String
  | .committed content _ _ => some content
  | _ => none

/-- The model invocations with an intent. -/
def invocations (intent : AgentOutputIntent) (log : List Event) : List Invocation :=
  log.filterMap (Event.invocation? intent)

/-- The texts that were committed. -/
def commits (log : List Event) : List String := log.filterMap Event.commit?

@[simp] theorem invocations_append (intent : AgentOutputIntent) (log log' : List Event) :
    invocations intent (log ++ log') = invocations intent log ++ invocations intent log' :=
  List.filterMap_append

@[simp] theorem commits_append (log log' : List Event) :
    commits (log ++ log') = commits log ++ commits log' := List.filterMap_append

/-- Neither a model invocation nor a commit. -/
def Event.Silent : Event → Prop
  | .invoked .. | .committed .. => False
  | _ => True

/-- Events that are neither. -/
def Silent (log : List Event) : Prop := ∀ event ∈ log, event.Silent

theorem Silent.nil : Silent [] := fun _ h => absurd h List.not_mem_nil

variable {log : List Event}

theorem Silent.append {log' : List Event} (h : Silent log) (h' : Silent log') :
    Silent (log ++ log') := fun event hevent => (List.mem_append.1 hevent).elim (h event) (h' event)

theorem silent_singleton {event : Event} (h : event.Silent) : Silent [event] := by
  intro event' hevent
  cases List.mem_singleton.1 hevent
  exact h

theorem Silent.invocations (h : Silent log) (intent : AgentOutputIntent) :
    invocations intent log = [] := by
  refine List.filterMap_eq_nil_iff.2 fun event hevent => ?_
  have hsilent := h event hevent
  cases event with
  | invoked => exact hsilent.elim
  | _ => rfl

theorem Silent.commits (h : Silent log) : commits log = [] := by
  refine List.filterMap_eq_nil_iff.2 fun event hevent => ?_
  have hsilent := h event hevent
  cases event with
  | committed => exact hsilent.elim
  | _ => rfl

/-! ## Streams -/

namespace ModelStream

/-- The stream was read to its end; `answer` is all of its text. -/
structure Completes (stream : ModelStream) (answer : String) : Prop where
  chunks : ∃ chunks : List ModelStreamChunk, stream.items = chunks.map some ∧
    (∀ chunk ∈ chunks, chunk.toolCallDeltas = []) ∧
    answer = String.join (chunks.map (·.contentDelta)) ∧
    ∃ reason, (chunks.filterMap (·.finishReason)).getLast? = some reason ∧ incomplete reason = false
  failure : stream.failure = none
  closing : stream.closing = none

/-- An object that the transaction refuses. -/
def refuses : Option ModelStreamChunk → Bool
  | none => true
  | some chunk => chunk.toolCallDeltas ≠ []

/-- The objects that the stream hands over: those before one that is refused, and this one. -/
def handedOver : List (Option ModelStreamChunk) → List (Option ModelStreamChunk)
  | [] => []
  | item :: items => item :: if refuses item then [] else handedOver items

/-- A chunk with content. -/
def hasContent : Option ModelStreamChunk → Bool
  | none => false
  | some chunk => chunk.contentDelta ≠ ""

/-- The stream yields visible content. -/
def Visible (stream : ModelStream) : Prop := ∃ item ∈ handedOver stream.items, hasContent item = true

/-- If the first content that is handed over comes with tool calls, closing the stream raises
nothing that asks for another attempt. -/
def Clean (stream : ModelStream) : Prop :=
  ∀ chunk, (handedOver stream.items).find? hasContent = some (some chunk) →
    chunk.toolCallDeltas ≠ [] →
    ∀ fault, stream.closing = some fault → fault.retryable = false ∨ fault.passes = true

end ModelStream

open ModelStream

variable {items : List (Option ModelStreamChunk)} {before : Collected}

/-- What was taken of a stream that refused nothing. -/
theorem takeItems_none {after : Collected} (h : takeItems before items = (after, none)) :
    ∃ chunks : List ModelStreamChunk, items = chunks.map some ∧
      (∀ chunk ∈ chunks, chunk.toolCallDeltas = []) ∧
      String.join after.content =
        String.join before.content ++ String.join (chunks.map (·.contentDelta)) ∧
      after.finishReason =
        (chunks.filterMap (·.finishReason)).getLast?.or before.finishReason := by
  induction items generalizing before with
  | nil =>
    cases h
    exact ⟨[], rfl, nofun, by simp, rfl⟩
  | cons item items ih =>
    cases item with
    | none => cases h
    | some chunk =>
      by_cases htools : chunk.toolCallDeltas = []
      · rw [takeItems, takeItem, if_neg (not_not_intro htools)] at h
        obtain ⟨chunks, rfl, hchunks, hjoin, hreason⟩ := ih h
        refine ⟨chunk :: chunks, rfl, List.forall_mem_cons.2 ⟨htools, hchunks⟩, ?_, ?_⟩
        · rw [hjoin, List.map_cons, String.join_cons]
          by_cases hdelta : chunk.contentDelta = ""
          · simp [hdelta]
          · simp [hdelta, String.append_assoc]
        · rw [hreason]
          cases hfinish : chunk.finishReason with
          | none => simp [hfinish]
          | some reason =>
            rw [List.filterMap_cons_some hfinish, List.getLast?_cons]
            cases (chunks.filterMap (·.finishReason)).getLast? <;> rfl
      · rw [takeItems, takeItem, if_pos htools] at h
        cases h

theorem takeItems_kept (h : before.content ≠ []) : (takeItems before items).1.content ≠ [] := by
  induction items generalizing before with
  | nil => exact h
  | cons item items ih =>
    rw [takeItems]
    cases htake : takeItem before item with
    | error fault => exact h
    | ok after =>
      refine ih ?_
      cases item with
      | none => cases htake
      | some chunk =>
        unfold takeItem at htake
        dsimp only at htake
        split at htake
        · cases htake
        · cases htake
          dsimp only
          split
          · exact h
          · exact List.append_ne_nil_of_left_ne_nil h _

/-- What was taken of a stream that handed over content: the content, unless it came with tool
calls. -/
theorem takeItems_visible (h : ∃ item ∈ handedOver items, hasContent item = true) :
    (takeItems before items).1.content ≠ [] ∨
      ∃ chunk, (handedOver items).find? hasContent = some (some chunk) ∧ chunk.toolCallDeltas ≠ [] ∧
        (takeItems before items).2 =
          some (contractViolation "response transaction model call returned tool calls") := by
  induction items generalizing before with
  | nil =>
    obtain ⟨item, hitem, -⟩ := h
    cases hitem
  | cons item items ih =>
    cases item with
    | none =>
      obtain ⟨item, hitem, hcontent⟩ := h
      cases List.mem_singleton.1 hitem
      cases hcontent
    | some chunk =>
      by_cases htools : chunk.toolCallDeltas = []
      · have hrefuses : ¬ refuses (some chunk) = true := by simp [refuses, htools]
        rw [takeItems, takeItem, if_neg (not_not_intro htools)]
        rw [handedOver, if_neg hrefuses] at h ⊢
        by_cases hdelta : chunk.contentDelta = ""
        · have hnot : ¬ hasContent (some chunk) = true := by simp [hasContent, hdelta]
          rw [List.find?_cons_of_neg hnot]
          refine ih ?_
          obtain ⟨item, hitem, hcontent⟩ := h
          rcases List.mem_cons.1 hitem with rfl | hitem
          · exact absurd hcontent hnot
          · exact ⟨item, hitem, hcontent⟩
        · refine Or.inl (takeItems_kept ?_)
          rw [if_neg hdelta]
          exact List.append_ne_nil_of_right_ne_nil _ (List.cons_ne_nil _ _)
      · have hrefuses : refuses (some chunk) = true := by simp [refuses, htools]
        rw [takeItems, takeItem, if_pos htools]
        rw [handedOver, if_pos hrefuses] at h ⊢
        obtain ⟨item, hitem, hcontent⟩ := h
        cases List.mem_singleton.1 hitem
        exact Or.inr ⟨chunk, List.find?_cons_of_pos hcontent, htools, rfl⟩

variable {collected : Collected}

variable {stream : ModelStream}

/-- A stream that was read without an exception and finished is complete. -/
theorem completes_of_collect
    {intent : AgentOutputIntent} {answer : String} (h : stream.collect = (collected, none))
    (hfinish : finishCollected intent collected = .ok answer) : stream.Completes answer := by
  unfold ModelStream.collect at h
  generalize htaken : takeItems {} stream.items = taken at h
  obtain ⟨taken, refused⟩ := taken
  obtain ⟨rfl, hnone⟩ := Prod.mk.inj h
  obtain ⟨hclosing, hnone⟩ := Option.or_eq_none_iff.1 hnone
  obtain ⟨rfl, hfailure⟩ := Option.or_eq_none_iff.1 hnone
  obtain ⟨chunks, hitems, htools, hjoin, hreason⟩ := takeItems_none htaken
  unfold finishCollected at hfinish
  rw [hreason, Option.or_none] at hfinish
  refine ⟨⟨chunks, hitems, htools, ?_, ?_⟩, hfailure, hclosing⟩
  · split at hfinish
    · cases hfinish
    · split at hfinish
      · cases hfinish
      · cases hfinish
        rw [hjoin]
        simp
  · split at hfinish
    · cases hfinish
    next reason hlast =>
      split at hfinish
      · cases hfinish
      next hcomplete => exact ⟨reason, hlast, Bool.eq_false_iff.2 hcomplete⟩

/-- After content that was shown, a clean stream does not ask for another attempt. -/
theorem not_retryable_of_visible (hclean : stream.Clean) (hvisible : stream.Visible) {fault : Fault}
    (h : stream.collect = (collected, some fault)) (hpasses : fault.passes = false) :
    (streamFault .finalPublic collected fault).retryable = false := by
  unfold ModelStream.collect at h
  have hcontent : (takeItems {} stream.items).1.content ≠ [] ∨ _ := takeItems_visible hvisible
  generalize takeItems {} stream.items = taken at h hcontent
  obtain ⟨taken, refused⟩ := taken
  obtain ⟨rfl, hfault⟩ := Prod.mk.inj h
  unfold streamFault
  by_cases hempty : taken.content = []
  · rcases hcontent with hcontent | ⟨chunk, hfirst, htools, hrefused⟩
    · exact absurd hempty hcontent
    rw [if_neg fun h => h.2 hempty]
    cases hclosing : stream.closing with
    | some closing =>
      rw [hclosing] at hfault
      cases hfault
      rcases hclean chunk hfirst htools fault hclosing with hretry | hpass
      · exact hretry
      · rw [hpasses] at hpass
        cases hpass
    | none =>
      dsimp only at hrefused
      rw [hclosing, hrefused] at hfault
      cases hfault
      rfl
  · rw [if_pos ⟨rfl, hempty⟩]
    rfl

/-- A stream that was read without an exception gave its visible content. -/
theorem content_of_visible (hvisible : stream.Visible)
    (h : stream.collect = (collected, none)) : collected.content ≠ [] := by
  unfold ModelStream.collect at h
  have hcontent : (takeItems {} stream.items).1.content ≠ [] ∨ _ := takeItems_visible hvisible
  generalize takeItems {} stream.items = taken at h hcontent
  obtain ⟨taken, refused⟩ := taken
  obtain ⟨rfl, hnone⟩ := Prod.mk.inj h
  rcases hcontent with hcontent | ⟨_, -, -, hrefused⟩
  · exact hcontent
  · obtain ⟨-, hnone⟩ := Option.or_eq_none_iff.1 hnone
    obtain ⟨hnot, -⟩ := Option.or_eq_none_iff.1 hnone
    dsimp only at hrefused
    rw [hrefused] at hnot
    cases hnot

/-- A stream without a good finish is not asked for again once content was shown. -/
theorem finish_not_retryable (hcontent : collected.content ≠ [])
    {fault : Fault} (h : finishCollected .finalPublic collected = .error fault) :
    fault.retryable = false := by
  unfold finishCollected at h
  split at h
  · cases h
    simp [gatewayError, hcontent]
  · split at h
    · cases h
      rfl
    · cases h

/-! ## The parts of a transaction -/

section

variable {world : World} {transaction : Transaction}

theorem call_emits {α : Type} {answer : List Event → Except Fault α} {event : Except Fault α → Event}
    {P : Except Fault α → List Event → Prop} (h : ∀ reply, P reply [event reply]) :
    Emits (call answer event) P := by
  refine Emits.bind (P := fun r new => ∃ reply, r = .ok reply ∧ new = [event reply])
    (Emits.ask fun reply => ⟨reply, rfl, rfl⟩) ?_ ?_
  · rintro e new ⟨reply, hreply, -⟩
    cases hreply
  · rintro reply new ⟨reply', hreply, rfl⟩
    cases hreply
    cases reply with
    | ok value => exact Emits.pure (h (.ok value))
    | error fault => exact Emits.raise (h (.error fault))

theorem stopException_passes (reason : String) : (stopException reason).passes = true := by
  unfold stopException
  split <;> rfl

theorem raiseIfStopped_emits : Emits (raiseIfStopped world) fun r new =>
    Silent new ∧ ∀ e, r = .error e → e.passes = true := by
  refine Emits.bind (P := fun r new => Silent new ∧ ∃ reason, r = .ok reason)
    (Emits.ask fun reason => ⟨silent_singleton trivial, reason, rfl⟩) ?_ ?_
  · rintro e new ⟨-, reason, hreason⟩
    cases hreason
  · rintro reason new ⟨hsilent, -⟩
    cases reason with
    | none =>
      refine Emits.pure ⟨?_, nofun⟩
      rw [List.append_nil]
      exact hsilent
    | some reason =>
      refine Emits.raise ⟨?_, ?_⟩
      · rw [List.append_nil]
        exact hsilent
      · rintro e he
        cases he
        exact stopException_passes reason

/-- What one model invocation adds to the log. -/
def Invoked (intent : AgentOutputIntent) (messages : List AgentMessage)
    (r : Except Fault (String × ModelStream)) (new : List Event) : Prop :=
  (Silent new ∧ ∃ e, r = .error e ∧ e.passes = true) ∨
  ∃ before reply after, new = before ++ .invoked intent messages reply :: after ∧
    Silent before ∧ Silent after ∧
    (∀ answer stream, r = .ok (answer, stream) → reply = .ok stream ∧ stream.Completes answer) ∧
    ∀ e stream, r = .error e → reply = .ok stream → intent = .finalPublic → e.passes = false →
      stream.Clean → stream.Visible → e.retryable = false

theorem invokeAndCollect_emits (messages : List AgentMessage) (intent : AgentOutputIntent) :
    Emits (invokeAndCollect world messages intent) (Invoked intent messages) := by
  refine Emits.bind raiseIfStopped_emits ?_ ?_
  · rintro e new ⟨hsilent, hpasses⟩
    exact Or.inl ⟨hsilent, e, rfl, hpasses e rfl⟩
  rintro - before ⟨hbefore, -⟩
  refine Emits.bind (call_emits (P := fun r new => new = [.invoked intent messages r])
    fun reply => rfl) ?_ ?_
  · rintro e new rfl
    exact Or.inr ⟨before, .error e, [], rfl, hbefore, Silent.nil, fun _ _ h => (nomatch h),
      fun _ _ _ h => (nomatch h)⟩
  rintro stream new rfl
  have hlog : ∀ after : List Event, before ++ ([.invoked intent messages (.ok stream)] ++ after) =
      before ++ .invoked intent messages (.ok stream) :: after := fun _ => rfl
  generalize hcollect : stream.collect = result
  obtain ⟨collected, raised⟩ := result
  cases raised with
  | some fault =>
    refine Emits.ite (fun hpasses => Emits.raise ?_) fun hpasses => ?_
    · refine Or.inr ⟨before, .ok stream, [], rfl, hbefore, Silent.nil, fun _ _ h => (nomatch h), ?_⟩
      rintro e stream' he hreply - hnot
      cases he
      rw [hpasses] at hnot
      cases hnot
    · refine Emits.bind raiseIfStopped_emits ?_ ?_
      · rintro e after ⟨hafter, hstop⟩
        refine Or.inr ⟨before, .ok stream, after, hlog after, hbefore, hafter, fun _ _ h => (nomatch h), ?_⟩
        rintro e' stream' he hreply - hnot
        cases he
        rw [hstop e rfl] at hnot
        cases hnot
      · rintro - after ⟨hafter, -⟩
        refine Emits.raise (Or.inr ⟨before, .ok stream, after, ?_, hbefore, hafter, fun _ _ h => (nomatch h), ?_⟩)
        · rw [List.append_nil]
          exact hlog after
        · rintro e stream' he hreply rfl - hclean hvisible
          cases he
          cases hreply
          exact not_retryable_of_visible hclean hvisible hcollect (Bool.eq_false_iff.2 hpasses)
  | none =>
    refine Emits.bind raiseIfStopped_emits ?_ ?_
    · rintro e after ⟨hafter, hstop⟩
      refine Or.inr ⟨before, .ok stream, after, hlog after, hbefore, hafter, fun _ _ h => (nomatch h), ?_⟩
      rintro e' stream' he hreply - hnot
      cases he
      rw [hstop e rfl] at hnot
      cases hnot
    · rintro - after ⟨hafter, -⟩
      cases hfinish : finishCollected intent collected with
      | ok answer =>
        refine Emits.pure (Or.inr ⟨before, .ok stream, after, ?_, hbefore, hafter, ?_, fun _ _ h => (nomatch h)⟩)
        · rw [List.append_nil]
          exact hlog after
        · rintro answer' stream' hok
          cases hok
          exact ⟨rfl, completes_of_collect hcollect hfinish⟩
      | error fault =>
        refine Emits.raise (Or.inr ⟨before, .ok stream, after, ?_, hbefore, hafter, fun _ _ h => (nomatch h), ?_⟩)
        · rw [List.append_nil]
          exact hlog after
        · rintro e stream' he hreply rfl - hclean hvisible
          cases he
          cases hreply
          exact finish_not_retryable (content_of_visible hvisible hcollect) hfinish

theorem operate_emits (operation : OperationCall) :
    Emits (operate world transaction operation) fun _ new => Silent new :=
  Emits.ite (fun _ => call_emits fun _ => silent_singleton trivial) fun _ => Emits.pure Silent.nil

/-- Every one of some checks accepted a text. -/
def Passed (event : Nat → String → Except Fault (Option Verdict) → Event) (indexes : List Nat)
    (content : String) (log : List Event) : Prop :=
  ∀ index ∈ indexes, event index content (.ok (some .accepted)) ∈ log

variable {after before : List Event}

variable {event : Nat → String → Except Fault (Option Verdict) → Event} {indexes : List Nat}
  {content : String}

theorem Passed.cons {index : Nat} {between : List Event} (h : Passed event indexes content after) :
    Passed event (index :: indexes) content
      (before ++ (event index content (.ok (some .accepted)) :: between ++ after)) := by
  refine List.forall_mem_cons.2 ⟨by simp, fun index' hindex => ?_⟩
  have hmem := h index' hindex
  simp [hmem]

/-- What the validators add to the log. -/
theorem validateFrom_emits (content : String) (indexes : List Nat) (outcome : ValidationOutcome) :
    Emits (validateFrom world transaction content indexes outcome) fun r new => Silent new ∧
      ∀ outcome', r = .ok outcome' → outcome'.error = none → outcome'.violationCodes = [] →
        outcome.violationCodes = [] ∧ Passed .validated indexes content new := by
  induction indexes generalizing outcome with
  | nil =>
    refine Emits.pure ⟨Silent.nil, fun outcome' hok _ hnone => ?_⟩
    cases hok
    exact ⟨hnone, fun _ hindex => absurd hindex List.not_mem_nil⟩
  | cons index indexes ih =>
    refine Emits.bind (operate_emits _) (fun e new h => ⟨h, fun _ hok => nomatch hok⟩) ?_
    intro _ before hbefore
    refine Emits.bind (P := fun r new => ∃ reply, r = .ok reply ∧
      new = [.validated index content reply]) (Emits.ask fun reply => ⟨reply, rfl, rfl⟩) ?_ ?_
    · rintro e new ⟨reply, hreply, -⟩
      cases hreply
    rintro reply new ⟨reply', hreply, rfl⟩
    cases hreply
    have hevent : Silent [Event.validated index content reply] := silent_singleton trivial
    -- A validator that fails or rejects leaves an error or a code behind.
    have hfailed : ∀ {code : String} {fault : Fault}, Emits
        (operate world transaction (.fail code) >>= fun _ =>
          (pure { error := some fault } : Script ValidationOutcome))
        fun r more => Silent (before ++ ([Event.validated index content reply] ++ more)) ∧
          ∀ outcome', r = .ok outcome' → outcome'.error = none → outcome'.violationCodes = [] →
            outcome.violationCodes = [] ∧ Passed .validated (index :: indexes) content
              (before ++ ([Event.validated index content reply] ++ more)) := by
      intro code fault
      refine Emits.bind (operate_emits _)
        (fun e more h => ⟨hbefore.append (hevent.append h), fun _ hok => nomatch hok⟩) ?_
      intro _ more hmore
      refine Emits.pure ⟨?_, ?_⟩
      · rw [List.append_nil]
        exact hbefore.append (hevent.append hmore)
      · intro outcome' hok herror
        cases hok
        cases herror
    cases reply with
    | error fault =>
      refine Emits.ite (fun _ => Emits.raise ⟨?_, fun _ hok => nomatch hok⟩) fun _ => hfailed
      rw [List.append_nil]
      exact hbefore.append hevent
    | ok result =>
      cases result with
      | none => exact hfailed
      | some verdict =>
        refine Emits.bind (operate_emits _)
          (fun e more h => ⟨hbefore.append (hevent.append h), fun _ hok => nomatch hok⟩) ?_
        intro _ between hbetween
        cases verdict with
        | accepted =>
          refine (ih outcome).mono fun r after h => ⟨?_, fun outcome' hok herror hnone => ?_⟩
          · exact hbefore.append (hevent.append (hbetween.append h.1))
          · obtain ⟨hcodes, hpassed⟩ := h.2 outcome' hok herror hnone
            exact ⟨hcodes, hpassed.cons⟩
        | rejected code guidance =>
          refine (ih _).mono fun r after h => ⟨?_, fun outcome' hok herror hnone => ?_⟩
          · exact hbefore.append (hevent.append (hbetween.append h.1))
          · obtain ⟨hcodes, -⟩ := h.2 outcome' hok herror hnone
            exact absurd hcodes (List.append_ne_nil_of_right_ne_nil _ (List.cons_ne_nil _ _))

theorem settleJudge_emits (fault : Fault) :
    Emits (settleJudge world transaction fault) fun _ new => Silent new := by
  unfold settleJudge
  split
  · exact operate_emits _
  · exact operate_emits _
  · exact operate_emits _

/-- What the judges add to the log. -/
theorem judgeFrom_emits (content : String) (indexes : List Nat) (found : List String × List String) :
    Emits (judgeFrom world transaction content indexes found) fun r new => Silent new ∧
      ∀ found', r = .ok found' → found'.1 = [] →
        found.1 = [] ∧ Passed .judged indexes content new := by
  induction indexes generalizing found with
  | nil =>
    refine Emits.pure ⟨Silent.nil, fun found' hok hnone => ?_⟩
    cases hok
    exact ⟨hnone, fun _ hindex => absurd hindex List.not_mem_nil⟩
  | cons index indexes ih =>
    refine Emits.bind (operate_emits _) (fun e new h => ⟨h, fun _ hok => nomatch hok⟩) ?_
    intro _ before hbefore
    refine Emits.bind (P := fun r new => ∃ reply, r = .ok reply ∧
      new = [.judged index content reply]) (Emits.ask fun reply => ⟨reply, rfl, rfl⟩) ?_ ?_
    · rintro e new ⟨reply, hreply, -⟩
      cases hreply
    rintro reply new ⟨reply', hreply, rfl⟩
    cases hreply
    have hevent : Silent [Event.judged index content reply] := silent_singleton trivial
    have hraised : ∀ {m : Script Unit} {fault : Fault}, (Emits m fun _ new => Silent new) → Emits
        (m >>= fun _ => (Action.raise fault : Script (List String × List String)))
        fun r more => Silent (before ++ ([Event.judged index content reply] ++ more)) ∧
          ∀ found', r = .ok found' → found'.1 = [] →
            found.1 = [] ∧ Passed .judged (index :: indexes) content
              (before ++ ([Event.judged index content reply] ++ more)) := by
      intro m fault hm
      refine Emits.bind hm
        (fun e more h => ⟨hbefore.append (hevent.append h), fun _ hok => nomatch hok⟩) ?_
      intro _ more hmore
      refine Emits.raise ⟨?_, fun _ hok => nomatch hok⟩
      rw [List.append_nil]
      exact hbefore.append (hevent.append hmore)
    cases reply with
    | error fault =>
      refine Emits.ite (fun _ => Emits.raise ⟨?_, fun _ hok => nomatch hok⟩)
        fun _ => hraised (settleJudge_emits fault)
      rw [List.append_nil]
      exact hbefore.append hevent
    | ok result =>
      cases result with
      | none => exact hraised (operate_emits _)
      | some verdict =>
        refine Emits.bind (operate_emits _)
          (fun e more h => ⟨hbefore.append (hevent.append h), fun _ hok => nomatch hok⟩) ?_
        intro _ between hbetween
        cases verdict with
        | accepted =>
          refine (ih found).mono fun r after h => ⟨?_, fun found' hok hnone => ?_⟩
          · exact hbefore.append (hevent.append (hbetween.append h.1))
          · obtain ⟨hcodes, hpassed⟩ := h.2 found' hok hnone
            exact ⟨hcodes, hpassed.cons⟩
        | rejected code guidance =>
          refine (ih _).mono fun r after h => ⟨?_, fun found' hok hnone => ?_⟩
          · exact hbefore.append (hevent.append (hbetween.append h.1))
          · obtain ⟨hcodes, -⟩ := h.2 found' hok hnone
            exact absurd hcodes (List.append_ne_nil_of_right_ne_nil _ (List.cons_ne_nil _ _))

/-- Every check accepted a text. -/
structure Approved (transaction : Transaction) (content : String) (log : List Event) : Prop where
  validators : Passed .validated (List.range transaction.validators) content log
  judges : Passed .judged (List.range transaction.judges) content log

variable {log new : List Event}

theorem Passed.append_left (h : Passed event indexes content log)
    (before : List Event) : Passed event indexes content (before ++ log) :=
  fun index hindex => List.mem_append_right _ (h index hindex)

theorem Passed.append_right (h : Passed event indexes content log)
    (after : List Event) : Passed event indexes content (log ++ after) :=
  fun index hindex => List.mem_append_left _ (h index hindex)

/-- **A candidate that is let through** has been accepted by every check. -/
theorem validateCandidate_emits (candidate : String) :
    Emits (validateCandidate world transaction candidate) fun r new => Silent new ∧
      (r = .ok () → Approved transaction candidate new) := by
  refine Emits.bind (validateFrom_emits candidate _ _) (fun e new h => ⟨h.1, fun hok => nomatch hok⟩) ?_
  rintro outcome new ⟨hsilent, hpassed⟩
  cases herror : outcome.error with
  | some fault =>
    refine Emits.raise ⟨?_, fun hok => nomatch hok⟩
    rw [List.append_nil]
    exact hsilent
  | none =>
    refine Emits.bind (P := fun r more => Silent more ∧ ∀ found, r = .ok found → found.1 = [] →
      outcome.violationCodes = [] ∧
        Passed .judged (List.range transaction.judges) candidate more) ?_ ?_ ?_
    · unfold judgeCandidate
      refine Emits.ite (fun _ => judgeFrom_emits candidate _ _) fun hcodes => Emits.pure ?_
      refine ⟨Silent.nil, fun found hok hnone => ?_⟩
      cases hok
      exact absurd hnone hcodes
    · exact fun e more h => ⟨hsilent.append h.1, fun hok => nomatch hok⟩
    · rintro ⟨violations, repairGuidance⟩ more ⟨hmore, hjudged⟩
      refine Emits.ite (fun hnone => Emits.pure ⟨?_, fun _ => ?_⟩)
        fun _ => Emits.raise ⟨?_, fun hok => nomatch hok⟩
      · rw [List.append_nil]
        exact hsilent.append hmore
      · rw [List.append_nil]
        obtain ⟨hcodes, hjudges⟩ := hjudged _ rfl hnone
        obtain ⟨-, hvalidators⟩ := hpassed outcome rfl herror hcodes
        exact ⟨hvalidators.append_right more, hjudges.append_left new⟩
      · rw [List.append_nil]
        exact hsilent.append hmore

/-! ## The attempts -/

/-- The last candidate stream was read to its end, and every check then accepted its text. -/
def Accepted (transaction : Transaction) (text : String) (log : List Event) : Prop :=
  ∃ earlier messages stream rest,
    log = earlier ++ .invoked .structuredPrivate messages (.ok stream) :: rest ∧
      stream.Completes text ∧ invocations .structuredPrivate rest = [] ∧
      Approved transaction text rest

theorem Accepted.prepend {text : String} (h : Accepted transaction text log)
    (before : List Event) : Accepted transaction text (before ++ log) := by
  obtain ⟨earlier, messages, stream, rest, rfl, hstream, hrest, happroved⟩ := h
  exact ⟨before ++ earlier, messages, stream, rest, by simp, hstream, hrest, happroved⟩

variable {messages : List AgentMessage}

variable {intent : AgentOutputIntent} {reply : Invocation}

theorem invocations_invoked (hbefore : Silent before) (hafter : Silent after) :
    invocations intent (before ++ .invoked intent messages reply :: after) = [reply] := by
  have hevent : invocations intent (.invoked intent messages reply :: after) =
      reply :: invocations intent after :=
    List.filterMap_cons_some (if_pos rfl)
  rw [invocations_append, hevent, hbefore.invocations, hafter.invocations]
  rfl

theorem invocations_other {intent' : AgentOutputIntent} (h : intent ≠ intent')
    (hbefore : Silent before) (hafter : Silent after) :
    invocations intent' (before ++ .invoked intent messages reply :: after) = [] := by
  have hevent : invocations intent' (.invoked intent messages reply :: after) =
      invocations intent' after :=
    List.filterMap_cons_none (if_neg h)
  rw [invocations_append, hevent, hbefore.invocations, hafter.invocations]
  rfl

theorem commits_invoked (hbefore : Silent before)
    (hafter : Silent after) : commits (before ++ .invoked intent messages reply :: after) = [] := by
  have hevent : commits (.invoked intent messages reply :: after) = commits after :=
    List.filterMap_cons_none rfl
  rw [commits_append, hevent, hbefore.commits, hafter.commits]
  rfl

/-- What an attempt at a candidate adds to the log. -/
theorem candidateAttempt_emits (messages : List AgentMessage) :
    Emits (candidateAttempt world transaction messages) fun r new =>
      commits new = [] ∧ invocations .finalPublic new = [] ∧
      (invocations .structuredPrivate new).length ≤ 1 ∧
      ∀ attempt, r = .ok attempt → ∃ before stream after,
        new = before ++ .invoked .structuredPrivate messages (.ok stream) :: after ∧
          stream.Completes attempt.1 ∧ Silent after := by
  have hlog : ∀ {r : Except Fault (String × ModelStream)} {new : List Event},
      Invoked .structuredPrivate messages r new → commits new = [] ∧
        invocations .finalPublic new = [] ∧ (invocations .structuredPrivate new).length ≤ 1 := by
    rintro r new (⟨hsilent, -⟩ | ⟨before, reply, after, rfl, hbefore, hafter, -⟩)
    · rw [hsilent.commits, hsilent.invocations, hsilent.invocations]
      exact ⟨rfl, rfl, Nat.zero_le _⟩
    · rw [commits_invoked hbefore hafter, invocations_other (by decide) hbefore hafter,
        invocations_invoked hbefore hafter]
      exact ⟨rfl, rfl, Nat.le_refl _⟩
  refine Emits.bind (invokeAndCollect_emits messages .structuredPrivate) ?_ ?_
  · intro e new h
    obtain ⟨hcommits, hpublic, hprivate⟩ := hlog h
    exact ⟨hcommits, hpublic, hprivate, fun _ hok => nomatch hok⟩
  · rintro ⟨candidate, stream⟩ new h
    obtain ⟨hcommits, hpublic, hprivate⟩ := hlog h
    have hstream : ∃ before after, new =
        before ++ .invoked .structuredPrivate messages (.ok stream) :: after ∧
          stream.Completes candidate ∧ Silent after := by
      rcases h with ⟨-, e, he, -⟩ | ⟨before, reply, after, hnew, -, hafter, hok, -⟩
      · cases he
      · obtain ⟨rfl, hcompletes⟩ := hok candidate stream rfl
        exact ⟨before, after, hnew, hcompletes, hafter⟩
    obtain ⟨before, after, hnew, hcompletes, hafter⟩ := hstream
    have hpure : ∀ reference : Option OutputTextReference, Emits
        (pure (candidate, reference) : Script (String × Option OutputTextReference)) fun r more =>
          commits (new ++ more) = [] ∧ invocations .finalPublic (new ++ more) = [] ∧
          (invocations .structuredPrivate (new ++ more)).length ≤ 1 ∧
          ∀ attempt, r = .ok attempt → ∃ before stream after,
            new ++ more = before ++ .invoked .structuredPrivate messages (.ok stream) :: after ∧
              stream.Completes attempt.1 ∧ Silent after := by
      intro reference
      refine Emits.pure ?_
      rw [List.append_nil]
      refine ⟨hcommits, hpublic, hprivate, fun attempt hok => ?_⟩
      cases hok
      exact ⟨before, stream, after, hnew, hcompletes, hafter⟩
    refine Emits.ite (fun _ => ?_) fun _ => hpure none
    cases referenceFor world transaction candidate stream with
    | ok reference => exact hpure (some reference)
    | error fault =>
      refine Emits.raise ?_
      rw [List.append_nil]
      exact ⟨hcommits, hpublic, hprivate, fun _ hok => nomatch hok⟩

/-- What the attempts at a candidate add to the log. -/
structure CandidateLog (transaction : Transaction) (attempts : Nat)
    (r : Except Fault (String × Option OutputTextReference)) (new : List Event) : Prop where
  commits : commits new = []
  presentations : invocations .finalPublic new = []
  attempts : (invocations .structuredPrivate new).length ≤ attempts
  accepted : ∀ attempt, r = .ok attempt → Accepted transaction attempt.1 new

theorem candidateStep_emits {candidateMessages : List AgentMessage} {left : Nat}
    {retry : Fault → List AgentMessage → Script (String × Option OutputTextReference)}
    (hretry : ∀ fault next, Emits (retry fault next) (CandidateLog transaction left)) :
    Emits (candidateStep world transaction messages candidateMessages retry)
      (CandidateLog transaction (left + 1)) := by
  refine Emits.bind (candidateAttempt_emits candidateMessages) ?_ ?_
  · rintro e new ⟨hcommits, hpublic, hprivate, -⟩
    exact ⟨hcommits, hpublic, by omega, fun _ hok => nomatch hok⟩
  rintro attempt new ⟨hcommits, hpublic, hprivate, hstream⟩
  obtain ⟨before, stream, after, hnew, hcompletes, hafter⟩ := hstream attempt rfl
  refine Emits.bind (validateCandidate_emits attempt.1).attempt ?_ ?_
  · rintro e more ⟨_, he, -⟩
    cases he
  rintro outcome more ⟨_, houtcome, hmore, happroved⟩
  cases houtcome
  -- What comes later is all that is added to the one invocation of this attempt.
  have hlater : ∀ {r : Except Fault (String × Option OutputTextReference)} {later : List Event},
      CandidateLog transaction left r later →
        CandidateLog transaction (left + 1) r (new ++ (more ++ later)) := by
    intro r later h
    refine ⟨?_, ?_, ?_, fun attempt' hok => ?_⟩
    · rw [commits_append, commits_append, hcommits, hmore.commits, h.commits]
      rfl
    · rw [invocations_append, invocations_append, hpublic, hmore.invocations, h.presentations]
      rfl
    · rw [invocations_append, invocations_append, hmore.invocations, List.nil_append,
        List.length_append]
      have hattempts := h.attempts
      omega
    · exact ((h.accepted attempt' hok).prepend more).prepend new
  have hraise : ∀ fault : Fault, Emits
      (Action.raise fault : Script (String × Option OutputTextReference)) fun r later =>
        CandidateLog transaction (left + 1) r (new ++ (more ++ later)) := fun fault =>
    Emits.raise (hlater ⟨rfl, rfl, Nat.zero_le _, fun _ hok => nomatch hok⟩)
  cases outcome with
  | ok _ =>
    refine Emits.pure ?_
    rw [List.append_nil]
    refine ⟨?_, ?_, ?_, fun attempt' hok => ?_⟩
    · rw [commits_append, hcommits, hmore.commits]
      rfl
    · rw [invocations_append, hpublic, hmore.invocations]
      rfl
    · rw [invocations_append, hmore.invocations, List.append_nil]
      omega
    · cases hok
      have happroved := happroved rfl
      refine ⟨before, candidateMessages, stream, after ++ more, ?_, hcompletes, ?_, ?_⟩
      · rw [hnew]
        simp
      · rw [invocations_append, hafter.invocations, hmore.invocations]
        rfl
      · exact ⟨happroved.validators.append_left after, happroved.judges.append_left after⟩
  | error fault =>
    dsimp only
    split
    · exact (hretry _ _).mono fun r later h => hlater h
    · exact hraise fault

/-- **The attempts at a candidate** are bounded, and end with one that was accepted. -/
theorem candidateLoop_emits (messages : List AgentMessage) (left : Nat)
    (candidateMessages : List AgentMessage) :
    Emits (candidateLoop world transaction messages left candidateMessages)
      (CandidateLog transaction (left + 1)) := by
  induction left generalizing candidateMessages with
  | zero =>
    exact candidateStep_emits fun fault _ =>
      Emits.raise ⟨rfl, rfl, Nat.zero_le _, fun _ hok => nomatch hok⟩
  | succ left ih => exact candidateStep_emits fun _ next => ih next

/-- No invocation follows one that yielded visible content. -/
def ShownOnce (invocations : List Invocation) : Prop :=
  invocations.Pairwise fun earlier _ => ∀ stream, earlier = .ok stream → ¬ stream.Visible

/-- The streams of some invocations are clean. -/
def AllClean (invocations : List Invocation) : Prop :=
  ∀ stream, .ok stream ∈ invocations → stream.Clean

/-- What the attempts at a presentation add to the log. -/
structure PresentLog (attempts : Nat) (new : List Event) : Prop where
  commits : commits new = []
  candidates : invocations .structuredPrivate new = []
  attempts : (invocations .finalPublic new).length ≤ attempts
  shown : AllClean (invocations .finalPublic new) → ShownOnce (invocations .finalPublic new)

theorem PresentLog.of_silent {attempts : Nat} (h : Silent new) :
    PresentLog attempts new where
  commits := h.commits
  candidates := h.invocations _
  attempts := by
    rw [h.invocations]
    exact Nat.zero_le _
  shown := by
    intro _
    rw [h.invocations]
    exact List.Pairwise.nil

theorem presentStep_emits {left : Nat} {retry : Fault → Script String}
    (hretry : ∀ fault, Emits (retry fault) fun _ new => PresentLog left new) :
    Emits (presentStep world messages retry) fun _ new => PresentLog (left + 1) new := by
  refine Emits.bind (invokeAndCollect_emits messages .finalPublic).attempt ?_ ?_
  · rintro e new ⟨_, he, -⟩
    cases he
  rintro outcome new ⟨_, houtcome, hinvoked⟩
  cases houtcome
  -- Without another attempt there is one invocation at most.
  have hlast : ∀ {more : List Event}, Silent more → PresentLog (left + 1) (new ++ more) := by
    intro more hmore
    rcases hinvoked with ⟨hsilent, -⟩ | ⟨before, reply, after, rfl, hbefore, hafter, -⟩
    · exact .of_silent (hsilent.append hmore)
    · have hone : invocations .finalPublic
          ((before ++ .invoked .finalPublic messages reply :: after) ++ more) = [reply] := by
        rw [invocations_append, invocations_invoked hbefore hafter, hmore.invocations]
        rfl
      refine ⟨?_, ?_, ?_, fun _ => ?_⟩
      · rw [commits_append, commits_invoked hbefore hafter, hmore.commits]
        rfl
      · rw [invocations_append, invocations_other (by decide) hbefore hafter, hmore.invocations]
        rfl
      · rw [hone]
        exact Nat.le_add_left _ _
      · rw [hone]
        exact List.pairwise_singleton _ _
  cases outcome with
  | ok answer =>
    refine Emits.pure ?_
    exact hlast Silent.nil
  | error fault =>
    refine Emits.ite (fun _ => Emits.raise (hlast Silent.nil)) fun hpasses => ?_
    refine Emits.bind raiseIfStopped_emits (fun e more h => hlast h.1) ?_
    rintro - more ⟨hmore, -⟩
    refine Emits.ite (fun _ => Emits.raise ?_) fun hretryable => ?_
    · rw [List.append_nil]
      exact hlast hmore
    refine (hretry fault).mono fun _ later hlater => ?_
    have hnot : fault.passes = false := Bool.eq_false_iff.2 hpasses
    rcases hinvoked with ⟨-, e, he, hstop⟩ | ⟨before, reply, after, hnew, hbefore, hafter, -, hseen⟩
    · cases he
      rw [hnot] at hstop
      cases hstop
    have hcommits : commits new = [] := hnew ▸ commits_invoked hbefore hafter
    have hprivate : invocations .structuredPrivate new = [] :=
      hnew ▸ invocations_other (by decide) hbefore hafter
    have hpublic : invocations .finalPublic (new ++ (more ++ later)) =
        reply :: invocations .finalPublic later := by
      rw [invocations_append, invocations_append, hmore.invocations, hnew,
        invocations_invoked hbefore hafter]
      rfl
    refine ⟨?_, ?_, ?_, fun hclean => ?_⟩
    · rw [commits_append, commits_append, hcommits, hmore.commits, hlater.commits]
      rfl
    · rw [invocations_append, invocations_append, hprivate, hmore.invocations, hlater.candidates]
      rfl
    · rw [hpublic, List.length_cons]
      exact Nat.succ_le_succ hlater.attempts
    · rw [hpublic] at hclean ⊢
      refine List.pairwise_cons.2 ⟨fun _ _ stream hstream hvisible => ?_, ?_⟩
      · subst hstream
        have hagain := hseen fault stream rfl rfl rfl hnot
          (hclean stream (List.mem_cons_self ..)) hvisible
        exact hretryable hagain
      · exact hlater.shown fun stream hstream => hclean stream (List.mem_cons_of_mem _ hstream)

/-- **The attempts at a presentation** are bounded, and none follows one that was seen. -/
theorem presentLoop_emits (messages : List AgentMessage) (left : Nat) :
    Emits (presentLoop world messages left) fun _ new => PresentLog (left + 1) new := by
  induction left with
  | zero => exact presentStep_emits fun _ => Emits.raise (.of_silent Silent.nil)
  | succ left ih => exact presentStep_emits fun _ => ih

/-! ## The whole -/

theorem present_emits (committed : AgentRunResult) :
    Emits (present world transaction committed) fun _ new =>
      PresentLog transaction.maxPresentationAttempts new := by
  have hpos := transaction.presentation_pos
  have hraise : ∀ fault : Fault, Emits (Action.raise fault : Script String) fun _ new =>
      PresentLog transaction.maxPresentationAttempts new :=
    fun _ => Emits.raise (.of_silent Silent.nil)
  refine Emits.ite (fun _ => hraise _) fun _ => ?_
  cases transaction.publicPresentation with
  | none => exact Emits.pure (.of_silent Silent.nil)
  | verbatim => exact hraise _
  | modelLive =>
    refine Emits.ite (fun _ => hraise _) fun _ => ?_
    refine Emits.bind (call_emits (P := fun _ new => Silent new) fun _ => silent_singleton trivial)
      (fun _ _ h => .of_silent h) fun facts new hnew => ?_
    have hsame : ∀ {more : List Event}, PresentLog transaction.maxPresentationAttempts more →
        PresentLog transaction.maxPresentationAttempts (new ++ more) := by
      intro more h
      refine ⟨?_, ?_, ?_, ?_⟩
      · rw [commits_append, hnew.commits, h.commits]
        rfl
      · rw [invocations_append, hnew.invocations, h.candidates]
        rfl
      · rw [invocations_append, hnew.invocations]
        exact h.attempts
      · rw [invocations_append, hnew.invocations]
        exact h.shown
    cases facts with
    | none => exact Emits.raise (hsame (.of_silent Silent.nil))
    | some messages =>
      refine (presentLoop_emits messages _).mono fun _ more h => hsame ?_
      rwa [Nat.sub_add_cancel hpos] at h

theorem publish_emits (candidate : String) (committed : Option AgentRunResult) :
    Emits (publish world transaction candidate committed) fun r new =>
      PresentLog transaction.maxPresentationAttempts new ∧
        (transaction.publicPresentation = .verbatim →
          ∀ result, r = .ok result → result.finalResponse = candidate) := by
  have hraise : ∀ {mode : Prop} (fault : Fault), Emits
      (Action.raise fault : Script AgentRunResult) fun r new =>
        PresentLog transaction.maxPresentationAttempts new ∧
          (mode → ∀ result, r = .ok result → result.finalResponse = candidate) :=
    fun _ => Emits.raise ⟨.of_silent Silent.nil, fun _ _ hok => nomatch hok⟩
  cases committed with
  | none => exact hraise _
  | some committed =>
    refine Emits.ite (fun _ => hraise _) fun _ => ?_
    cases transaction.publicPresentation with
    | verbatim =>
      refine Emits.ite (fun _ => hraise _) fun hsame => Emits.pure ?_
      refine ⟨.of_silent Silent.nil, fun _ result hok => ?_⟩
      cases hok
      exact not_not.1 hsame
    | none => exact Emits.pure ⟨.of_silent Silent.nil, nofun⟩
    | modelLive =>
      refine Emits.bind (present_emits committed) (fun _ _ h => ⟨h, nofun⟩) fun _ new h => ?_
      refine Emits.pure ⟨?_, nofun⟩
      rw [List.append_nil]
      exact h

/-- What an execution guarantees. -/
structure Guarantees (transaction : Transaction) (r : Except Fault AgentRunResult)
    (log : List Event) : Prop where
  /-- Nothing is committed, or one text is, accepted by all, and no candidate is asked for later. -/
  committed : commits log = [] ∨ ∃ before text reference reply after,
    log = before ++ .committed text reference reply :: after ∧ commits before = [] ∧
      commits after = [] ∧ Accepted transaction text before ∧
      invocations .structuredPrivate after = []
  candidates : (invocations .structuredPrivate log).length ≤ transaction.maxCandidateAttempts
  presentations : (invocations .finalPublic log).length ≤ transaction.maxPresentationAttempts
  shown : ShownOnce (invocations .finalPublic log)
  verbatim : transaction.publicPresentation = .verbatim →
    ∀ result, r = .ok result → commits log = [result.finalResponse]

theorem guarantees_of_uncommitted {r : Except Fault AgentRunResult} {more : List Event}
    {attempted : Except Fault (String × Option OutputTextReference)}
    (h : CandidateLog transaction transaction.maxCandidateAttempts attempted new)
    (hmore : Silent more) (hr : ∀ result, r ≠ .ok result) :
    Guarantees transaction r (new ++ more) := by
  have hpublic : invocations .finalPublic (new ++ more) = [] := by
    rw [invocations_append, h.presentations, hmore.invocations]
    rfl
  refine ⟨Or.inl ?_, ?_, ?_, ?_, fun _ result hok => absurd hok (hr result)⟩
  · rw [commits_append, h.commits, hmore.commits]
    rfl
  · rw [invocations_append, hmore.invocations, List.append_nil]
    exact h.attempts
  · rw [hpublic]
    exact Nat.zero_le _
  · rw [hpublic]
    exact List.Pairwise.nil

theorem guarantees_of_committed {r : Except Fault AgentRunResult} {between : List Event}
    {attempt : String × Option OutputTextReference} {reply : Except Fault (Option AgentRunResult)}
    (h : CandidateLog transaction transaction.maxCandidateAttempts (.ok attempt) new)
    (hbetween : Silent between) (hafter : PresentLog transaction.maxPresentationAttempts after)
    (hverbatim : transaction.publicPresentation = .verbatim →
      ∀ result, r = .ok result → result.finalResponse = attempt.1)
    (hclean : AllClean (invocations .finalPublic
      (new ++ (between ++ ([.committed attempt.1 attempt.2 reply] ++ after))))) :
    Guarantees transaction r (new ++ (between ++ ([.committed attempt.1 attempt.2 reply] ++ after))) := by
  have hpublic : invocations .finalPublic
      (new ++ (between ++ ([.committed attempt.1 attempt.2 reply] ++ after))) =
        invocations .finalPublic after := by
    rw [invocations_append, invocations_append, h.presentations, hbetween.invocations]
    rfl
  have hprivate : invocations .structuredPrivate
      (new ++ (between ++ ([.committed attempt.1 attempt.2 reply] ++ after))) =
        invocations .structuredPrivate new := by
    rw [invocations_append, invocations_append, invocations_append, hbetween.invocations,
      hafter.candidates]
    exact List.append_nil _
  have hcommits : commits (new ++ (between ++ ([.committed attempt.1 attempt.2 reply] ++ after))) =
      [attempt.1] := by
    rw [commits_append, commits_append, commits_append, h.commits, hbetween.commits, hafter.commits]
    rfl
  rw [hpublic] at hclean
  refine ⟨Or.inr ⟨new ++ between, attempt.1, attempt.2, reply, after, by simp, ?_, hafter.commits,
    ?_, hafter.candidates⟩, ?_, ?_, ?_, ?_⟩
  · rw [commits_append, h.commits, hbetween.commits]
    rfl
  · obtain ⟨earlier, messages, stream, rest, rfl, hstream, hrest, happroved⟩ := h.accepted attempt rfl
    refine ⟨earlier, messages, stream, rest ++ between, by simp, hstream, ?_,
      happroved.validators.append_right between, happroved.judges.append_right between⟩
    rw [invocations_append, hrest, hbetween.invocations]
    rfl
  · rw [hprivate]
    exact h.attempts
  · rw [hpublic]
    exact hafter.attempts
  · rw [hpublic]
    exact hafter.shown hclean
  · intro hmode result hok
    rw [hcommits, hverbatim hmode result hok]

theorem executeValidated_emits (messages : List AgentMessage) :
    Emits (executeValidated world transaction messages) fun r new =>
      AllClean (invocations .finalPublic new) → Guarantees transaction r new := by
  have hpos := transaction.candidate_pos
  refine Emits.ite (fun _ => Emits.raise fun _ => ?_) fun _ => ?_
  · exact ⟨Or.inl rfl, Nat.zero_le _, Nat.zero_le _, List.Pairwise.nil, fun _ _ hok => nomatch hok⟩
  have hloop : Emits (candidateLoop world transaction messages _ messages) _ :=
    candidateLoop_emits messages (transaction.maxCandidateAttempts - 1) messages
  rw [Nat.sub_add_cancel hpos] at hloop
  refine Emits.bind hloop (fun e new h _ => ?_) fun attempt new h => ?_
  · have hlog := guarantees_of_uncommitted (r := .error e) h Silent.nil fun _ hok => nomatch hok
    rwa [List.append_nil] at hlog
  refine Emits.bind raiseIfStopped_emits (fun e more hmore _ => ?_) ?_
  · exact guarantees_of_uncommitted h hmore.1 fun _ hok => nomatch hok
  rintro - between ⟨hbetween, -⟩
  refine Emits.bind (call_emits
    (P := fun r new => ∃ reply, r = reply ∧ new = [.committed attempt.1 attempt.2 reply])
    fun reply => ⟨reply, rfl, rfl⟩) ?_ ?_
  · rintro e new' ⟨reply, -, rfl⟩ hclean
    exact guarantees_of_committed h hbetween (.of_silent Silent.nil) (fun _ _ hok => nomatch hok)
      hclean
  · rintro committed new' ⟨reply, -, rfl⟩
    exact (publish_emits attempt.1 committed).mono fun r after hafter hclean =>
      guarantees_of_committed h hbetween hafter.1 hafter.2 hclean

end

/-- **The guarantees of every execution** whose presentation streams are clean. -/
theorem executeValidated_spec (world : World) (transaction : Transaction)
    (messages : List AgentMessage)
    (hclean : ∀ stream, .ok stream ∈
      invocations .finalPublic (executeValidated world transaction messages []).2 → stream.Clean) :
    Guarantees transaction (executeValidated world transaction messages []).1
      (executeValidated world transaction messages []).2 :=
  (executeValidated_emits messages).run hclean

/-! ## Content that comes with tool calls -/

section

/-- A stream of one text. -/
def answers (text : String) : ModelStream where
  outputStreamId := "output-1"
  invocationId := "invocation-1"
  items := [some { contentDelta := text, finishReason := some .stop }]

/-- A stream whose first content comes with a tool call, and whose closing fails. -/
def answersAndCalls : ModelStream where
  outputStreamId := "output-2"
  invocationId := "invocation-2"
  items := [some { contentDelta := "Hello", toolCallDeltas := [{ index := 0 }] }]
  closing := some (gatewayError "model gateway failed" "model_gateway_error" true)

theorem answered_text : strip "run" = "run" ∧ "run" ≠ "" := by decide

/-- Everything is accepted; the presentations get the streams given, the last of them again. -/
def obligingWorld (first second : ModelStream) : World where
  sha256 := fun _ => ""
  stopped := fun _ => none
  operation := fun _ _ => .ok ()
  stream := fun intent _ log => match intent with
    | .structuredPrivate => .ok (answers "candidate")
    | .finalPublic => .ok (if invocations .finalPublic log = [] then first else second)
  validate := fun _ _ _ => .ok (some .accepted)
  judge := fun _ _ _ => .ok (some .accepted)
  commit := fun _ _ _ => .ok (some ⟨.lit "run" answered_text, .done, "", []⟩)
  facts := fun _ _ => .ok (some [])

instance (log : List Event) : Decidable (invocations .finalPublic log = []) :=
  match invocations .finalPublic log with
  | [] => isTrue rfl
  | _ :: _ => isFalse nofun

/-- The transaction, with its default numbers of attempts. -/
def liveTransaction : Transaction where
  runId := .lit "run" answered_text
  mode := .validatedResult
  publicPresentation := .modelLive
  validators := 1
  judges := 1
  operations := false
  maxCandidateAttempts := 3
  maxPresentationAttempts := 2
  candidate_pos := by decide
  presentation_pos := Nat.two_pos

/-- What happens in the world. -/
def liveLog (first second : ModelStream) : List Event :=
  (executeValidated (obligingWorld first second) liveTransaction [] []).2

theorem executeValidated_spec_answers :
    Guarantees liveTransaction
      (executeValidated (obligingWorld (answers "Hello") (answers "Hello")) liveTransaction [] []).1
      (liveLog (answers "Hello") (answers "Hello")) := by
  refine executeValidated_spec _ _ _ fun stream hstream => ?_
  have hlog : invocations .finalPublic (liveLog (answers "Hello") (answers "Hello")) =
      [.ok (answers "Hello")] := rfl
  have hmem : Except.ok stream ∈
      invocations .finalPublic (liveLog (answers "Hello") (answers "Hello")) := hstream
  rw [hlog] at hmem
  cases List.mem_singleton.1 hmem
  intro chunk hchunk htools
  have hfirst : (handedOver (answers "Hello").items).find? hasContent =
      some (some { contentDelta := "Hello", finishReason := some .stop }) := rfl
  rw [hfirst] at hchunk
  cases hchunk
  exact absurd rfl htools

/-- **A presentation is started behind one that was seen**: its content came with a tool call, so
the transaction has not taken it, and the exception of closing the stream asks for another
attempt. -/
theorem shown_twice :
    ¬ Guarantees liveTransaction
      (executeValidated (obligingWorld answersAndCalls (answers "Hello")) liveTransaction [] []).1
      (liveLog answersAndCalls (answers "Hello")) := by
  intro h
  have hlog : invocations .finalPublic (liveLog answersAndCalls (answers "Hello")) =
      [.ok answersAndCalls, .ok (answers "Hello")] := rfl
  have hshown := h.shown
  rw [hlog] at hshown
  have hnot := (List.pairwise_cons.1 hshown).1 _ (List.mem_singleton_self _) answersAndCalls rfl
  exact hnot ⟨_, List.mem_cons_self .., rfl⟩

end

end Purra.Output.ResponseTransaction
