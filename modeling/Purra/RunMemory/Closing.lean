import Purra.RunMemory.Atomicity

/-!
# What a lifecycle commit closes

A lifecycle commit that ends a Run aborts the streams that are still open, and finishes
the operations that were started and have not ended.  It finds these operations by a scan
of the journal.  The scan does not ask whether the commit ends the Run, and it does not
see the events the commit itself brings.  `LifecycleSettles` is the condition under which
this does no harm; `running_commit_finishes` is a commit that finishes an operation of a
Run that goes on.

`lifecycle_closes` says what is closed then: all streams of a Run that ended, every
operation once, nothing but what the commit names when the Run goes on, and nothing at all
when a commit is repeated.  Where the operations are told apart (`OperationsApart`), it
says that of no other commit that returns.
-/

namespace Purra.RunMemory

open Contracts Output Purra.Action

/-! ## New drafts -/

section

variable {s : RunState} {drafts : List AgentOutputEventDraft}

/-- No two new drafts share a key. -/
theorem newDrafts_nodup : ((newDrafts s drafts).map (·.sourceEventKey)).Nodup := by
  induction drafts using List.reverseRecOn with
  | nil => exact List.nodup_nil
  | append_singleton drafts draft ih =>
    rw [newDrafts_concat]
    unfold addDraft
    split
    · exact ih
    · rename_i hfree
      rw [List.map_append, List.nodup_append']
      refine ⟨ih, List.nodup_singleton _, ?_⟩
      rw [List.map_singleton, List.disjoint_singleton]
      exact fun hmem => hfree (Or.inr hmem)

/-- Lists that share no key do not get in each other's way. -/
theorem newDrafts_append_of_disjoint {rest : List AgentOutputEventDraft}
    (h : ∀ draft ∈ rest, draft.sourceEventKey ∉ (newDrafts s drafts).map (·.sourceEventKey)) :
    newDrafts s (drafts ++ rest) = newDrafts s drafts ++ newDrafts s rest := by
  induction rest using List.reverseRecOn with
  | nil => simp [newDrafts]
  | append_singleton rest draft ih =>
    have hdraft := h draft (by simp)
    rw [← List.append_assoc, newDrafts_concat, newDrafts_concat,
      ih fun other hother => h other (List.mem_append_left _ hother)]
    unfold addDraft
    simp only [List.map_append, List.mem_append]
    by_cases htaken : (s.eventsBySourceKey.get? draft.sourceEventKey).isSome = true ∨
        draft.sourceEventKey ∈ (newDrafts s rest).map (·.sourceEventKey)
    · rw [if_pos htaken, if_pos (htaken.imp_right Or.inr)]
    · rw [if_neg htaken, if_neg, List.append_assoc]
      rintro (hstored | hfirst | hrest)
      · exact htaken (Or.inl hstored)
      · exact hdraft hfirst
      · exact htaken (Or.inr hrest)

/-- Among drafts with distinct keys at most one has a property that fixes the key. -/
theorem countP_le_one {p : AgentOutputEventDraft → Bool} {key : String}
    (hkeys : (drafts.map (·.sourceEventKey)).Nodup)
    (h : ∀ draft ∈ drafts, p draft = true → draft.sourceEventKey = key) : drafts.countP p ≤ 1 := by
  have hnodup : ((drafts.filter p).map (·.sourceEventKey)).Nodup :=
    hkeys.sublist (List.filter_sublist.map _)
  have hall : ∀ k ∈ (drafts.filter p).map (·.sourceEventKey), k = key := by
    intro k hk
    obtain ⟨draft, hdraft, rfl⟩ := List.mem_map.1 hk
    obtain ⟨hmem, hp⟩ := List.mem_filter.1 hdraft
    exact h draft hmem hp
  rw [List.countP_eq_length_filter, ← List.length_map (·.sourceEventKey)]
  generalize (drafts.filter p).map (·.sourceEventKey) = keys at hnodup hall ⊢
  rw [List.eq_replicate_of_mem hall] at hnodup
  exact List.nodup_replicate.1 hnodup

end

/-! ## Operations -/

/-- A draft starts the operation. -/
def starts (operationId : Json) (event : AgentOutputEventDraft) : Prop :=
  event.kind = .operationStarted ∧ Json.field? event.payload "operationId" = some operationId

/-- The operation was started. -/
def Started (drafts : List AgentOutputEventDraft) (operationId : Json) : Prop :=
  ∃ draft ∈ drafts, starts operationId draft

/-- The number of drafts that end an operation. -/
def finishCount (drafts : List AgentOutputEventDraft) (operationId : Json) : Nat :=
  drafts.countP (finishes operationId)

/-- Every operation that was started has ended once. -/
def AllFinished (drafts : List AgentOutputEventDraft) : Prop :=
  ∀ operationId, Started drafts operationId → finishCount drafts operationId = 1

/-- The kinds of events that finish an operation, or close a stream. -/
def closingKinds : List OutputEventKind := [.operationFinished, .streamCommitted, .streamAborted]

theorem finishCount_append (drafts rest : List AgentOutputEventDraft) (operationId : Json) :
    finishCount (drafts ++ rest) operationId =
      finishCount drafts operationId + finishCount rest operationId := List.countP_append

/-- Drafts of other kinds end nothing. -/
theorem finishCount_of_kinds {drafts : List AgentOutputEventDraft}
    (h : ∀ draft ∈ drafts, draft.kind ≠ .operationFinished) (operationId : Json) :
    finishCount drafts operationId = 0 := by
  refine List.countP_eq_zero.2 fun draft hdraft hends => ?_
  unfold finishes at hends
  rw [Bool.and_eq_true, decide_eq_true_eq] at hends
  exact h draft hdraft hends.1

/-- The abort of an operation ends the operations with an equal id. -/
theorem finishes_operationAbortDraft (host : Host) (runId : String) (status : RunStatus)
    (occurredAt : Int) (started : AgentOutputEvent) (operationId otherId : Json) :
    finishes operationId (operationAbortDraft host runId status occurredAt started otherId) =
      Json.pyEq otherId operationId := by
  simp [finishes, operationAbortDraft, Json.get, Json.field?]

section

variable {host : Host} {writer : Writer} {s s' : RunState} {runId : String} {record : StoredRun}
  {change : RunCommit} {draft : RunLifecycleOutputDraft RunStatus} {status : RunStatus}
  {occurredAt : Int} {related final operations : List AgentOutputEventDraft} {control : Bool}
  {plan : LifecyclePlan}

variable {operationId : Json}

/-- Every operation that was started and has not ended gets its abort. -/
theorem mem_operationAborts_of_started
    (h : operationAborts host s runId status occurredAt = .ok operations)
    (hstarted : Started (s.draftsOf runId) operationId)
    (hunfinished : finishCount (s.draftsOf runId) operationId = 0) :
    ∃ started, operationAbortDraft host runId status occurredAt started operationId ∈ operations := by
  obtain ⟨aborts, haborts, h⟩ := bind_eq_ok h
  cases h
  obtain ⟨_, hmem, hkind, hid⟩ := hstarted
  obtain ⟨started, hevent, rfl⟩ := List.mem_map.1 hmem
  refine ⟨started, List.mem_filterMap.2 ⟨some _, ?_, rfl⟩⟩
  have habort : operationAbort host (s.eventsOf runId) runId status occurredAt started =
      .ok (some (operationAbortDraft host runId status occurredAt started operationId)) := by
    have hnone : ¬ (s.eventsOf runId).any (fun event =>
        finishes operationId event.toAgentOutputEventDraft) = true := by
      intro hany
      obtain ⟨event, hevent, hends⟩ := List.any_eq_true.1 hany
      exact List.countP_eq_zero.1 hunfinished _ (List.mem_map_of_mem hevent) hends
    unfold operationAbort
    rw [if_neg (not_not.2 hkind), hid]
    dsimp only
    rw [if_neg hnone]
  obtain ⟨abort, hmem, heq⟩ := exists_mem_of_mapM_eq_ok haborts hevent
  rw [habort] at heq
  cases heq
  exact hmem

/-- An abort is that of an operation that was started, and has not ended. -/
theorem AbortsOperation.unended {started : AgentOutputEvent} {abort : AgentOutputEventDraft}
    (h : AbortsOperation host s runId status occurredAt started operationId abort) :
    Started (s.draftsOf runId) operationId ∧ finishCount (s.draftsOf runId) operationId = 0 := by
  refine ⟨⟨_, List.mem_map_of_mem h.mem, h.kind, h.operation⟩, List.countP_eq_zero.2 ?_⟩
  intro event hevent
  obtain ⟨stored, hstored, rfl⟩ := List.mem_map.1 hevent
  rw [h.unfinished stored hstored]
  exact Bool.false_ne_true

/-! ### The aborts of a commit that went through -/

variable {events : List AgentOutputEvent}

/-- The drafts of an append that went through are in the journal, each as it stands or as an event
it matches. -/
theorem appendAll_matched {mode : AgentOutputEventDraft → AppendMode} {reading : Nat}
    {drafts : List AgentOutputEventDraft}
    (h : appendAll host writer mode reading drafts s = (.ok events, s')) :
    ∀ appended ∈ drafts, ∃ event,
      s'.eventsBySourceKey.get? appended.sourceEventKey = some event ∧
        (event.toAgentOutputEventDraft = appended ∨ eventMatchesDraft event appended = true) := by
  induction drafts generalizing reading s events with
  | nil => exact fun _ hd => absurd hd List.not_mem_nil
  | cons first rest ih =>
    obtain ⟨event, next, hfirst, h⟩ := Action.bind_eq_ok.1 h
    obtain ⟨others, last, hrest, h⟩ := Action.bind_eq_ok.1 h
    cases h
    have hstored : ∀ key event, next.eventsBySourceKey.get? key = some event →
        s'.eventsBySourceKey.get? key = some event := by
      obtain ⟨before, _, hextended⟩ := appendAll_extended host writer mode (reading + 1) rest next
      unfold Action.final at hextended
      rw [hrest] at hextended
      exact hextended.stored
    refine List.forall_mem_cons.2 ⟨⟨event, hstored _ _ (appendEvent_extends host hfirst).2, ?_⟩,
      ih hrest⟩
    have hcases := appendEvent_cases host writer reading first (mode first) s
    rw [hfirst] at hcases
    cases hcases with
    | found _ hfound =>
      right
      unfold existingEvent at hfound
      split at hfound
      · cases hfound
      · split at hfound
        · cases hfound
        · rename_i hmatches
          cases hfound
          simpa using hmatches
    | wrote run hnew hcheck => exact Or.inl rfl

/-- The abort of an operation that matches the abort of another has its id. -/
theorem operationId_of_matches {event : AgentOutputEvent} {started other : AgentOutputEvent}
    {otherId : Json} (hevent : event.toAgentOutputEventDraft =
      operationAbortDraft host runId status occurredAt other otherId)
    (hmatches : eventMatchesDraft event
      (operationAbortDraft host runId status occurredAt started operationId) = true) :
    Json.pyEq otherId operationId = true := by
  have hpayload : event.payload =
      (operationAbortDraft host runId status occurredAt other otherId).payload :=
    congrArg AgentOutputEventDraft.payload hevent
  unfold eventMatchesDraft at hmatches
  rw [hpayload] at hmatches
  simp only [Bool.and_eq_true] at hmatches
  have hequal := hmatches.2
  unfold Json.objectEq operationAbortDraft at hequal
  simp only [Bool.and_eq_true] at hequal
  have hfields := hequal.2
  unfold Json.pyEqFields at hfields
  rw [Bool.and_eq_true] at hfields
  have hfirst := hfields.1
  simpa [Json.field?] using hfirst

/-- The end of an operation among the aborts is its own abort. -/
theorem abort_of_finishes (h : operationAborts host s runId status occurredAt = .ok operations)
    (hids : ∀ otherId, Started (s.draftsOf runId) otherId →
      (Json.pyEq otherId operationId = true ↔ otherId = operationId))
    {abort : AgentOutputEventDraft} (hmem : abort ∈ operations)
    (hends : finishes operationId abort = true) :
    Started (s.draftsOf runId) operationId ∧ finishCount (s.draftsOf runId) operationId = 0 ∧
      abort.sourceEventKey = finishedKey host operationId := by
  obtain ⟨started, otherId, haborts⟩ := mem_operationAborts h hmem
  obtain ⟨hstarted, hunended⟩ := haborts.unended
  rw [haborts.eq, finishes_operationAbortDraft, hids otherId hstarted] at hends
  subst hends
  exact ⟨hstarted, hunended, by rw [haborts.eq]; rfl⟩

/-- The aborts that were appended end every operation once that had not ended, and no other. -/
theorem finishCount_operations (h : operationAborts host s runId status occurredAt = .ok operations)
    (hfree : ∀ abort ∈ operations, s.eventsBySourceKey.get? abort.sourceEventKey = none)
    {now : RunState} (hfound : ∀ abort ∈ newDrafts s operations, ∃ event,
      now.eventsBySourceKey.get? abort.sourceEventKey = some event ∧
        event.toAgentOutputEventDraft = abort) (hmatched : ∀ abort ∈ operations, ∃ event,
      now.eventsBySourceKey.get? abort.sourceEventKey = some event ∧
        (event.toAgentOutputEventDraft = abort ∨ eventMatchesDraft event abort = true))
    (hids : ∀ otherId, Started (s.draftsOf runId) otherId →
      (Json.pyEq otherId operationId = true ↔ otherId = operationId)) :
    (Started (s.draftsOf runId) operationId → finishCount (s.draftsOf runId) operationId = 0 →
        finishCount (newDrafts s operations) operationId = 1) ∧
      (¬ Started (s.draftsOf runId) operationId ∨ finishCount (s.draftsOf runId) operationId ≠ 0 →
        finishCount (newDrafts s operations) operationId = 0) := by
  have habort : ∀ abort ∈ newDrafts s operations, finishes operationId abort = true →
      Started (s.draftsOf runId) operationId ∧ finishCount (s.draftsOf runId) operationId = 0 ∧
        abort.sourceEventKey = finishedKey host operationId := fun abort hmem hends =>
    abort_of_finishes h hids ((newDrafts_sublist s operations).subset hmem) hends
  constructor
  · intro hstarted hunended
    have hmost : finishCount (newDrafts s operations) operationId ≤ 1 :=
      countP_le_one newDrafts_nodup fun abort hmem hends => (habort abort hmem hends).2.2
    -- the abort of the operation is new, or gave way to one that it matches
    obtain ⟨started, hmem⟩ := mem_operationAborts_of_started h hstarted hunended
    obtain ⟨other, hother, hkey⟩ := List.mem_map.1 (mem_keys_newDrafts hmem (hfree _ hmem))
    obtain ⟨event, hget, hevent⟩ := hfound other hother
    obtain ⟨found, hstored, hfits⟩ := hmatched _ hmem
    rw [← hkey, hget] at hstored
    cases hstored
    have hends : finishes operationId other = true := by
      obtain ⟨started', otherId, haborts⟩ :=
        mem_operationAborts h ((newDrafts_sublist s operations).subset hother)
      rcases hfits with hsame | hmatches
      · rw [← hevent, hsame, finishes_operationAbortDraft]
        exact (hids operationId hstarted).2 rfl
      · rw [haborts.eq, finishes_operationAbortDraft]
        rw [haborts.eq] at hevent
        exact operationId_of_matches hevent hmatches
    have hleast : 0 < finishCount (newDrafts s operations) operationId :=
      List.countP_pos_iff.2 ⟨other, hother, hends⟩
    omega
  · intro hnot
    refine List.countP_eq_zero.2 fun abort hmem hends => ?_
    obtain ⟨hstarted, hunended, -⟩ := habort abort hmem hends
    exact hnot.elim (fun h => h hstarted) fun h => h hunended

/-! ## The condition -/

variable (host s runId) in
/-- Operations are told apart by their ids, and no related draft takes the key of the end of one that
has not ended. -/
structure OperationsApart (related : List AgentOutputEventDraft) : Prop where
  ids : ∀ operationId otherId,
    Started (s.draftsOf runId ++ (newDrafts s related).filter fun d => d.runId = runId)
      operationId → Started (s.draftsOf runId) otherId →
    (Json.pyEq otherId operationId = true ↔ otherId = operationId)
  keys : ∀ operationId, Started (s.draftsOf runId) operationId →
    finishCount (s.draftsOf runId) operationId = 0 →
    ∀ d ∈ related, d.sourceEventKey ≠ finishedKey host operationId

variable (host s runId) in
/-- The condition on a new commit that ends the Run: the operations it finds in the journal have
ended at most once and get no end from the commit itself, and those that only the commit starts end
once. -/
structure EndsSettled (related : List AgentOutputEventDraft) : Prop
    extends OperationsApart host s runId related where
  started : ∀ operationId, Started (s.draftsOf runId) operationId →
    finishCount (s.draftsOf runId) operationId ≤ 1 ∧
      finishCount ((newDrafts s related).filter fun d => d.runId = runId) operationId = 0
  brought : ∀ operationId, ¬ Started (s.draftsOf runId) operationId →
    Started ((newDrafts s related).filter fun d => d.runId = runId) operationId →
    finishCount (s.draftsOf runId) operationId +
      finishCount ((newDrafts s related).filter fun d => d.runId = runId) operationId = 1

variable (host s runId) in
/-- The condition on a lifecycle commit: when the Run goes on, no operation is under way; when it
ends, `EndsSettled`; and when the commit is repeated, nothing is left to be ended. -/
structure LifecycleSettles (change : RunCommit) (draft : RunLifecycleOutputDraft RunStatus)
    (related : List AgentOutputEventDraft) : Prop where
  quiet : change.terminalStatus = none → s.eventsBySourceKey.get? draft.sourceEventKey = none →
    ∀ operationId, Started (s.draftsOf runId) operationId →
      finishCount (s.draftsOf runId) operationId ≠ 0
  ends : change.terminalStatus ≠ none → s.eventsBySourceKey.get? draft.sourceEventKey = none →
    EndsSettled host s runId related
  repeated : change.terminalStatus ≠ none → s.eventsBySourceKey.get? draft.sourceEventKey ≠ none →
    AllFinished (s.draftsOf runId)

variable (host writer s runId) in
/-- What a lifecycle commit that went through has closed. -/
structure LifecycleCloses (change : RunCommit) (draft : RunLifecycleOutputDraft RunStatus)
    (related : List AgentOutputEventDraft) (s' : RunState) : Prop where
  streams : change.terminalStatus ≠ none → ∀ id stream, s'.streams.get? id = some stream →
    stream.spec.runId = runId → stream.status ≠ .opened
  operations : change.terminalStatus ≠ none → AllFinished (s'.draftsOf runId)
  repeated : ∀ again : Writer,
    (commitRunLifecycle host again runId change draft related s').2 = s'
  running : change.terminalStatus = none → s'.streams = s.streams ∧
    ∀ other, ∃ news, s'.draftsOf other = s.draftsOf other ++ news ∧
      ∀ d ∈ news, d.kind ∈ closingKinds → d ∈ related

/-! ## New commits -/

/-- The kinds of the events that publish an answer. -/
theorem finalDrafts_kind (h : finalDrafts host s runId change occurredAt = .ok final)
    {published : AgentOutputEventDraft} (hmem : published ∈ final) :
    published.kind = .providerContentDelta ∨ published.kind = .streamCommitted := by
  rcases finalDrafts_eq_ok h with ⟨-, rfl⟩ | ⟨_, _, -, -, h⟩
  · cases hmem
  · obtain ⟨-, -, rfl⟩ := verbatimPublicationDrafts_eq_ok.1 h
    rcases List.mem_append.1 hmem with hframe | hlast
    · obtain ⟨frame, _, rfl⟩ := List.mem_map.1 hframe
      exact Or.inl rfl
    · rw [List.mem_singleton.1 hlast]
      exact Or.inr rfl

/-- The drafts of a commit behind its aborts of operations and its related drafts. -/
def lastDrafts (validated : Option AgentOutputEventDraft)
    (final aborts : List AgentOutputEventDraft) (lifecycle : AgentOutputEventDraft) :
    List AgentOutputEventDraft := validated.toList ++ (final ++ (aborts ++ [lifecycle]))

theorem atomicDrafts_eq (validated : Option AgentOutputEventDraft)
    (final aborts : List AgentOutputEventDraft) (lifecycle : AgentOutputEventDraft) :
    atomicDrafts operations related validated final aborts lifecycle =
      (operations ++ related) ++ lastDrafts validated final aborts lifecycle := by
  unfold atomicDrafts lastDrafts
  simp only [List.append_assoc]

/-- They neither start nor end an operation. -/
theorem LifecyclePlan.Checked.lastDrafts_kind
    (h : plan.Checked host writer s runId record change draft related final control operations)
    (hfinal : finalDrafts host s runId change draft.occurredAt = .ok final)
    {last : AgentOutputEventDraft}
    (hmem : last ∈ lastDrafts (validatedDraft runId draft.turnId change draft.occurredAt) final
      plan.aborts
      (lifecycleDraft runId draft.turnId draft.sourceEventKey draft.payload draft.occurredAt)) :
    last.kind ≠ .operationStarted ∧ last.kind ≠ .operationFinished := by
  unfold lastDrafts at hmem
  simp only [List.mem_append, Option.mem_toList, List.mem_singleton] at hmem
  rcases hmem with hvalidated | hpublished | habort | rfl
  · obtain ⟨content, _, rfl⟩ := Option.map_eq_some_iff.1 hvalidated
    simp
  · rcases finalDrafts_kind hfinal hpublished with hkind | hkind <;> simp [hkind]
  · rw [h.aborts_eq] at habort
    obtain ⟨terminal, stream, _, hstream, rfl⟩ := mem_terminalAbortDrafts habort
    simp [terminalStreamAbortDraft, streamDraft]
  · simp [lifecycleDraft]

/-- What a new lifecycle commit that went through has done to the tables. -/
structure FreshCommitted (s s' : RunState) (runId : String) (change : RunCommit)
    (plan : LifecyclePlan) : Prop where
  drafts : ∀ other, s'.draftsOf other =
    s.draftsOf other ++ (newDrafts s plan.drafts).filter fun d => d.runId = other
  found : ∀ d ∈ newDrafts s plan.drafts, ∃ event,
    s'.eventsBySourceKey.get? d.sourceEventKey = some event ∧ event.toAgentOutputEventDraft = d
  matched : ∀ d ∈ plan.drafts, ∃ event,
    s'.eventsBySourceKey.get? d.sourceEventKey = some event ∧
      (event.toAgentOutputEventDraft = d ∨ eventMatchesDraft event d = true)
  streams : ∀ id, s'.streams.get? id = (s.streams.get? id).map (closedWith runId change)

theorem LifecyclePlan.Checked.committed
    (h : plan.Checked host writer s runId record change draft related final control operations)
    (hkeyed : s.Keyed)
    (hcommit : applyLifecycle host writer runId change control (.fresh plan) s = (.ok events, s')) :
    FreshCommitted s s' runId change plan ∧
      (change.terminalStatus = none → s'.streams = s.streams) := by
  obtain ⟨s₁, now, hrecord, happend, hclose⟩ := applyFresh_stages host hcommit
  obtain ⟨found, found', -, -, rfl⟩ := onRun_eq_ok host hrecord
  have hextended : Extended (s.withRun runId found') now (newDrafts s plan.drafts) := by
    have hcases := appendAll_cases host writer (lifecycleMode plan.final control)
      (plan.drafts.length + 1) plan.drafts (s.withRun runId found')
    unfold RunState.withRun at hcases ⊢
    rw [happend] at hcases
    cases hcases with
    | went _ hextended _ => exact hextended
  have hmatched := appendAll_matched happend
  have hstreams : now.streams = s.streams := hextended.streams
  obtain ⟨streams, happly, hclosed⟩ := @terminalAborts_apply host s runId change
    hkeyed now hstreams draft.occurredAt
  rw [h.aborts_eq, happly] at hclose
  cases hclose
  refine ⟨⟨hextended.drafts, hextended.found, hmatched, hclosed⟩, fun hnone => ?_⟩
  rw [hnone] at happly
  have hsame := congrArg (fun result => result.2.streams) happly
  exact hsame.symm.trans hstreams

/-! ## Commits that end the Run -/

/-- No stream of the Run is open any more. -/
theorem closed_streams
    (hstreams : ∀ id, s'.streams.get? id = (s.streams.get? id).map (closedWith runId change))
    (hends : change.terminalStatus ≠ none) {id : String} {stream : StoredStream}
    (hget : s'.streams.get? id = some stream) (hrun : stream.spec.runId = runId) :
    stream.status ≠ .opened := by
  rw [hstreams id] at hget
  obtain ⟨before, _, rfl⟩ := Option.map_eq_some_iff.1 hget
  unfold closedWith at hrun ⊢
  split
  · simp [StoredStream.terminalized]
  · rename_i hkept
    rw [if_neg hkept] at hrun
    exact fun hopen => hkept ⟨hends, hrun, hopen⟩

/-- The new drafts of the Run: the aborts of its operations, what the commit brings, and drafts of
other kinds. -/
theorem LifecyclePlan.Checked.split
    (h : plan.Checked host writer s runId record change draft related final control operations)
    (hprepares : Prepares host writer s runId change draft control final record none)
    (hapart : OperationsApart host s runId related) : ∃ last,
    ((newDrafts s plan.drafts).filter fun d => d.runId = runId) =
        newDrafts s operations ++ ((newDrafts s related).filter fun d => d.runId = runId) ++ last ∧
      ∀ d ∈ last, d.kind ≠ .operationStarted ∧ d.kind ≠ .operationFinished := by
  have hkeys : ∀ d ∈ related,
      d.sourceEventKey ∉ (newDrafts s operations).map (·.sourceEventKey) := by
    intro d hd hmem
    obtain ⟨abort, habort, hkey⟩ := List.mem_map.1 hmem
    obtain ⟨started, operationId, haborts⟩ :=
      mem_operationAborts h.operations_eq ((newDrafts_sublist s operations).subset habort)
    obtain ⟨hstarted, hunended⟩ := haborts.unended
    refine hapart.keys operationId hstarted hunended d hd ?_
    rw [← hkey, haborts.eq]
    rfl
  have hown : (newDrafts s operations).filter (fun d => d.runId = runId) =
      newDrafts s operations := by
    refine List.filter_eq_self.2 fun d hd => decide_eq_true ?_
    obtain ⟨started, operationId, haborts⟩ :=
      mem_operationAborts h.operations_eq ((newDrafts_sublist s operations).subset hd)
    rw [haborts.eq]
    rfl
  obtain ⟨last, hlast, hsub⟩ := @newDrafts_append s (operations ++ related)
    (lastDrafts (validatedDraft runId draft.turnId change draft.occurredAt) final plan.aborts
      (lifecycleDraft runId draft.turnId draft.sourceEventKey draft.payload draft.occurredAt))
  refine ⟨last.filter fun d => d.runId = runId, ?_, fun d hd => ?_⟩
  · rw [h.drafts_eq, atomicDrafts_eq, hlast, newDrafts_append_of_disjoint hkeys,
      List.filter_append, List.filter_append, hown]
  · exact h.lastDrafts_kind hprepares.final_eq (hsub.subset (List.mem_filter.1 hd).1)

/-- An operation was started in the journal, or by what the commit brings: an abort starts none. -/
theorem started_committed_iff {brought last : List AgentOutputEventDraft}
    (hops : operationAborts host s runId status occurredAt = .ok operations)
    (hlast : ∀ d ∈ last, d.kind ≠ .operationStarted) :
    Started (s.draftsOf runId ++ (newDrafts s operations ++ brought ++ last)) operationId ↔
      Started (s.draftsOf runId ++ brought) operationId := by
  constructor
  · rintro ⟨d, hd, hstarts⟩
    simp only [List.mem_append] at hd
    rcases hd with hjournal | (habort | hd) | hd
    · exact ⟨d, List.mem_append_left _ hjournal, hstarts⟩
    · obtain ⟨started, otherId, haborts⟩ :=
        mem_operationAborts hops ((newDrafts_sublist s operations).subset habort)
      have hkind := hstarts.1
      rw [haborts.eq] at hkind
      cases hkind
    · exact ⟨d, List.mem_append_right _ hd, hstarts⟩
    · exact absurd hstarts.1 (hlast d hd)
  · rintro ⟨d, hd, hstarts⟩
    refine ⟨d, ?_, hstarts⟩
    simp only [List.mem_append] at hd ⊢
    rcases hd with hd | hd
    · exact Or.inl hd
    · exact Or.inr (Or.inl (Or.inr hd))

/-- Every operation of the Run has ended once exactly when the commit was to settle them. -/
theorem LifecyclePlan.Checked.allFinished_iff
    (h : plan.Checked host writer s runId record change draft related final control operations)
    (hprepares : Prepares host writer s runId change draft control final record none)
    (hcommitted : FreshCommitted s s' runId change plan)
    (hapart : OperationsApart host s runId related) :
    AllFinished (s'.draftsOf runId) ↔ EndsSettled host s runId related := by
  obtain ⟨last, hnews, hlast⟩ := h.split hprepares hapart
  have hops : ∀ abort ∈ operations, abort ∈ plan.drafts := fun abort hmem => by
    rw [h.drafts_eq]
    exact mem_atomicDrafts.2 (Or.inl hmem)
  have hfound : ∀ abort ∈ newDrafts s operations, abort ∈ newDrafts s plan.drafts := fun abort hmem =>
    (List.mem_filter.1 (hnews.symm ▸ List.mem_append_left _ (List.mem_append_left _ hmem) :
      abort ∈ (newDrafts s plan.drafts).filter fun d => d.runId = runId)).1
  rw [hcommitted.drafts, hnews]
  have hids := hapart.ids
  set brought := (newDrafts s related).filter fun d => d.runId = runId with hbrought
  have hsource : ∀ operationId, Started (s.draftsOf runId ++
      (newDrafts s operations ++ brought ++ last)) operationId ↔
        Started (s.draftsOf runId ++ brought) operationId := fun _ =>
    started_committed_iff h.operations_eq fun d hd => (hlast d hd).1
  have hcount : ∀ operationId, finishCount (s.draftsOf runId ++
      (newDrafts s operations ++ brought ++ last)) operationId =
        finishCount (s.draftsOf runId) operationId +
          finishCount (newDrafts s operations) operationId + finishCount brought operationId := by
    intro operationId
    rw [finishCount_append, finishCount_append, finishCount_append,
      finishCount_of_kinds fun d hd => (hlast d hd).2, Nat.add_zero, Nat.add_assoc]
  have haborts := fun operationId
      (hstarted : Started (s.draftsOf runId ++ brought) operationId) =>
    finishCount_operations h.operations_eq (fun abort hmem => h.free hprepares (hops abort hmem))
      (fun abort hmem => hcommitted.found abort (hfound abort hmem))
      (fun abort hmem => hcommitted.matched abort (hops abort hmem))
      (fun otherId hother => hids operationId otherId hstarted hother)
  have hjournal : ∀ operationId, Started (s.draftsOf runId) operationId →
      Started (s.draftsOf runId ++ brought) operationId := fun _ ⟨d, hd, hstarts⟩ =>
    ⟨d, List.mem_append_left _ hd, hstarts⟩
  have hcommit : ∀ operationId, Started brought operationId →
      Started (s.draftsOf runId ++ brought) operationId := fun _ ⟨d, hd, hstarts⟩ =>
    ⟨d, List.mem_append_right _ hd, hstarts⟩
  constructor
  · intro hall
    have hone := fun operationId (hstarted : Started (s.draftsOf runId ++ brought) operationId) =>
      (hcount operationId).symm.trans (hall operationId ((hsource operationId).2 hstarted))
    refine ⟨hapart, fun operationId hstarted => ?_, fun operationId hnot hstarted => ?_⟩
    · have htotal := hone operationId (hjournal operationId hstarted)
      obtain ⟨hends, hkept⟩ := haborts operationId (hjournal operationId hstarted)
      rw [← hbrought]
      by_cases hunended : finishCount (s.draftsOf runId) operationId = 0
      · rw [hends hstarted hunended] at htotal
        omega
      · rw [hkept (Or.inr hunended)] at htotal
        omega
    · have htotal := hone operationId (hcommit operationId hstarted)
      rw [(haborts operationId (hcommit operationId hstarted)).2 (Or.inl hnot)] at htotal
      exact htotal
  · intro hsettled operationId hstarted
    have hboth := (hsource operationId).1 hstarted
    obtain ⟨hends, hkept⟩ := haborts operationId hboth
    rw [hcount]
    by_cases hfirst : Started (s.draftsOf runId) operationId
    · obtain ⟨hmost, hnone⟩ := hsettled.started operationId hfirst
      rw [← hbrought] at hnone
      by_cases hunended : finishCount (s.draftsOf runId) operationId = 0
      · rw [hends hfirst hunended, hnone, hunended]
      · rw [hkept (Or.inr hunended), hnone]
        omega
    · have hother : Started brought operationId := by
        obtain ⟨d, hd, hstarts⟩ := hboth
        rcases List.mem_append.1 hd with hd | hd
        · exact absurd ⟨d, hd, hstarts⟩ hfirst
        · exact ⟨d, hd, hstarts⟩
      have hone := hsettled.brought operationId hfirst hother
      rw [← hbrought] at hone
      rw [hkept (Or.inl hfirst)]
      omega

/-! ## Commits of a Run that goes on -/

/-- Such a commit has the drafts it is given, and its canonical event. -/
theorem LifecyclePlan.Checked.drafts_running
    (h : plan.Checked host writer s runId record change draft related final control operations)
    (hprepares : Prepares host writer s runId change draft control final record none)
    (hnone : change.terminalStatus = none)
    (hquiet : ∀ operationId, Started (s.draftsOf runId) operationId →
      finishCount (s.draftsOf runId) operationId ≠ 0) :
    plan.drafts = related ++
      [lifecycleDraft runId draft.turnId draft.sourceEventKey draft.payload draft.occurredAt] := by
  have hops : operations = [] := by
    refine List.eq_nil_iff_forall_not_mem.2 fun abort hmem => ?_
    obtain ⟨started, operationId, haborts⟩ := mem_operationAborts h.operations_eq hmem
    obtain ⟨hstarted, hunended⟩ := haborts.unended
    exact hquiet operationId hstarted hunended
  have hnotdone : change.terminalStatus ≠ some .done := by
    rw [hnone]
    exact Option.some_ne_none _ |>.symm
  have houtput : change.finalOutput = none := by
    by_contra hsome
    exact hnotdone (change.valid.output_done hsome).1
  have hfinal : final = [] := finalDrafts_eq_nil houtput hprepares.final_eq
  have hvalidated : validatedDraft runId draft.turnId change draft.occurredAt = none := by
    unfold validatedDraft
    rw [change.valid.result_done hnotdone]
    rfl
  have haborts : plan.aborts = [] := by
    rw [h.aborts_eq, hnone]
    rfl
  rw [h.drafts_eq, hops, hfinal, hvalidated, haborts]
  simp [atomicDrafts]

/-! ## Repeated commits -/

/-- A commit whose canonical event is in the journal changes nothing. -/
theorem repeated_unchanged (htaken : s.eventsBySourceKey.get? draft.sourceEventKey ≠ none) :
    (commitRunLifecycle host writer runId change draft related s).2 = s := by
  have hcall : commitRunLifecycle host writer runId change draft related s =
      (Action.ofExcept (prepareRunLifecycle host writer s runId change draft related false) >>=
        applyLifecycle host writer runId change false) s := rfl
  rw [hcall]
  cases hprepared : prepareRunLifecycle host writer s runId change draft related false with
  | error e => rfl
  | ok prepared =>
    obtain ⟨final, record, ⟨existing, events, rfl, -, -⟩ | ⟨plan, operations, rfl, hprepares, -⟩⟩ :=
      prepareRunLifecycle_cases host hprepared
    · rfl
    · exact absurd ((existingEvent_eq_none host).1 hprepares.existing_eq) htaken

/-- A repeated commit that ends the Run found no open stream. -/
theorem replay_streams {validated : Option AgentOutputEventDraft} {existing : AgentOutputEvent}
    (hends : change.terminalStatus ≠ none)
    (h : replayLifecycle host s runId change record validated related final existing = .ok events)
    {id : String} {stream : StoredStream} (hget : s.streams.get? id = some stream)
    (hrun : stream.spec.runId = runId) : stream.status ≠ .opened := by
  obtain ⟨_, _, h⟩ := bind_eq_ok h
  obtain ⟨_, _, h⟩ := bind_eq_ok h
  obtain ⟨_, _, h⟩ := bind_eq_ok h
  obtain ⟨_, _, h⟩ := bind_eq_ok h
  obtain ⟨_, _, h⟩ := bind_eq_ok h
  obtain ⟨aborts, haborts, -⟩ := bind_eq_ok h
  unfold terminalStreamAbortEvents at haborts
  cases hstatus : change.terminalStatus with
  | none => exact absurd hstatus hends
  | some status =>
    rw [hstatus] at haborts
    obtain ⟨_, hany, -⟩ := bind_eq_ok haborts
    intro hopen
    refine rejectIf_eq_ok.1 hany (List.any_eq_true.2 ⟨stream, Dict.mem_values_iff.2 ⟨id, hget⟩, ?_⟩)
    simp [hrun, hopen]

/-- Operations are not ended by a commit of a Run that goes on when none is under way. -/
theorem LifecyclePlan.Checked.quiet
    (h : plan.Checked host writer s runId record change draft related final control operations)
    (hprepares : Prepares host writer s runId change draft control final record none)
    (hcommitted : FreshCommitted s s' runId change plan)
    (hapart : OperationsApart host s runId related)
    (hnamed : ∃ news, s'.draftsOf runId = s.draftsOf runId ++ news ∧
      ∀ d ∈ news, d.kind ∈ closingKinds → d ∈ related)
    (hstarted : Started (s.draftsOf runId) operationId) :
    finishCount (s.draftsOf runId) operationId ≠ 0 := by
  intro hunended
  obtain ⟨last, hnews, -⟩ := h.split hprepares hapart
  obtain ⟨news, happended, honly⟩ := hnamed
  rw [hcommitted.drafts, hnews] at happended
  cases List.append_cancel_left happended
  -- the abort of the operation, or one that took its key, is new and so would be named
  obtain ⟨started, hmem⟩ := mem_operationAborts_of_started h.operations_eq hstarted hunended
  have hdraft := h.free hprepares (by
    rw [h.drafts_eq]
    exact mem_atomicDrafts.2 (Or.inl hmem))
  obtain ⟨abort, habort, hkey⟩ := List.mem_map.1 (mem_keys_newDrafts hmem hdraft)
  obtain ⟨_, _, haborts⟩ :=
    mem_operationAborts h.operations_eq ((newDrafts_sublist s operations).subset habort)
  refine hapart.keys operationId hstarted hunended abort (honly abort ?_ ?_) hkey
  · exact List.mem_append_left _ (List.mem_append_left _ habort)
  · rw [haborts.eq]
    exact List.mem_cons_self ..

/-! ## The whole commit -/

/-- A lifecycle commit that went through, in a state whose streams are stored under their ids: its
canonical event is in the journal; when it settles what it finds, it closes what it should; and it
settled what it found if it closed what it should, and the operations are told apart. -/
theorem lifecycle_closes_of_keyed (hkeyed : s.Keyed)
    (h : commitRunLifecycle host writer runId change draft related s = (.ok events, s')) :
    s'.eventsBySourceKey.get? draft.sourceEventKey ≠ none ∧
      (LifecycleSettles host s runId change draft related →
        LifecycleCloses host s runId change draft related s') ∧
      (OperationsApart host s runId related →
        LifecycleCloses host s runId change draft related s' →
          LifecycleSettles host s runId change draft related) := by
  have hcall : (Action.ofExcept (prepareRunLifecycle host writer s runId change draft related false)
      >>= applyLifecycle host writer runId change false) s = (.ok events, s') := h
  cases hprepared : prepareRunLifecycle host writer s runId change draft related false with
  | error e =>
    rw [hprepared] at hcall
    cases hcall
  | ok prepared =>
    rw [hprepared, ofExcept_ok_bind_apply] at hcall
    obtain ⟨final, record, ⟨existing, found, rfl, hprepares, hreplay⟩ |
      ⟨plan, operations, rfl, hprepares, hchecked⟩⟩ := prepareRunLifecycle_cases host hprepared
    · cases hcall
      have htaken : s.eventsBySourceKey.get? draft.sourceEventKey ≠ none := by
        intro hnone
        have hstored := hprepares.existing_eq
        rw [(existingEvent_eq_none host).2 hnone] at hstored
        cases hstored
      refine ⟨htaken, fun hsettles => ?_, fun _ hcloses => ?_⟩
      · exact ⟨fun hends _ _ hget hrun => replay_streams hends hreplay hget hrun,
          fun hends => hsettles.repeated hends htaken, fun _ => repeated_unchanged htaken,
          fun _ => ⟨rfl, fun other => ⟨[], by simp, fun d hd => absurd hd List.not_mem_nil⟩⟩⟩
      · exact ⟨fun _ hnew => absurd hnew htaken, fun _ hnew => absurd hnew htaken,
          fun hends _ => hcloses.operations hends⟩
    · have hnew : s.eventsBySourceKey.get? draft.sourceEventKey = none :=
        (existingEvent_eq_none host).1 hprepares.existing_eq
      obtain ⟨hcommitted, hsame⟩ := hchecked.committed hkeyed hcall
      have htaken : s'.eventsBySourceKey.get? draft.sourceEventKey ≠ none := by
        obtain ⟨event, hget, -⟩ := hcommitted.matched
          (lifecycleDraft runId draft.turnId draft.sourceEventKey draft.payload draft.occurredAt) (by
            rw [hchecked.drafts_eq]
            exact mem_atomicDrafts.2 (by simp))
        have hkey : s'.eventsBySourceKey.get? draft.sourceEventKey = some event := hget
        rw [hkey]
        exact Option.some_ne_none event
      refine ⟨htaken, fun hsettles => ?_, fun hapart hcloses => ?_⟩
      · refine ⟨fun hends _ _ hget hrun => closed_streams hcommitted.streams hends hget hrun,
          fun hends => ?_, fun _ => repeated_unchanged htaken, fun hnone => ⟨hsame hnone,
            fun other => ⟨_, hcommitted.drafts other, fun d hd hkind => ?_⟩⟩⟩
        · have hsettled := hsettles.ends hends hnew
          exact (hchecked.allFinished_iff hprepares hcommitted hsettled.toOperationsApart).2 hsettled
        · have hmem := (newDrafts_sublist s plan.drafts).subset (List.mem_filter.1 hd).1
          rw [hchecked.drafts_running hprepares hnone (hsettles.quiet hnone hnew), List.mem_append,
            List.mem_singleton] at hmem
          rcases hmem with hrelated | rfl
          · exact hrelated
          · simp [closingKinds, lifecycleDraft] at hkind
      · refine ⟨fun hnone _ operationId hstarted => ?_, fun hends _ => ?_,
          fun _ hstored => absurd hnew hstored⟩
        · exact hchecked.quiet hprepares hcommitted hapart ((hcloses.running hnone).2 runId) hstarted
        · exact (hchecked.allFinished_iff hprepares hcommitted hapart).1 (hcloses.operations hends)

/-! ## Repetitions -/

/-- The drafts that start or finish operations. -/
def operationDrafts (drafts : List AgentOutputEventDraft) : List AgentOutputEventDraft :=
  drafts.filter fun d => d.kind = .operationStarted || d.kind = .operationFinished

/-- Whether the operations are finished depends on these alone. -/
theorem allFinished_congr {drafts drafts' : List AgentOutputEventDraft}
    (h : operationDrafts drafts' = operationDrafts drafts) (hall : AllFinished drafts) :
    AllFinished drafts' := by
  have hstarted : ∀ (ds : List AgentOutputEventDraft) operationId,
      Started ds operationId ↔ Started (operationDrafts ds) operationId := by
    intro ds operationId
    refine exists_congr fun d => ?_
    unfold operationDrafts
    rw [List.mem_filter]
    refine ⟨fun ⟨hd, hstarts⟩ => ⟨⟨hd, by simp [hstarts.1]⟩, hstarts⟩, fun ⟨hd, hstarts⟩ =>
      ⟨hd.1, hstarts⟩⟩
  have hcount : ∀ (ds : List AgentOutputEventDraft) operationId,
      finishCount ds operationId = finishCount (operationDrafts ds) operationId := by
    intro ds operationId
    unfold finishCount operationDrafts
    rw [List.countP_filter]
    refine List.countP_congr fun d _ => ?_
    unfold finishes
    simp only [Bool.and_eq_true, Bool.or_eq_true, decide_eq_true_eq]
    exact ⟨fun h => ⟨h, Or.inr h.1⟩, fun h => h.1⟩
  intro operationId h'
  rw [hstarted, h, ← hstarted] at h'
  rw [hcount, h, ← hcount]
  exact hall operationId h'

theorem Write.stored {key : String} {event : AgentOutputEvent} (hw : Write host s s')
    (h : s.eventsBySourceKey.get? key = some event) : s'.eventsBySourceKey.get? key = some event := by
  cases hw with
  | appended hrun hnew =>
    unfold RunState.appended
    rw [Dict.get?_set_of_ne]
    · exact h
    · rintro rfl
      rw [hnew] at h
      cases h
  | _ => exact h

/-- An event stays stored under its key. -/
theorem stored_run (hkeyed : s.Keyed) {key : String} {event : AgentOutputEvent}
    (h : s.eventsBySourceKey.get? key = some event) (run : List (Writer × Operation)) :
    (exec (step host) s run).Keyed ∧
      (exec (step host) s run).eventsBySourceKey.get? key = some event := by
  refine exec_induction_of_all (I := fun t : RunState =>
    t.Keyed ∧ t.eventsBySourceKey.get? key = some event) (fun t call ht => ?_) run ⟨hkeyed, h⟩
  refine ⟨keyed_step host ht.1 call, ?_⟩
  have hstep := step_writes host ht.1 call
  generalize step host t call = t' at hstep ⊢
  cases hstep with
  | writes hmoves =>
    induction hmoves with
    | refl => exact ht.2
    | tail _ hw ih => exact hw.stored ih
  | opened spec hnew => exact ht.2

end

/-- **Lifecycle commits close what they should**, in every reachable state, when there is nothing
that the scan of the journal gets wrong; and only then, where operations are told apart.  A commit
that closed what it should and is repeated later does so again, unless operations of its Run were
started or finished in between. -/
theorem lifecycle_closes (host : Host) (run : List (Writer × Operation)) (writer : Writer)
    (runId : String) (change : RunCommit) (draft : RunLifecycleOutputDraft RunStatus)
    (related : List AgentOutputEventDraft) :
    let s := exec (step host) {} run
    ∀ events s', commitRunLifecycle host writer runId change draft related s = (.ok events, s') →
      (LifecycleSettles host s runId change draft related →
        LifecycleCloses host s runId change draft related s') ∧
      (OperationsApart host s runId related →
        LifecycleCloses host s runId change draft related s' →
          LifecycleSettles host s runId change draft related) ∧
      (LifecycleCloses host s runId change draft related s' → ∀ later,
        let t := exec (step host) s' later
        operationDrafts (t.draftsOf runId) = operationDrafts (s'.draftsOf runId) →
          ∀ again events' t',
            commitRunLifecycle host again runId change draft related t = (.ok events', t') →
              LifecycleCloses host t runId change draft related t') := by
  intro s events s' h
  have hkeyed : s.Keyed := RunState.Reachable.keyed host ⟨run, rfl⟩
  obtain ⟨htaken, hcloses, hsettles⟩ := lifecycle_closes_of_keyed hkeyed h
  refine ⟨hcloses, hsettles, ?_⟩
  intro hclosed later t hsame again events' t' h'
  have hkeyed' : s'.Keyed := by
    have hstep := keyed_step host hkeyed (writer, .commitRunLifecycle runId change draft related)
    unfold step at hstep
    simp only [Operation.run, final_map] at hstep
    unfold final at hstep
    rwa [h] at hstep
  obtain ⟨event, hevent⟩ := Option.ne_none_iff_exists'.1 htaken
  obtain ⟨hkeyedt, hstored⟩ := @stored_run host _ hkeyed' _ _ hevent later
  refine (lifecycle_closes_of_keyed hkeyedt h').2.1 ⟨fun _ hnew => ?_, fun _ hnew => ?_,
    fun hends _ => allFinished_congr hsame (hclosed.operations hends)⟩
  · cases hnew.symm.trans hstored
  · cases hnew.symm.trans hstored

/-- The end of a Run whose planner is still at work. -/
theorem lifecycle_closes_planning : ∀ events s',
    commitRunLifecycle sampleHost {} "run" doneCommit doneDraft []
        (exec (step sampleHost) {} planningRun) = (.ok events, s') →
      LifecycleCloses sampleHost (exec (step sampleHost) {} planningRun) "run" doneCommit doneDraft
        [] s' := by
  have hjournal : (exec (step sampleHost) {} planningRun).draftsOf "run" =
      [lifecycleDraft "run" none "run:run:running" [] 0, planStarted, planBytes] := rfl
  have hids : ∀ operationId,
      Started ((exec (step sampleHost) {} planningRun).draftsOf "run") operationId →
        operationId = .str "plan" := by
    rintro operationId ⟨d, hd, hkind, hid⟩
    rw [hjournal] at hd
    simp only [List.mem_cons, List.not_mem_nil, or_false] at hd
    rcases hd with rfl | rfl | rfl
    · cases hkind
    · exact (Option.some.inj hid).symm
    · cases hkind
  intro events s' hcommit
  refine (lifecycle_closes sampleHost planningRun {} "run" doneCommit doneDraft [] events s'
    hcommit).1 ⟨fun h => (by cases h), fun _ _ => ⟨⟨?_, ?_⟩, fun operationId h => ?_, ?_⟩,
      fun _ h => ?_⟩
  · intro operationId otherId h h'
    have hnil : newDrafts (exec (step sampleHost) {} planningRun) [] = [] := rfl
    rw [hnil, List.filter_nil, List.append_nil] at h
    rw [hids operationId h, hids otherId h']
    simp [Json.pyEq]
  · intro _ _ _ d hd
    cases hd
  · rw [hids operationId h]
    decide +kernel
  · rintro operationId - ⟨d, hd, -⟩
    cases hd
  · exact absurd (by decide +kernel) h

/-! ## A commit that finishes too much -/

/-- A commit that changes nothing, and leaves the Run going on. -/
def noCommit : RunCommit := ⟨{}, CommitFields.refusal_eq_none.1 (by decide +kernel)⟩

/-- The canonical event of that commit. -/
def runningDraft : RunLifecycleOutputDraft RunStatus where
  sourceEventKey := "run:run:note"
  status := .running
  payload := []
  occurredAt := 5

/-- The Run goes on, and its planning operation is finished as failed. -/
theorem running_commit_finishes : ¬ ∀ events s',
    commitRunLifecycle sampleHost {} "run" noCommit runningDraft []
        (exec (step sampleHost) {} planningRun) = (.ok events, s') →
      LifecycleCloses sampleHost (exec (step sampleHost) {} planningRun) "run" noCommit runningDraft
        [] s' := by
  intro h
  have hfinished : ((commitRunLifecycle sampleHost {} "run" noCommit runningDraft []
      (exec (step sampleHost) {} planningRun)).2.draftsOf "run").map (·.kind) =
        ((exec (step sampleHost) {} planningRun).draftsOf "run").map (·.kind) ++
          [.operationFinished, .runLifecycle] := by
    decide +kernel
  have hgoes : (commitRunLifecycle sampleHost {} "run" noCommit runningDraft []
      (exec (step sampleHost) {} planningRun)).1.isOk = true := by
    decide +kernel
  cases hcall : commitRunLifecycle sampleHost {} "run" noCommit runningDraft []
      (exec (step sampleHost) {} planningRun) with
  | mk outcome s' =>
  rw [hcall] at hfinished hgoes
  cases outcome with
  | error e => cases hgoes
  | ok events =>
    obtain ⟨-, hnamed⟩ := (h events s' hcall).running rfl
    obtain ⟨news, hnews, honly⟩ := hnamed "run"
    dsimp only at hfinished
    rw [hnews, List.map_append] at hfinished
    have hkinds := List.append_cancel_left hfinished
    have hmem : OutputEventKind.operationFinished ∈ news.map (·.kind) := by
      rw [hkinds]
      exact List.mem_cons_self ..
    obtain ⟨d, hd, hkind⟩ := List.mem_map.1 hmem
    exact List.not_mem_nil (honly d hd (by simp [hkind, closingKinds]))

end Purra.RunMemory
