import Purra.RunMemory.Batches
import Purra.RunMemory.Verbatim

/-!
# What a prepared commit holds

The drafts of a lifecycle commit that was found to be new (`LifecyclePlan.Checked`), part by
part: the ends of operations, the publication of the answer, the aborts of open streams.
But for the related drafts, which the caller supplies, all of them belong to the Run of the
commit; and when it publishes nothing, none of them is Provider output.
-/

namespace Purra.RunMemory

open Contracts Output Purra.Action

section

variable {host : Host} {writer : Writer} {s : RunState} {runId : String} {record : StoredRun}
  {commit : RunCommit} {draft : RunLifecycleOutputDraft RunStatus}
  {related final operations : List AgentOutputEventDraft} {control : Bool} {plan : LifecyclePlan}

/-! ## Operations -/

/-- An abort is the end of an operation that was started, and has not ended. -/
structure AbortsOperation (host : Host) (s : RunState) (runId : String) (status : RunStatus)
    (occurredAt : Int) (started : AgentOutputEvent) (operationId : Json)
    (abort : AgentOutputEventDraft) : Prop where
  mem : started ∈ s.eventsOf runId
  kind : started.kind = .operationStarted
  operation : Json.field? started.payload "operationId" = some operationId
  unfinished : ∀ event ∈ s.eventsOf runId, finishes operationId event.toAgentOutputEventDraft = false
  eq : abort = operationAbortDraft host runId status occurredAt started operationId

variable {occurredAt : Int}

theorem operationAbort_eq_some {events : List AgentOutputEvent} {status : RunStatus}
    {started : AgentOutputEvent} {abort : AgentOutputEventDraft}
    (h : operationAbort host events runId status occurredAt started = .ok (some abort)) :
    started.kind = .operationStarted ∧ ∃ operationId,
      Json.field? started.payload "operationId" = some operationId ∧
      (∀ event ∈ events, finishes operationId event.toAgentOutputEventDraft = false) ∧
      abort = operationAbortDraft host runId status occurredAt started operationId := by
  unfold operationAbort at h
  split at h
  · cases h
  rename_i hkind
  refine ⟨not_not.1 hkind, ?_⟩
  split at h
  · cases h
  rename_i operationId hid
  split at h
  · cases h
  rename_i hunfinished
  cases h
  refine ⟨operationId, hid, fun event hevent => ?_, rfl⟩
  exact Bool.eq_false_iff.2 fun hends => hunfinished (List.any_eq_true.2 ⟨event, hevent, hends⟩)

theorem mem_operationAborts {status : RunStatus}
    (h : operationAborts host s runId status occurredAt = .ok operations)
    {abort : AgentOutputEventDraft} (hmem : abort ∈ operations) :
    ∃ started operationId,
      AbortsOperation host s runId status occurredAt started operationId abort := by
  obtain ⟨aborts, haborts, h⟩ := bind_eq_ok h
  cases h
  obtain ⟨found, hfound, rfl⟩ := List.mem_filterMap.1 hmem
  obtain ⟨started, hstarted, heq⟩ := mem_of_mapM_eq_ok haborts hfound
  obtain ⟨hkind, operationId, hid, hunfinished, rfl⟩ := operationAbort_eq_some heq
  exact ⟨started, operationId, hstarted, hkind, hid, hunfinished, rfl⟩

/-! ## The answer -/

theorem finalDrafts_runId (h : finalDrafts host s runId commit occurredAt = .ok final)
    {published : AgentOutputEventDraft} (hmem : published ∈ final) : published.runId = runId := by
  rcases finalDrafts_eq_ok h with ⟨-, rfl⟩ | ⟨reference, stream, -, hown, h⟩
  · cases hmem
  · obtain ⟨hanswers, -, rfl⟩ := verbatimPublicationDrafts_eq_ok.1 h
    -- the reference names the Run of the stream, and the Run of the commit
    have hrun : stream.spec.runId = runId := by
      rw [← hown, hanswers.named]
      rfl
    rcases List.mem_append.1 hmem with hframe | hlast
    · obtain ⟨frame, _, rfl⟩ := List.mem_map.1 hframe
      exact hrun
    · rw [List.mem_singleton.1 hlast]
      exact hrun

theorem finalDrafts_eq_nil (hnone : commit.finalOutput = none)
    (h : finalDrafts host s runId commit occurredAt = .ok final) : final = [] := by
  rcases finalDrafts_eq_ok h with ⟨-, hnil⟩ | ⟨reference, _, houtput, -⟩
  · exact hnil
  · rw [hnone] at houtput
    cases houtput

/-! ## Streams -/

theorem mem_terminalAbortDrafts {status : Option RunStatus}
    {abort : AgentOutputEventDraft} (h : abort ∈ terminalAbortDrafts s runId status occurredAt) :
    ∃ terminal stream, status = some terminal ∧ stream ∈ openStreams s runId ∧
      abort = terminalStreamAbortDraft stream.spec terminal occurredAt := by
  cases status with
  | none => cases h
  | some terminal =>
    obtain ⟨stream, hstream, rfl⟩ := List.mem_map.1 h
    exact ⟨terminal, stream, rfl, hstream, rfl⟩

/-! ## All drafts -/

variable {appended : AgentOutputEventDraft}

/-- The parts a draft of a plan can come from. -/
theorem mem_atomicDrafts {validated : Option AgentOutputEventDraft}
    {aborts : List AgentOutputEventDraft} {lifecycle : AgentOutputEventDraft} :
    appended ∈ atomicDrafts operations related validated final aborts lifecycle ↔
      appended ∈ operations ∨ appended ∈ related ∨ validated = some appended ∨ appended ∈ final ∨
        appended ∈ aborts ∨ appended = lifecycle := by
  unfold atomicDrafts
  simp only [List.mem_append, Option.mem_toList, List.mem_singleton, or_assoc]

/-- The drafts a plan makes itself are of the Run of the commit. -/
theorem LifecyclePlan.Checked.own
    (h : plan.Checked host writer s runId record commit draft related final control operations)
    (hfinal : finalDrafts host s runId commit draft.occurredAt = .ok final)
    (hmem : appended ∈ atomicDrafts operations []
      (validatedDraft runId draft.turnId commit draft.occurredAt) final plan.aborts
      (lifecycleDraft runId draft.turnId draft.sourceEventKey draft.payload draft.occurredAt)) :
    appended.runId = runId := by
  rw [mem_atomicDrafts] at hmem
  rcases hmem with hop | hnil | hvalidated | hpublished | habort | rfl
  · obtain ⟨started, operationId, haborts⟩ := mem_operationAborts h.operations_eq hop
    rw [haborts.eq]
    rfl
  · cases hnil
  · obtain ⟨content, _, rfl⟩ := Option.map_eq_some_iff.1 hvalidated
    rfl
  · exact finalDrafts_runId hfinal hpublished
  · rw [h.aborts_eq] at habort
    obtain ⟨terminal, stream, _, hstream, rfl⟩ := mem_terminalAbortDrafts habort
    exact (mem_openStreams.1 hstream).2.1
  · rfl

/-- When only related drafts have a property, they are the drafts that have it. -/
theorem filter_atomicDrafts {validated : Option AgentOutputEventDraft}
    {aborts : List AgentOutputEventDraft} {lifecycle : AgentOutputEventDraft}
    {p : AgentOutputEventDraft → Bool}
    (h : ∀ d ∈ atomicDrafts operations [] validated final aborts lifecycle, p d = false) :
    (atomicDrafts operations related validated final aborts lifecycle).filter p =
      related.filter p := by
  have hnil : ∀ part : List AgentOutputEventDraft,
      (∀ d ∈ part, d ∈ atomicDrafts operations [] validated final aborts lifecycle) →
        part.filter p = [] := by
    intro part hpart
    refine List.filter_eq_nil_iff.2 fun d hd => ?_
    rw [h d (hpart d hd)]
    exact Bool.false_ne_true
  unfold atomicDrafts
  simp only [List.filter_append]
  rw [hnil operations fun d hd => mem_atomicDrafts.2 (by simp [hd]),
    hnil validated.toList fun d hd => mem_atomicDrafts.2 (by simp [Option.mem_toList.1 hd]),
    hnil final fun d hd => mem_atomicDrafts.2 (by simp [hd]),
    hnil aborts fun d hd => mem_atomicDrafts.2 (by simp [hd]),
    hnil [lifecycle] fun d hd => mem_atomicDrafts.2 (by simp [List.mem_singleton.1 hd])]
  simp

theorem providerOutputCost_of_kind
    (h : appended.kind ∉ providerOutputBudgetKinds) : providerOutputCost host appended = 0 :=
  if_pos h

/-- A commit that publishes nothing, and brings no related drafts, costs nothing. -/
theorem LifecyclePlan.Checked.costless
    (h : plan.Checked host writer s runId record commit draft [] [] control operations)
    (hmem : appended ∈ plan.drafts) :
    providerOutputCost host appended = 0 := by
  rw [h.drafts_eq, mem_atomicDrafts] at hmem
  refine providerOutputCost_of_kind ?_
  rcases hmem with hop | hrelated | hvalidated | hpublished | habort | rfl
  · obtain ⟨started, operationId, haborts⟩ := mem_operationAborts h.operations_eq hop
    rw [haborts.eq]
    simp [providerOutputBudgetKinds, operationAbortDraft]
  · cases hrelated
  · obtain ⟨content, _, rfl⟩ := Option.map_eq_some_iff.1 hvalidated
    simp [providerOutputBudgetKinds]
  · cases hpublished
  · rw [h.aborts_eq] at habort
    obtain ⟨terminal, stream, _, hstream, rfl⟩ := mem_terminalAbortDrafts habort
    simp [providerOutputBudgetKinds, terminalStreamAbortDraft, streamDraft]
  · simp [providerOutputBudgetKinds, lifecycleDraft]

end

end Purra.RunMemory
