import Purra.RunMemory.Steps
import Purra.Lib.Journal

/-!
# The journals

The repository keeps four tables of its events: by Run, by root, by source key, and the
last numbers given out.  `Journalled s log` says that all of them are views of one log,
and `journal_kept` reads the invariant of every reachable state off it: the events of a
Run are numbered `1..n`, those of a root `1..m` in an order that interleaves the orders of
its Runs, and no source key occurs twice.  A draft with a key that is taken gets the
stored event back, or is refused, and changes nothing.
-/

namespace Purra.RunMemory

open Contracts Output Purra.Action

/-- The tables of the events are views of one log. -/
structure Journalled (s : RunState) (log : List AgentOutputEvent) : Prop where
  events : ∀ runId, s.eventsOf runId = view (·.runId) runId log
  rootEvents : ∀ rootRunId, s.rootEventsOf rootRunId = view (·.rootRunId) rootRunId log
  sequences : ∀ runId, (s.sequences.get? runId).getD 0 = (view (·.runId) runId log).length
  rootSequences : ∀ rootRunId,
    (s.rootSequences.get? rootRunId).getD 0 = (view (·.rootRunId) rootRunId log).length
  numbered : Numbered (·.runId) (·.sequence) log
  rootNumbered : Numbered (·.rootRunId) (·.rootSequence) log
  keys_nodup : (log.map (·.sourceEventKey)).Nodup
  index : ∀ key event, s.eventsBySourceKey.get? key = some event ↔
    event ∈ log ∧ event.sourceEventKey = key
  scope : ∀ event ∈ log, ∃ record, s.runs.get? event.runId = some record ∧
    event.rootRunId = record.scopeId event.runId

theorem journalled_init : Journalled {} [] where
  events _ := rfl
  rootEvents _ := rfl
  sequences _ := rfl
  rootSequences _ := rfl
  numbered := numbered_nil
  rootNumbered := numbered_nil
  keys_nodup := List.nodup_nil
  index key event := by simp
  scope _ h := absurd h List.not_mem_nil

namespace Journalled

variable {s s' : RunState} {log : List AgentOutputEvent}

/-- A write that touches none of the tables of events. -/
theorem of_runs (h : Journalled s log) (hruns : RunsPersist s s')
    (hevents : s'.outputEvents = s.outputEvents)
    (hroots : s'.rootOutputEvents = s.rootOutputEvents) (hseq : s'.sequences = s.sequences)
    (hrootSeq : s'.rootSequences = s.rootSequences)
    (hindex : s'.eventsBySourceKey = s.eventsBySourceKey) : Journalled s' log where
  events runId := by
    rw [← h.events runId]
    unfold RunState.eventsOf
    rw [hevents]
  rootEvents rootRunId := by
    rw [← h.rootEvents rootRunId]
    unfold RunState.rootEventsOf
    rw [hroots]
  sequences runId := by
    rw [hseq]
    exact h.sequences runId
  rootSequences rootRunId := by
    rw [hrootSeq]
    exact h.rootSequences rootRunId
  numbered := h.numbered
  rootNumbered := h.rootNumbered
  keys_nodup := h.keys_nodup
  index key event := by
    rw [hindex]
    exact h.index key event
  scope event hevent := by
    obtain ⟨record, hget, hroot⟩ := h.scope event hevent
    obtain ⟨record', hget', hpersists⟩ := hruns _ record hget
    exact ⟨record', hget', by rw [hroot, hpersists.scopeId_eq]⟩

theorem key_fresh (h : Journalled s log) {key : String}
    (hnew : s.eventsBySourceKey.get? key = none) : key ∉ log.map (·.sourceEventKey) := by
  intro hmem
  obtain ⟨event, hevent, hkey⟩ := List.mem_map.1 hmem
  have := (h.index key event).2 ⟨hevent, hkey⟩
  rw [hnew] at this
  cases this

section Appended

variable {host : Host} {draft : AgentOutputEventDraft} {run : StoredRun}

theorem eventsOf_appended (runId : String) : (s.appended host draft run).eventsOf runId =
    if draft.runId = runId then s.eventsOf runId ++ [s.stamped draft run]
    else s.eventsOf runId := by
  unfold RunState.eventsOf RunState.appended
  rw [Dict.get?_set]
  by_cases hid : runId = draft.runId
  · subst hid
    rw [if_pos rfl, if_pos rfl]
    rfl
  · rw [if_neg hid, if_neg (Ne.symm hid)]

theorem rootEventsOf_appended (rootRunId : String) :
    (s.appended host draft run).rootEventsOf rootRunId =
      if run.scopeId draft.runId = rootRunId then
        s.rootEventsOf rootRunId ++ [s.stamped draft run]
      else s.rootEventsOf rootRunId := by
  unfold RunState.rootEventsOf RunState.appended
  rw [Dict.get?_set]
  by_cases hid : rootRunId = run.scopeId draft.runId
  · subst hid
    rw [if_pos (by rfl), if_pos rfl]
    rfl
  · have hroot : (s.stamped draft run).rootRunId = run.scopeId draft.runId := rfl
    rw [hroot, if_neg hid, if_neg (Ne.symm hid)]

/-- An appended event extends the log, and every table follows. -/
theorem appended (h : Journalled s log) (hrun : s.runs.get? draft.runId = some run)
    (hnew : s.eventsBySourceKey.get? draft.sourceEventKey = none) :
    Journalled (s.appended host draft run) (log ++ [s.stamped draft run]) where
  events runId := by
    rw [eventsOf_appended]
    by_cases hid : draft.runId = runId
    · subst hid
      rw [if_pos rfl, h.events]
      exact (view_append_self (f := (·.runId)) (a := s.stamped draft run)).symm
    · rw [if_neg hid, h.events]
      exact (view_append_of_ne (f := (·.runId)) (a := s.stamped draft run) hid).symm
  rootEvents rootRunId := by
    rw [rootEventsOf_appended]
    by_cases hid : run.scopeId draft.runId = rootRunId
    · subst hid
      rw [if_pos rfl, h.rootEvents]
      exact (view_append_self (f := (·.rootRunId)) (a := s.stamped draft run)).symm
    · rw [if_neg hid, h.rootEvents]
      exact (view_append_of_ne (f := (·.rootRunId)) (a := s.stamped draft run) hid).symm
  sequences runId := by
    unfold RunState.appended
    rw [Dict.get?_set]
    by_cases hid : runId = draft.runId
    · subst hid
      have hview := @view_append_self _ _ _ (·.runId) log (s.stamped draft run)
      have hcount := h.sequences draft.runId
      rw [if_pos rfl, Option.getD_some]
      calc (s.stamped draft run).sequence = (s.sequences.get? draft.runId).getD 0 + 1 := rfl
        _ = (view (·.runId) draft.runId log).length + 1 := by rw [hcount]
        _ = (view (·.runId) draft.runId (log ++ [s.stamped draft run])).length := by
          rw [show draft.runId = (s.stamped draft run).runId from rfl, hview]
          simp
    · rw [if_neg hid, h.sequences]
      exact congrArg List.length
        (view_append_of_ne (f := (·.runId)) (a := s.stamped draft run) (Ne.symm hid)).symm
  rootSequences rootRunId := by
    unfold RunState.appended
    rw [Dict.get?_set]
    by_cases hid : rootRunId = run.scopeId draft.runId
    · subst hid
      have hview := @view_append_self _ _ _ (·.rootRunId) log (s.stamped draft run)
      have hcount := h.rootSequences (run.scopeId draft.runId)
      rw [if_pos (by rfl), Option.getD_some]
      calc (s.stamped draft run).rootSequence
          = (s.rootSequences.get? (run.scopeId draft.runId)).getD 0 + 1 := rfl
        _ = (view (·.rootRunId) (run.scopeId draft.runId) log).length + 1 := by rw [hcount]
        _ = (view (·.rootRunId) (run.scopeId draft.runId)
              (log ++ [s.stamped draft run])).length := by
          rw [show run.scopeId draft.runId = (s.stamped draft run).rootRunId from rfl, hview]
          simp
    · rw [if_neg (by exact hid), h.rootSequences]
      exact congrArg List.length
        (view_append_of_ne (f := (·.rootRunId)) (a := s.stamped draft run) (Ne.symm hid)).symm
  numbered := by
    refine h.numbered.append ?_
    show (s.sequences.get? draft.runId).getD 0 + 1 = _
    rw [h.sequences]
    rfl
  rootNumbered := by
    refine h.rootNumbered.append ?_
    show (s.rootSequences.get? (run.scopeId draft.runId)).getD 0 + 1 = _
    rw [h.rootSequences]
    rfl
  keys_nodup := by
    rw [List.map_append, List.map_singleton]
    refine List.nodup_append'.2 ⟨h.keys_nodup, List.nodup_singleton _, ?_⟩
    rw [List.disjoint_singleton]
    exact h.key_fresh hnew
  index key event := by
    unfold RunState.appended
    rw [Dict.get?_set]
    by_cases hkey : key = draft.sourceEventKey
    · subst hkey
      rw [if_pos rfl, Option.some.injEq, List.mem_append, List.mem_singleton]
      constructor
      · rintro rfl
        exact ⟨Or.inr rfl, rfl⟩
      · rintro ⟨hmem | rfl, heq⟩
        · exact absurd (List.mem_map.2 ⟨event, hmem, heq⟩) (h.key_fresh hnew)
        · rfl
    · rw [if_neg hkey, h.index, List.mem_append, List.mem_singleton]
      constructor
      · exact fun hev => ⟨Or.inl hev.1, hev.2⟩
      · rintro ⟨hmem | rfl, heq⟩
        · exact ⟨hmem, heq⟩
        · exact absurd heq.symm hkey
  scope event hevent := by
    have hruns : RunsPersist s (s.appended host draft run) :=
      (Write.appended hrun hnew).runsPersist
    rcases List.mem_append.1 hevent with hevent | hevent
    · obtain ⟨record, hget, hroot⟩ := h.scope event hevent
      obtain ⟨record', hget', hpersists⟩ := hruns _ record hget
      exact ⟨record', hget', by rw [hroot, hpersists.scopeId_eq]⟩
    · rw [List.mem_singleton] at hevent
      subst hevent
      obtain ⟨record', hget', hpersists⟩ := hruns _ run hrun
      exact ⟨record', hget', (hpersists.scopeId_eq draft.runId).symm⟩

end Appended

theorem write {host : Host} (h : Journalled s log) (hw : Write host s s') :
    ∃ log', Journalled s' log' := by
  have hruns := hw.runsPersist
  cases hw with
  | counted => exact ⟨log, h.of_runs hruns rfl rfl rfl rfl rfl⟩
  | began event hnew hscope => exact ⟨log, h.of_runs hruns rfl rfl rfl rfl rfl⟩
  | recorded hrun hfollows => exact ⟨log, h.of_runs hruns rfl rfl rfl rfl rfl⟩
  | reserved invocation hrun hbudget => exact ⟨log, h.of_runs hruns rfl rfl rfl rfl rfl⟩
  | appended hrun hnew => exact ⟨_, h.appended hrun hnew⟩
  | closed => exact ⟨log, h.of_runs hruns rfl rfl rfl rfl rfl⟩

end Journalled

theorem RunState.Reachable.journalled {host : Host} {s : RunState} (h : s.Reachable host) :
    ∃ log, Journalled s log := by
  refine h.induction (I := fun s => ∃ log, Journalled s log) host ⟨[], journalled_init⟩ ?_ ?_
  · rintro s s' ⟨log, hlog⟩ hwrite
    exact hlog.write hwrite
  · rintro s spec ⟨log, hlog⟩ _
    exact ⟨log, hlog.of_runs (.refl s) rfl rfl rfl rfl rfl⟩

/-! ## The invariant -/

/-- All stored events. -/
def RunState.journal (s : RunState) : List AgentOutputEvent := s.outputEvents.values.flatten

/-- What the journals of a state satisfy. -/
structure JournalInvariant (s : RunState) : Prop where
  sequences : ∀ runId,
    (s.eventsOf runId).map (·.sequence) = List.range' 1 (s.eventsOf runId).length
  rootSequences : ∀ rootRunId,
    (s.rootEventsOf rootRunId).map (·.rootSequence) =
      List.range' 1 (s.rootEventsOf rootRunId).length
  owners : ∀ runId, ∀ event ∈ s.eventsOf runId, event.runId = runId
  rootOwners : ∀ rootRunId, ∀ event ∈ s.rootEventsOf rootRunId,
    ∃ record, s.runs.get? event.runId = some record ∧ record.scopeId event.runId = rootRunId
  interleaves : ∀ runId record, s.runs.get? runId = some record →
    (s.rootEventsOf (record.scopeId runId)).filter (fun event => event.runId = runId) =
      s.eventsOf runId
  keys : (s.journal.map (·.sourceEventKey)).Nodup

/-- A draft whose key is taken: it gets the stored event back, or is refused. -/
def Reappends (host : Host) (s : RunState) : Prop :=
  ∀ writer reading mode, ∀ event ∈ s.journal, ∀ draft : AgentOutputEventDraft,
    draft.sourceEventKey = event.sourceEventKey →
    if eventMatchesDraft event draft = true then
      appendEvent host writer reading draft mode s = (.ok event, s)
    else ∃ error, appendEvent host writer reading draft mode s = (.error error, s)

namespace Journalled

variable {s : RunState} {log : List AgentOutputEvent}

theorem journal_eq (h : Journalled s log) :
    s.journal = s.outputEvents.keys.flatMap fun runId => view (·.runId) runId log := by
  unfold RunState.journal Dict.values Dict.keys
  rw [List.flatMap_map, ← List.flatMap_def]
  refine List.flatMap_congr fun p hp => ?_
  rw [← h.events p.1]
  unfold RunState.eventsOf
  rw [Dict.mem_entries_iff.1 hp]
  rfl

theorem mem_of_journal (h : Journalled s log) {event : AgentOutputEvent}
    (hevent : event ∈ s.journal) : event ∈ log := by
  rw [h.journal_eq] at hevent
  obtain ⟨runId, _, hview⟩ := List.mem_flatMap.1 hevent
  exact (mem_view.1 hview).1

theorem invariant (h : Journalled s log) : JournalInvariant s where
  sequences runId := by
    rw [h.events]
    exact h.numbered runId
  rootSequences rootRunId := by
    rw [h.rootEvents]
    exact h.rootNumbered rootRunId
  owners runId event hevent := by
    rw [h.events] at hevent
    exact (mem_view.1 hevent).2
  rootOwners rootRunId event hevent := by
    rw [h.rootEvents] at hevent
    obtain ⟨hmem, hroot⟩ := mem_view.1 hevent
    obtain ⟨record, hget, hscope⟩ := h.scope event hmem
    exact ⟨record, hget, hscope.symm.trans hroot⟩
  interleaves runId record hget := by
    rw [h.rootEvents, h.events]
    refine view_view (f := fun event : AgentOutputEvent => event.runId) fun event hevent hid => ?_
    obtain ⟨found, hfound, hscope⟩ := h.scope event hevent
    rw [hid] at hfound hscope
    rw [hget] at hfound
    cases hfound
    exact hscope
  keys := by
    rw [h.journal_eq]
    exact nodup_flatMap_view h.keys_nodup s.outputEvents.nodup

theorem reappends (h : Journalled s log) (host : Host) : Reappends host s := by
  intro writer reading mode event hevent draft hkey
  have hfound : s.eventsBySourceKey.get? draft.sourceEventKey = some event :=
    (h.index _ event).2 ⟨h.mem_of_journal hevent, hkey.symm⟩
  have hexisting : existingEvent host s draft =
      if eventMatchesDraft event draft = false then
        .error (violation ("source event key " ++ host.py.repr (.str draft.sourceEventKey) ++
          " is already bound to a different event"))
      else .ok (some event) := by
    unfold existingEvent
    rw [hfound]
  by_cases hmatch : eventMatchesDraft event draft = true
  · rw [if_pos hmatch]
    rw [if_neg (by simp [hmatch])] at hexisting
    unfold appendEvent
    rw [hexisting]
  · rw [if_neg hmatch]
    rw [if_pos (Bool.eq_false_iff.2 hmatch)] at hexisting
    unfold appendEvent
    rw [hexisting]
    exact ⟨_, rfl⟩

end Journalled

/-- **The journal invariant.** -/
theorem journal_kept (host : Host) (run : List (Writer × Operation)) :
    let s := exec (step host) {} run
    JournalInvariant s ∧ Reappends host s := by
  have hreachable : (exec (step host) {} run).Reachable host := ⟨run, rfl⟩
  obtain ⟨log, hlog⟩ := hreachable.journalled
  exact ⟨hlog.invariant, hlog.reappends host⟩

end Purra.RunMemory
