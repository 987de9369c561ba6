import Purra.RunMemory.Numbering

/-!
# Batches of events

`appendEvents` checks every draft on the state before the batch, and then appends the
drafts one after the other, checking each again.  `Extended s s' news` says what the
appends that went through have done: `news` stand at the end of the journals, and nothing
else that a check reads has changed.  So a draft that was accepted is accepted again at
its turn, with two exceptions: the lease of the writer may have lapsed, and a planning
event is checked against the events of its Run, and those of the batch before it count by
then.  `TurnAccepted` has both.

`batch_atomic` says for which batches this does no harm (`BatchFits`), and `batch_torn` is
a batch that fails half way.
-/

namespace Purra.RunMemory

open Contracts Output Purra.Action

/-! ## The drafts that are new -/

/-- A draft joins the new ones, unless its key is taken. -/
def addDraft (s : RunState) (news : List AgentOutputEventDraft) (draft : AgentOutputEventDraft) :
    List AgentOutputEventDraft :=
  if (s.eventsBySourceKey.get? draft.sourceEventKey).isSome = true ∨
      draft.sourceEventKey ∈ news.map (·.sourceEventKey) then news
  else news ++ [draft]

/-- The drafts that a list of appends adds to the journal. -/
def newDrafts (s : RunState) (drafts : List AgentOutputEventDraft) :
    List AgentOutputEventDraft := drafts.foldl (addDraft s) []

theorem newDrafts_concat (s : RunState) (drafts : List AgentOutputEventDraft)
    (draft : AgentOutputEventDraft) :
    newDrafts s (drafts ++ [draft]) = addDraft s (newDrafts s drafts) draft := by
  simp [newDrafts]

theorem newDrafts_sublist (s : RunState) (drafts : List AgentOutputEventDraft) :
    (newDrafts s drafts).Sublist drafts := by
  induction drafts using List.reverseRecOn with
  | nil => exact List.Sublist.refl []
  | append_singleton drafts draft ih =>
    rw [newDrafts_concat]
    unfold addDraft
    split
    · exact ih.trans (List.sublist_append_left _ _)
    · exact ih.append (List.Sublist.refl _)

/-- The new drafts of a longer list: those of its head, and some of its rest. -/
theorem newDrafts_append {s : RunState} {drafts : List AgentOutputEventDraft}
    (rest : List AgentOutputEventDraft) : ∃ more,
    newDrafts s (drafts ++ rest) = newDrafts s drafts ++ more ∧ more.Sublist rest := by
  induction rest using List.reverseRecOn with
  | nil => exact ⟨[], by simp, List.Sublist.refl []⟩
  | append_singleton rest draft ih =>
    obtain ⟨more, hmore, hsub⟩ := ih
    rw [← List.append_assoc, newDrafts_concat, hmore]
    unfold addDraft
    split
    · exact ⟨more, rfl, hsub.trans (List.sublist_append_left _ _)⟩
    · exact ⟨more ++ [draft], List.append_assoc .., hsub.append (List.Sublist.refl _)⟩

/-- A free key of a draft is taken by a new draft. -/
theorem mem_keys_newDrafts {s : RunState} {drafts : List AgentOutputEventDraft}
    {draft : AgentOutputEventDraft} (hmem : draft ∈ drafts)
    (hfree : s.eventsBySourceKey.get? draft.sourceEventKey = none) :
    draft.sourceEventKey ∈ (newDrafts s drafts).map (·.sourceEventKey) := by
  induction drafts using List.reverseRecOn with
  | nil => cases hmem
  | append_singleton drafts last ih =>
    rw [newDrafts_concat]
    unfold addDraft
    rcases List.mem_append.1 hmem with hmem | hmem
    · split
      · exact ih hmem
      · exact List.map_subset _ (List.subset_append_left _ _) (ih hmem)
    · rw [List.mem_singleton] at hmem
      subst hmem
      split
      · rename_i htaken
        rw [hfree] at htaken
        exact htaken.resolve_left Bool.false_ne_true
      · exact List.mem_map_of_mem (List.mem_append_right _ (List.mem_singleton_self _))

/-- The root a Run belongs to. -/
def RunState.rootOf (s : RunState) (runId : String) : String :=
  ((s.runs.get? runId).bind (·.params.rootRunId)).getD runId

theorem RunState.rootOf_eq {s : RunState} {runId : String} {run : StoredRun}
    (h : s.runs.get? runId = some run) : s.rootOf runId = run.scopeId runId := by
  unfold rootOf StoredRun.scopeId
  rw [h]
  rfl

/-- The drafts of the events of a root. -/
def RunState.rootDraftsOf (s : RunState) (rootRunId : String) : List AgentOutputEventDraft :=
  (s.rootEventsOf rootRunId).map (·.toAgentOutputEventDraft)

/-- A record after events of its Run were appended: its counters have moved. -/
def StoredRun.charged (record : StoredRun) (cost : Nat × Nat) : StoredRun :=
  { record with
    providerOutputEvents := record.providerOutputEvents + cost.1
    providerOutputBytes := record.providerOutputBytes + cost.2 }

theorem StoredRun.charged_charged (record : StoredRun) (cost cost' : Nat × Nat) :
    (record.charged cost).charged cost' = record.charged (cost.1 + cost'.1, cost.2 + cost'.2) := by
  unfold charged
  simp only [Nat.add_assoc]

/-- `news` were appended to `s`, which is `s'` now. -/
structure Extended (s s' : RunState) (news : List AgentOutputEventDraft) : Prop where
  streams : s'.streams = s.streams
  runs : ∀ runId record, s.runs.get? runId = some record →
    ∃ cost, s'.runs.get? runId = some (record.charged cost)
  absent : ∀ runId, s.runs.get? runId = none → s'.runs.get? runId = none
  events : ∀ runId, s.eventsOf runId <+: s'.eventsOf runId
  drafts : ∀ runId, s'.draftsOf runId =
    s.draftsOf runId ++ news.filter fun draft => draft.runId = runId
  rootDrafts : ∀ rootRunId, s'.rootDraftsOf rootRunId =
    s.rootDraftsOf rootRunId ++ news.filter fun draft => s.rootOf draft.runId = rootRunId
  stored : ∀ key event, s.eventsBySourceKey.get? key = some event →
    s'.eventsBySourceKey.get? key = some event
  free : ∀ key, s'.eventsBySourceKey.get? key = none ↔
    s.eventsBySourceKey.get? key = none ∧ key ∉ news.map (·.sourceEventKey)
  found : ∀ draft ∈ news, ∃ event, s'.eventsBySourceKey.get? draft.sourceEventKey = some event ∧
    event.toAgentOutputEventDraft = draft

namespace Extended

variable {s s' s'' : RunState} {news more : List AgentOutputEventDraft}

theorem refl (s : RunState) : Extended s s [] where
  streams := rfl
  runs _ record h := ⟨(0, 0), h⟩
  absent _ h := h
  events runId := List.prefix_refl _
  drafts _ := by simp
  rootDrafts _ := by simp
  stored _ _ h := h
  free _ := by simp
  found _ h := absurd h List.not_mem_nil

/-- The Runs belong to the same roots. -/
theorem rootOf (h : Extended s s' news) (runId : String) : s'.rootOf runId = s.rootOf runId := by
  unfold RunState.rootOf
  cases hget : s.runs.get? runId with
  | none => rw [h.absent runId hget]
  | some record =>
    obtain ⟨cost, hget'⟩ := h.runs runId record hget
    rw [hget']
    rfl

theorem trans (h : Extended s s' news) (h' : Extended s' s'' more) :
    Extended s s'' (news ++ more) where
  streams := h'.streams.trans h.streams
  runs runId record hget := by
    obtain ⟨cost, hs⟩ := h.runs runId record hget
    obtain ⟨cost', ht⟩ := h'.runs runId _ hs
    rw [StoredRun.charged_charged] at ht
    exact ⟨_, ht⟩
  absent runId hget := h'.absent runId (h.absent runId hget)
  events runId := (h.events runId).trans (h'.events runId)
  drafts runId := by
    rw [h'.drafts, h.drafts, List.filter_append, List.append_assoc]
  rootDrafts rootRunId := by
    rw [h'.rootDrafts, h.rootDrafts, List.filter_append, List.append_assoc]
    simp only [h.rootOf]
  stored key event hget := h'.stored key event (h.stored key event hget)
  free key := by
    rw [h'.free, h.free, List.map_append, List.mem_append, not_or, and_assoc]
  found draft hdraft := by
    rcases List.mem_append.1 hdraft with hnews | hmore
    · obtain ⟨event, hget, hdraft⟩ := h.found draft hnews
      exact ⟨event, h'.stored _ event hget, hdraft⟩
    · exact h'.found draft hmore

/-- What changed no journal added nothing. -/
theorem eq_nil (h : Extended s s' news) (hsame : ∀ runId, s'.draftsOf runId = s.draftsOf runId) :
    news = [] := by
  refine List.eq_nil_iff_forall_not_mem.2 fun draft hdraft => ?_
  have hnone := h.drafts draft.runId
  rw [hsame, List.self_eq_append_right, List.filter_eq_nil_iff] at hnone
  exact hnone draft hdraft (decide_eq_true rfl)

variable {host : Host} {draft : AgentOutputEventDraft} {run : StoredRun}

theorem appended (hrun : s.runs.get? draft.runId = some run)
    (hnew : s.eventsBySourceKey.get? draft.sourceEventKey = none) :
    Extended s (s.appended host draft run) [draft] where
  streams := rfl
  runs runId record hget := by
    unfold RunState.appended
    rw [Dict.get?_set]
    split
    · rename_i heq
      subst heq
      rw [hrun] at hget
      cases hget
      exact ⟨providerOutputCost host draft, rfl⟩
    · exact ⟨(0, 0), hget⟩
  absent runId hget := Dict.get?_set_eq_none hrun hget
  events runId := by
    rw [Journalled.eventsOf_appended]
    split
    · exact List.prefix_append _ _
    · exact List.prefix_refl _
  drafts runId := by
    unfold RunState.draftsOf
    rw [Journalled.eventsOf_appended]
    by_cases hid : draft.runId = runId
    · rw [if_pos hid, List.map_append, List.filter_singleton, decide_eq_true hid]
      rfl
    · rw [if_neg hid, List.filter_singleton, decide_eq_false hid]
      simp
  rootDrafts rootRunId := by
    unfold RunState.rootDraftsOf
    rw [Journalled.rootEventsOf_appended, List.filter_singleton, RunState.rootOf_eq hrun]
    by_cases hid : run.scopeId draft.runId = rootRunId
    · rw [if_pos hid, List.map_append, decide_eq_true hid]
      rfl
    · rw [if_neg hid, decide_eq_false hid]
      simp
  stored key event hget := by
    unfold RunState.appended
    rw [Dict.get?_set_of_ne]
    · exact hget
    · rintro rfl
      rw [hnew] at hget
      cases hget
  free key := by
    unfold RunState.appended
    rw [Dict.get?_set]
    by_cases hkey : key = draft.sourceEventKey
    · subst hkey
      rw [if_pos rfl]
      refine iff_of_false (fun h => by cases h) fun h => h.2 ?_
      exact List.mem_singleton_self _
    · rw [if_neg hkey]
      simp [hkey]
  found other hother := by
    rw [List.mem_singleton.1 hother]
    exact ⟨s.stamped draft run, Dict.get?_set_self .., rfl⟩

end Extended

/-! ## Appends that go through -/

section

variable (host : Host)

variable {writer : Writer} {reading : Nat} {draft : AgentOutputEventDraft} {s s' : RunState}
  {event : AgentOutputEvent}

/-- An append that went through has added its draft, when it is new. -/
theorem appendEvent_extends {mode : AppendMode}
    (h : appendEvent host writer reading draft mode s = (.ok event, s')) :
    Extended s s' (if s.eventsBySourceKey.get? draft.sourceEventKey = none then [draft] else []) ∧
      s'.eventsBySourceKey.get? draft.sourceEventKey = some event := by
  have hcases := appendEvent_cases host writer reading draft mode s
  rw [h] at hcases
  cases hcases with
  | found _ hfound =>
    have hget : s.eventsBySourceKey.get? draft.sourceEventKey = some event := by
      unfold existingEvent at hfound
      cases hkey : s.eventsBySourceKey.get? draft.sourceEventKey with
      | none =>
        rw [hkey] at hfound
        cases hfound
      | some stored =>
        rw [hkey] at hfound
        dsimp only at hfound
        split at hfound
        · cases hfound
        · cases hfound
          rfl
    rw [if_neg (by rw [hget]; exact Option.some_ne_none event)]
    exact ⟨.refl s, hget⟩
  | wrote run hnew hcheck =>
    have hnone := (existingEvent_eq_none host).1 hnew
    rw [if_pos hnone]
    refine ⟨.appended (validateNewEvent_run host (checkNewEvent_run host hcheck).1) hnone, ?_⟩
    unfold RunState.appended
    exact Dict.get?_set_self ..

variable {drafts : List AgentOutputEventDraft}

/-- The new drafts after one more append. -/
theorem Extended.concat {s'' : RunState} (h : Extended s s' (newDrafts s drafts))
    (h' : Extended s' s''
      (if s'.eventsBySourceKey.get? draft.sourceEventKey = none then [draft] else [])) :
    Extended s s'' (newDrafts s (drafts ++ [draft])) := by
  have htrans := h.trans h'
  rw [newDrafts_concat]
  unfold addDraft
  by_cases hfree : s'.eventsBySourceKey.get? draft.sourceEventKey = none
  · have hboth := (h.free _).1 hfree
    rw [if_pos hfree] at htrans
    rw [if_neg (by simp [hboth.1, hboth.2])]
    exact htrans
  · have htaken : (s.eventsBySourceKey.get? draft.sourceEventKey).isSome = true ∨
        draft.sourceEventKey ∈ (newDrafts s drafts).map (·.sourceEventKey) := by
      by_contra hnot
      rw [not_or, Option.not_isSome_iff_eq_none] at hnot
      exact hfree ((h.free _).2 hnot)
    rw [if_neg hfree, List.append_nil] at htrans
    rw [if_pos htaken]
    exact htrans

/-- The drafts and the events that were returned for them. -/
def Answered (s : RunState) (drafts : List AgentOutputEventDraft) (events : List AgentOutputEvent) :
    Prop :=
  List.Forall₂ (fun draft event =>
    s.eventsBySourceKey.get? draft.sourceEventKey = some event) drafts events

/-- Every draft went through at its turn: when the ones before it had joined the journal. -/
def TookTurns (writer : Writer) (mode : AgentOutputEventDraft → AppendMode) (reading : Nat)
    (s : RunState) (drafts : List AgentOutputEventDraft) : Prop :=
  ∀ before draft after, drafts = before ++ draft :: after → ∃ now event next,
    Extended s now (newDrafts s before) ∧
      appendEvent host writer (reading + before.length) draft (mode draft) now = (.ok event, next)

/-- What a list of appends did: all went through, or one failed when the ones before it had. -/
inductive AppendingAll (writer : Writer) (mode : AgentOutputEventDraft → AppendMode)
    (reading : Nat) (s : RunState) (drafts : List AgentOutputEventDraft) :
    Except PyError (List AgentOutputEvent) × RunState → Prop where
  | went {events : List AgentOutputEvent} {s' : RunState}
      (hturns : TookTurns host writer mode reading s drafts)
      (hextended : Extended s s' (newDrafts s drafts)) (hanswered : Answered s' drafts events) :
      AppendingAll writer mode reading s drafts (.ok events, s')
  | stopped {before after : List AgentOutputEventDraft} {draft : AgentOutputEventDraft}
      {e : PyError} {s' : RunState} (hsplit : drafts = before ++ draft :: after)
      (hturns : TookTurns host writer mode reading s before)
      (hextended : Extended s s' (newDrafts s before)) (hsame : newDrafts s before = [] → s' = s)
      (hfails : appendEvent host writer (reading + before.length) draft (mode draft) s' =
        (.error e, s')) : AppendingAll writer mode reading s drafts (.error e, s')

/-- One more draft took its turn. -/
theorem TookTurns.concat {mode : AgentOutputEventDraft → AppendMode} {now next : RunState}
    (h : TookTurns host writer mode reading s drafts) (hnow : Extended s now (newDrafts s drafts))
    (happend : appendEvent host writer (reading + drafts.length) draft (mode draft) now =
      (.ok event, next)) : TookTurns host writer mode reading s (drafts ++ [draft]) := by
  intro before last after hsplit
  rcases List.eq_nil_or_concat after with rfl | ⟨after, final, rfl⟩
  · obtain ⟨rfl, hlast⟩ := List.append_inj' hsplit rfl
    cases hlast
    exact ⟨now, event, next, hnow, happend⟩
  · rw [List.concat_eq_append, ← List.cons_append, ← List.append_assoc] at hsplit
    exact h before last after (List.append_inj' hsplit rfl).1

/-- An append that is refused leaves the state as it was. -/
theorem appendEvent_atomic (writer : Writer) (reading : Nat) (draft : AgentOutputEventDraft)
    (mode : AppendMode) : Atomic (appendEvent host writer reading draft mode) := by
  intro s e s' h
  have hcases := appendEvent_cases host writer reading draft mode s
  rw [h] at hcases
  cases hcases
  rfl

theorem appendAll_cases (writer : Writer) (mode : AgentOutputEventDraft → AppendMode)
    (reading : Nat) (drafts : List AgentOutputEventDraft) (s : RunState) :
    AppendingAll host writer mode reading s drafts
      (appendAll host writer mode reading drafts s) := by
  -- the drafts that were appended so far are `done`, they led to `now`, and were answered there
  have hgen : ∀ (rest done : List AgentOutputEventDraft) (now : RunState),
      Extended s now (newDrafts s done) → (newDrafts s done = [] → now = s) →
      TookTurns host writer mode reading s done →
      ∀ result, appendAll host writer mode (reading + done.length) rest now = result →
        (∀ events, result.1 = .ok events →
          (∀ key event, now.eventsBySourceKey.get? key = some event →
            result.2.eventsBySourceKey.get? key = some event) ∧
          TookTurns host writer mode reading s (done ++ rest) ∧
          Extended s result.2 (newDrafts s (done ++ rest)) ∧ Answered result.2 rest events) ∧
        (∀ e, result.1 = .error e → ∃ before draft after, rest = before ++ draft :: after ∧
          TookTurns host writer mode reading s (done ++ before) ∧
          Extended s result.2 (newDrafts s (done ++ before)) ∧
          (newDrafts s (done ++ before) = [] → result.2 = s) ∧
          appendEvent host writer (reading + (done ++ before).length) draft (mode draft) result.2 =
            (.error e, result.2)) := by
    intro rest
    induction rest with
    | nil =>
      rintro done now hnow hsame hturns result rfl
      refine ⟨fun events hok => ?_, fun e herror => by cases herror⟩
      cases hok
      rw [List.append_nil]
      exact ⟨fun _ _ h => h, hturns, hnow, .nil⟩
    | cons draft rest ih =>
      rintro done now hnow hsame hturns result rfl
      have hunfold : appendAll host writer mode (reading + done.length) (draft :: rest) now =
          (appendEvent host writer (reading + done.length) draft (mode draft) >>= fun event =>
            appendAll host writer mode (reading + done.length + 1) rest >>= fun events =>
              pure (event :: events)) now := rfl
      rw [hunfold, Action.bind_apply]
      cases happend : appendEvent host writer (reading + done.length) draft (mode draft) now with
      | mk outcome next =>
      cases outcome with
      | error e =>
        have hnext := appendEvent_atomic host _ _ _ _ _ _ _ happend
        subst hnext
        refine ⟨fun events hok => (by cases hok), fun e' herror => ?_⟩
        cases herror
        exact ⟨[], draft, rest, rfl, by rwa [List.append_nil], by rwa [List.append_nil],
          by rwa [List.append_nil], by rwa [List.append_nil]⟩
      | ok event =>
        obtain ⟨hstep, hstored⟩ := appendEvent_extends host happend
        have hnext := hnow.concat hstep
        have hsame' : newDrafts s (done ++ [draft]) = [] → next = s := by
          intro hnil
          obtain ⟨more, hmore, -⟩ := @newDrafts_append s done [draft]
          rw [hnil] at hmore
          obtain ⟨hdone, rfl⟩ := List.append_eq_nil_iff.1 hmore.symm
          cases hsame hdone
          -- nothing is new, so the draft was found
          have hcases := appendEvent_cases host writer (reading + done.length) draft (mode draft) s
          rw [happend] at hcases
          cases hcases with
          | found _ _ => rfl
          | wrote run hnew _ =>
            have hfree := (existingEvent_eq_none host).1 hnew
            rw [newDrafts_concat, hdone] at hnil
            unfold addDraft at hnil
            rw [if_neg (by simp [hfree])] at hnil
            cases hnil
        obtain ⟨hwent, hstopped⟩ := ih (done ++ [draft]) next hnext hsame'
          (hturns.concat host hnow happend) _ rfl
        rw [List.length_append, List.length_singleton] at hwent hstopped
        dsimp only
        rw [Action.bind_apply]
        cases hrest : appendAll host writer mode (reading + done.length + 1) rest next with
        | mk others last =>
        rw [← Nat.add_assoc, hrest] at hwent hstopped
        cases others with
        | error e =>
          refine ⟨fun events hok => (by cases hok), fun e' herror => ?_⟩
          cases herror
          obtain ⟨before, failed, after, hsplit, hall⟩ := hstopped e rfl
          refine ⟨draft :: before, failed, after, by rw [hsplit]; rfl, ?_⟩
          rwa [List.append_assoc, List.singleton_append] at hall
        | ok events =>
          refine ⟨fun all hok => ?_, fun e' herror => by cases herror⟩
          cases hok
          obtain ⟨hkept, hturns', hextended, hanswered⟩ := hwent events rfl
          rw [List.append_assoc, List.singleton_append] at hturns' hextended
          exact ⟨fun key stored hget => hkept key stored (hstep.stored key stored hget), hturns',
            hextended, .cons (hkept _ _ hstored) hanswered⟩
  have hnone : TookTurns host writer mode reading s [] := fun before _ _ hsplit => by
    simp at hsplit
  obtain ⟨hwent, hstopped⟩ := hgen drafts [] s (.refl s) (fun _ => rfl) hnone _ rfl
  rw [List.length_nil, Nat.add_zero] at hwent hstopped
  generalize appendAll host writer mode reading drafts s = result at hwent hstopped ⊢
  obtain ⟨outcome, s'⟩ := result
  cases outcome with
  | ok events =>
    obtain ⟨-, hturns, hextended, hanswered⟩ := hwent events rfl
    exact .went hturns hextended hanswered
  | error e =>
    obtain ⟨before, draft, after, hsplit, hturns, hextended, hsame, hfails⟩ := hstopped e rfl
    exact .stopped hsplit hturns hextended hsame hfails

/-- What a list of appends adds is some of the drafts. -/
theorem appendAll_extended (writer : Writer) (mode : AgentOutputEventDraft → AppendMode)
    (reading : Nat) (drafts : List AgentOutputEventDraft) (s : RunState) :
    ∃ before, before <+: drafts ∧
      Extended s ((appendAll host writer mode reading drafts).final s) (newDrafts s before) := by
  unfold final
  have hcases := appendAll_cases host writer mode reading drafts s
  generalize appendAll host writer mode reading drafts s = result at hcases ⊢
  cases hcases with
  | went _ hextended _ => exact ⟨drafts, List.prefix_rfl, hextended⟩
  | stopped hsplit _ hextended => exact ⟨_, ⟨_, hsplit.symm⟩, hextended⟩

/-- What a list of appends did, when each of them goes through exactly under a condition: all went
through, or the first one that does not meet it was refused. -/
theorem appendAll_turns {mode : AgentOutputEventDraft → AppendMode}
    {accepted : List AgentOutputEventDraft → AgentOutputEventDraft → Prop}
    (hturn : ∀ before draft after, drafts = before ++ draft :: after → ∀ now,
      Extended s now (newDrafts s before) →
      ((∃ event next, appendEvent host writer (reading + before.length) draft (mode draft) now =
        (.ok event, next)) ↔ accepted before draft)) :
    ((∃ events s', appendAll host writer mode reading drafts s = (.ok events, s') ∧
        Extended s s' (newDrafts s drafts) ∧ Answered s' drafts events) ∧
      ∀ before draft after, drafts = before ++ draft :: after → accepted before draft) ∨
    ∃ e s' stop, appendAll host writer mode reading drafts s = (.error e, s') ∧
      Extended s s' (newDrafts s stop) ∧ (newDrafts s stop = [] → s' = s) ∧
      (∃ before draft after, drafts = before ++ draft :: after ∧ ¬ accepted before draft) ∧
      ((∃ before draft after, drafts = before ++ draft :: after ∧ newDrafts s before = [] ∧
        ¬ accepted before draft) ↔ newDrafts s stop = []) := by
  have hcases := appendAll_cases host writer mode reading drafts s
  generalize appendAll host writer mode reading drafts s = result at hcases ⊢
  cases hcases with
  | went hturns hextended hanswered =>
    refine Or.inl ⟨⟨_, _, rfl, hextended, hanswered⟩, fun before draft after hsplit => ?_⟩
    obtain ⟨now, event, next, hnow, happend⟩ := hturns before draft after hsplit
    exact (hturn before draft after hsplit now hnow).1 ⟨event, next, happend⟩
  | @stopped stop after draft e s' hsplit hturns hextended hsame hfails =>
    have hnot : ¬ accepted stop draft := by
      intro h
      obtain ⟨event, next, hok⟩ := (hturn stop draft after hsplit s' hextended).2 h
      rw [hfails] at hok
      cases hok
    refine Or.inr ⟨e, s', stop, rfl, hextended, hsame, ⟨stop, draft, after, hsplit, hnot⟩, ?_⟩
    constructor
    · rintro ⟨before, other, rest, hother, hnil, hrefused⟩
      -- the drafts in front of the first refusal were accepted, so it is not behind this one
      rcases List.append_eq_append_iff.1 (hsplit.symm.trans hother) with ⟨more, hmore, -⟩ |
        ⟨more, hmore, hrest⟩
      · obtain ⟨_, hnews, -⟩ := @newDrafts_append s stop more
        rw [hmore, hnews] at hnil
        exact (List.append_eq_nil_iff.1 hnil).1
      · cases more with
        | nil =>
          rw [hmore, List.append_nil]
          exact hnil
        | cons first more =>
          obtain ⟨rfl, -⟩ := List.cons.inj hrest
          obtain ⟨now, event, next, hnow, happend⟩ := hturns before other more hmore
          exact absurd ((hturn before other rest hother now hnow).1 ⟨event, next, happend⟩) hrefused
    · exact fun hnil => ⟨stop, draft, after, hsplit, hnil, hnot⟩

/-! ## Checks that are made again -/

variable {run : StoredRun}

theorem checkClaim_params {runId : String} {run' : StoredRun}
    {control : Bool} (hparams : run'.params = run.params) :
    checkClaim writer reading runId run' control = checkClaim writer reading runId run control := by
  unfold checkClaim
  rw [hparams]

theorem validateStream_again (hstreams : s'.streams = s.streams)
    (draft : AgentOutputEventDraft) (allow : Bool) :
    validateStream host s' draft allow = validateStream host s draft allow := by
  unfold validateStream requireStream
  rw [hstreams]

/-- A draft that was accepted is accepted again when the tree still grants the claim, and its
planning event passes again. -/
theorem validateNewEvent_again {i j : Nat} {allow control : Bool} {run' : StoredRun}
    (hstreams : s'.streams = s.streams) (hrun' : s'.runs.get? draft.runId = some run')
    (hparams : run'.params = run.params)
    (h : validateNewEvent host writer i s draft allow control = .ok run) :
    (∃ found, validateNewEvent host writer j s' draft allow control = .ok found) ↔
      checkClaim writer j draft.runId run control = .ok () ∧
        validatePlanning host s' run' draft = .ok () := by
  unfold validateNewEvent at h ⊢
  obtain ⟨found, hrun, h⟩ := bind_eq_ok h
  obtain ⟨_, hstream, h⟩ := bind_eq_ok h
  obtain ⟨_, _, h⟩ := bind_eq_ok h
  obtain ⟨_, heffect, h⟩ := bind_eq_ok h
  cases h
  constructor
  · rintro ⟨found', h'⟩
    obtain ⟨again, hagain, h'⟩ := bind_eq_ok h'
    obtain ⟨_, _, h'⟩ := bind_eq_ok h'
    obtain ⟨_, hplanning, -⟩ := bind_eq_ok h'
    obtain ⟨hget, hclaim⟩ := (requireRunWrite_eq_ok host).1 hagain
    rw [hrun'] at hget
    cases hget
    rw [checkClaim_params hparams] at hclaim
    exact ⟨hclaim, hplanning⟩
  · rintro ⟨hclaim, hplanning⟩
    rw [← checkClaim_params hparams] at hclaim
    rw [(requireRunWrite_eq_ok host).2 ⟨hrun', hclaim⟩, ok_bind,
      validateStream_again host hstreams, hstream, ok_bind, hplanning, ok_bind, heffect]
    exact ⟨run', rfl⟩

theorem validateNewEvent_planning {allow control : Bool}
    (h : validateNewEvent host writer reading s draft allow control = .ok run) :
    validatePlanning host s run draft = .ok () := by
  have hget := validateNewEvent_run host h
  unfold validateNewEvent at h
  obtain ⟨found, hrun, h⟩ := bind_eq_ok h
  obtain ⟨_, _, h⟩ := bind_eq_ok h
  obtain ⟨_, hplanning, h⟩ := bind_eq_ok h
  obtain ⟨_, _, h⟩ := bind_eq_ok h
  cases h
  exact hplanning

/-- The planning check, on a journal of the Run that is given. -/
def planningAccepts (s : RunState) (events : List AgentOutputEventDraft)
    (draft : AgentOutputEventDraft) : Except PyError Unit :=
  validatePlanningProjection host.py host.loads
    ((draft.outputStreamId.bind s.streams.get?).map (·.spec)) events draft

theorem validatePlanning_eq :
    validatePlanning host s run draft = .ok () ↔ draft.kind.isPlanning = true →
      run.status = .running ∧ planningAccepts host s (s.draftsOf draft.runId) draft = .ok () := by
  unfold validatePlanning planningAccepts
  by_cases hkind : draft.kind.isPlanning = true
  · rw [if_neg (by simp [hkind])]
    by_cases hstatus : run.status = .running
    · rw [if_neg (not_not.2 hstatus)]
      simp [hkind, hstatus]
    · rw [if_pos hstatus]
      simp [hkind, hstatus]
  · rw [if_pos (Bool.eq_false_iff.2 hkind)]
    simp [hkind]

theorem existingEvent_stored (hstored : ∀ key event, s.eventsBySourceKey.get? key = some event →
      s'.eventsBySourceKey.get? key = some event)
    (h : existingEvent host s draft = .ok (some event)) :
    existingEvent host s' draft = .ok (some event) := by
  unfold existingEvent at h ⊢
  cases hget : s.eventsBySourceKey.get? draft.sourceEventKey with
  | none =>
    rw [hget] at h
    cases h
  | some stored =>
    rw [hget] at h
    rw [hstored _ _ hget]
    exact h

theorem appendEvent_found {mode : AppendMode} (h : existingEvent host s draft = .ok (some event)) :
    appendEvent host writer reading draft mode s = (.ok event, s) := by
  unfold appendEvent
  rw [h]

/-- The event an earlier draft becomes is the one a later draft asks for. -/
def Agrees (earlier later : AgentOutputEventDraft) : Prop :=
  ∀ event : AgentOutputEvent, event.toAgentOutputEventDraft = earlier →
    eventMatchesDraft event later = true

/-- A draft is accepted at its turn, when the new drafts before it have been appended and the Runs in
`ended` have ended: it asks for the same event as one of these with its key; and if there is none,
the Run tree grants the claim of the writer at this reading, and a planning event is of a Run that
goes on, and is accepted by the journal that these drafts have joined. -/
structure TurnAccepted (writer : Writer) (s : RunState) (ended : String → Prop) (reading : Nat)
    (before : List AgentOutputEventDraft) (draft : AgentOutputEventDraft) : Prop where
  agrees : ∀ earlier ∈ newDrafts s before, earlier.sourceEventKey = draft.sourceEventKey →
    Agrees earlier draft
  claim : s.eventsBySourceKey.get? draft.sourceEventKey = none →
    draft.sourceEventKey ∉ (newDrafts s before).map (·.sourceEventKey) →
    ∀ run, s.runs.get? draft.runId = some run → checkClaim writer reading draft.runId run false = .ok ()
  planning : s.eventsBySourceKey.get? draft.sourceEventKey = none →
    draft.sourceEventKey ∉ (newDrafts s before).map (·.sourceEventKey) →
    draft.kind.isPlanning = true → ¬ ended draft.runId ∧ planningAccepts host s
      (s.draftsOf draft.runId ++ (newDrafts s before).filter fun d => d.runId = draft.runId) draft =
        .ok ()

/-- What the appends of a call find: the tables of `s`, but for the Runs in `ended`, which have
ended. -/
structure Resumes (s start : RunState) (ended : String → Prop) : Prop where
  streams : start.streams = s.streams
  drafts : ∀ runId, start.draftsOf runId = s.draftsOf runId
  keys : start.eventsBySourceKey = s.eventsBySourceKey
  runs : ∀ runId run, s.runs.get? runId = some run → ∃ run',
    start.runs.get? runId = some run' ∧ run'.params = run.params ∧
      (run'.status = .running ↔ ¬ ended runId ∧ run.status = .running)

theorem Resumes.refl (s : RunState) : Resumes s s fun _ => False :=
  ⟨rfl, fun _ => rfl, rfl, fun _ run hget => ⟨run, hget, rfl, by simp⟩⟩

theorem planningAccepts_again (hstreams : s'.streams = s.streams)
    (events : List AgentOutputEventDraft) (draft : AgentOutputEventDraft) :
    planningAccepts host s' events draft = planningAccepts host s events draft := by
  unfold planningAccepts
  rw [hstreams]

/-- A draft whose key an earlier one took goes through exactly when it asks for the same event. -/
theorem appendEvent_taken_iff {start now : RunState} {ended : String → Prop} {mode : AppendMode}
    {before : List AgentOutputEventDraft} (hnow : Extended start now (newDrafts s before))
    (htaken : draft.sourceEventKey ∈ (newDrafts s before).map (·.sourceEventKey)) :
    (∃ event next, appendEvent host writer reading draft mode now = (.ok event, next)) ↔
      TurnAccepted host writer s ended reading before draft := by
  obtain ⟨earlier, hearlier, hkey⟩ := List.mem_map.1 htaken
  obtain ⟨event, hget, hevent⟩ := hnow.found earlier hearlier
  have hagrees : TurnAccepted host writer s ended reading before draft ↔
      eventMatchesDraft event draft = true := by
    constructor
    · exact fun h => h.agrees earlier hearlier hkey event hevent
    · intro h
      refine ⟨fun other hother hsame event' hevent' => ?_, fun _ hnot => absurd htaken hnot,
        fun _ hnot => absurd htaken hnot⟩
      obtain ⟨stored, hstored', hdraft⟩ := hnow.found other hother
      rw [hsame, ← hkey, hget] at hstored'
      cases hstored'
      unfold eventMatchesDraft at h ⊢
      rw [hevent', ← hdraft]
      exact h
  rw [hagrees]
  rw [hkey] at hget
  cases hmatches : eventMatchesDraft event draft with
  | true =>
    refine iff_of_true ⟨event, now, appendEvent_found host ?_⟩ rfl
    unfold existingEvent
    rw [hget]
    dsimp only
    rw [hmatches, if_neg Bool.true_eq_false_eq_False]
  | false =>
    refine iff_of_false ?_ Bool.false_ne_true
    rintro ⟨found, next, happend⟩
    unfold appendEvent existingEvent at happend
    rw [hget] at happend
    dsimp only at happend
    rw [hmatches, if_pos rfl] at happend
    cases happend

/-- A draft that was accepted as new when the call began, and is still new at its turn. -/
theorem appendEvent_new_iff {start now : RunState} {ended : String → Prop}
    {mode : AppendMode} (hresumes : Resumes s start ended)
    (hbudget : mode.budgetPrechecked = true) (hcontrol : mode.controlCancellation = false)
    {before : List AgentOutputEventDraft} {i : Nat} {run : StoredRun}
    (hnew : existingEvent host s draft = .ok none)
    (hvalid : validateNewEvent host writer i s draft mode.allowCommitted false = .ok run)
    (hnow : Extended start now (newDrafts s before))
    (hfresh : draft.sourceEventKey ∉ (newDrafts s before).map (·.sourceEventKey)) :
    (∃ event next, appendEvent host writer reading draft mode now = (.ok event, next)) ↔
      TurnAccepted host writer s ended reading before draft := by
  have hnone := (existingEvent_eq_none host).1 hnew
  have hfree : now.eventsBySourceKey.get? draft.sourceEventKey = none :=
    (hnow.free _).2 ⟨by rwa [hresumes.keys], hfresh⟩
  have hget := validateNewEvent_run host hvalid
  obtain ⟨run₁, hget₁, hparams, hstatus⟩ := hresumes.runs _ run hget
  obtain ⟨cost, hget'⟩ := hnow.runs _ run₁ hget₁
  have happend : (∃ event next, appendEvent host writer reading draft mode now =
      (.ok event, next)) ↔ ∃ found, validateNewEvent host writer reading now draft
        mode.allowCommitted false = .ok found := by
    unfold appendEvent checkNewEvent
    rw [(existingEvent_eq_none host).2 hfree, hcontrol]
    cases validateNewEvent host writer reading now draft mode.allowCommitted false with
    | error e => simp [bind, Except.bind]
    | ok found => simp [bind, Except.bind, hbudget]
  rw [happend, validateNewEvent_again host (hnow.streams.trans hresumes.streams) hget'
    (show (run₁.charged cost).params = run.params from hparams) hvalid, validatePlanning_eq,
    hnow.drafts, hresumes.drafts,
    planningAccepts_again host (hnow.streams.trans hresumes.streams)]
  have hplanning := (validatePlanning_eq host).1 (validateNewEvent_planning host hvalid)
  constructor
  · rintro ⟨hclaim, hagain⟩
    refine ⟨fun earlier hearlier hkey => ?_, fun _ _ found hfound => ?_, fun _ _ hkind => ?_⟩
    · exact absurd (hkey ▸ List.mem_map_of_mem hearlier) hfresh
    · rw [hget] at hfound
      cases hfound
      exact hclaim
    · obtain ⟨hrunning, haccepts⟩ := hagain hkind
      exact ⟨(hstatus.1 hrunning).1, haccepts⟩
  · intro h
    refine ⟨h.claim hnone hfresh run hget, fun hkind => ?_⟩
    obtain ⟨hgoes, haccepts⟩ := h.planning hnone hfresh hkind
    exact ⟨hstatus.2 ⟨hgoes, (hplanning hkind).1⟩, haccepts⟩

/-- A draft that was found, or accepted, when the call began goes through at its turn exactly when it
is accepted then. -/
theorem appendEvent_turn_iff {start now : RunState} {ended : String → Prop}
    {mode : AppendMode} (hresumes : Resumes s start ended)
    (hbudget : mode.budgetPrechecked = true) (hcontrol : mode.controlCancellation = false)
    {before : List AgentOutputEventDraft}
    (hchecked : (∃ event, existingEvent host s draft = .ok (some event)) ∨
      existingEvent host s draft = .ok none ∧
        ∃ i run, validateNewEvent host writer i s draft mode.allowCommitted false = .ok run)
    (hnow : Extended start now (newDrafts s before)) :
    (∃ event next, appendEvent host writer reading draft mode now = (.ok event, next)) ↔
      TurnAccepted host writer s ended reading before draft := by
  by_cases htaken : draft.sourceEventKey ∈ (newDrafts s before).map (·.sourceEventKey)
  · exact appendEvent_taken_iff host hnow htaken
  · rcases hchecked with ⟨event, hfound⟩ | ⟨hnew, i, run, hvalid⟩
    · refine iff_of_true ⟨event, now, appendEvent_found host ?_⟩ ?_
      · refine existingEvent_stored host (fun key found hget => ?_) hfound
        exact hnow.stored key found (by rwa [hresumes.keys])
      · have hsome : s.eventsBySourceKey.get? draft.sourceEventKey ≠ none := by
          intro hnone
          rw [(existingEvent_eq_none host).2 hnone] at hfound
          cases hfound
        refine ⟨fun earlier hearlier hkey => ?_, fun hnone => absurd hnone hsome,
          fun hnone => absurd hnone hsome⟩
        exact absurd (hkey ▸ List.mem_map_of_mem hearlier) htaken
    · exact appendEvent_new_iff host hresumes hbudget hcontrol hnew hvalid hnow htaken

/-! ## Batches -/

/-- The drafts whose key is free. -/
def freeDrafts (s : RunState) (drafts : List AgentOutputEventDraft) : List AgentOutputEventDraft :=
  drafts.filter fun draft => (s.eventsBySourceKey.get? draft.sourceEventKey).isNone

/-- What a batch leaves that went through: its new drafts stand at the end of the journal of their
Run, numbered on, and every draft is answered with the event stored under its key. -/
structure BatchAppended (s s' : RunState) (drafts : List AgentOutputEventDraft)
    (events : List AgentOutputEvent) : Prop where
  journal : ∀ runId, ∃ appended, s'.eventsOf runId = s.eventsOf runId ++ appended ∧
    appended.map (·.toAgentOutputEventDraft) =
      (freeDrafts s drafts).filter (fun draft => draft.runId = runId) ∧
    appended.map (·.sequence) = List.range' ((s.eventsOf runId).length + 1) appended.length
  answers : Answered s' drafts events

/-- Every draft of a batch that passed was found with the same content, or accepted. -/
theorem pendingDrafts_spec {pending : List AgentOutputEventDraft}
    (h : pendingDrafts host writer s reading drafts = .ok pending) :
    pending = freeDrafts s drafts ∧
      ∀ draft ∈ drafts, (∃ event, existingEvent host s draft = .ok (some event)) ∨
        existingEvent host s draft = .ok none ∧
          ∃ i run, validateNewEvent host writer i s draft false false = .ok run := by
  induction drafts generalizing reading pending with
  | nil =>
    cases h
    exact ⟨rfl, fun _ hd => absurd hd List.not_mem_nil⟩
  | cons draft rest ih =>
    obtain ⟨existing, hexisting, h⟩ := bind_eq_ok h
    cases existing with
    | some event =>
      obtain ⟨hpending, hall⟩ := ih h
      have hsome : (s.eventsBySourceKey.get? draft.sourceEventKey).isNone = false := by
        cases hget : s.eventsBySourceKey.get? draft.sourceEventKey with
        | some _ => rfl
        | none =>
          rw [(existingEvent_eq_none host).2 hget] at hexisting
          cases hexisting
      refine ⟨?_, List.forall_mem_cons.2 ⟨Or.inl ⟨event, hexisting⟩, hall⟩⟩
      unfold freeDrafts
      rw [List.filter_cons, hsome, hpending]
      rfl
    | none =>
      obtain ⟨run, hvalid, h⟩ := bind_eq_ok h
      obtain ⟨others, hothers, h⟩ := bind_eq_ok h
      cases h
      obtain ⟨hpending, hall⟩ := ih hothers
      refine ⟨?_, List.forall_mem_cons.2 ⟨Or.inr ⟨hexisting, reading, run, hvalid⟩, hall⟩⟩
      unfold freeDrafts
      rw [List.filter_cons, (existingEvent_eq_none host).1 hexisting, hpending]
      rfl

/-- What the checks in front of a batch established. -/
theorem precheckBatch_spec {first : AgentOutputEventDraft}
    {rest : List AgentOutputEventDraft} (h : precheckBatch host writer s first rest = .ok ()) :
    (∀ draft ∈ first :: rest, draft.runId = first.runId) ∧
      ((first :: rest).map (·.sourceEventKey)).Nodup ∧
      ∃ pending run, pendingDrafts host writer s 0 (first :: rest) = .ok pending ∧
        s.runs.get? first.runId = some run ∧
        requireProviderOutputBudget host s first.runId run (totalCost host pending) = .ok () := by
  obtain ⟨_, hsame, h⟩ := bind_eq_ok h
  obtain ⟨_, hkeys, h⟩ := bind_eq_ok h
  obtain ⟨pending, hpending, h⟩ := bind_eq_ok h
  obtain ⟨run, hrun, h⟩ := bind_eq_ok h
  refine ⟨List.forall_mem_cons.2 ⟨rfl, fun draft hdraft => ?_⟩, not_not.1 (rejectIf_eq_ok.1 hkeys),
    pending, run, hpending, (requireRun_eq_ok host).1 hrun, h⟩
  by_contra hne
  exact rejectIf_eq_ok.1 hsame ⟨draft, hdraft, hne⟩

/-- With distinct keys, the new drafts are those whose key is free. -/
theorem newDrafts_of_nodup (hkeys : (drafts.map (·.sourceEventKey)).Nodup) :
    newDrafts s drafts = freeDrafts s drafts := by
  induction drafts using List.reverseRecOn with
  | nil => rfl
  | append_singleton drafts draft ih =>
    rw [List.map_append, List.map_singleton, List.nodup_append'] at hkeys
    have hfresh : draft.sourceEventKey ∉ drafts.map (·.sourceEventKey) := by
      have := hkeys.2.2
      rwa [List.disjoint_singleton] at this
    have hnot : draft.sourceEventKey ∉ (freeDrafts s drafts).map (·.sourceEventKey) :=
      fun hmem => hfresh (List.Sublist.subset (List.filter_sublist.map _) hmem)
    rw [newDrafts_concat, ih hkeys.1]
    unfold freeDrafts at hnot ⊢
    rw [List.filter_append]
    unfold addDraft
    cases hget : s.eventsBySourceKey.get? draft.sourceEventKey with
    | none => simp [hget, hnot]
    | some event => simp [hget]

/-- The events that joined the journal of a Run carry the next numbers. -/
theorem Extended.numbered {news : List AgentOutputEventDraft}
    (hs : JournalInvariant s) (hs' : JournalInvariant s') (h : Extended s s' news)
    (runId : String) :
    ∃ appended, s'.eventsOf runId = s.eventsOf runId ++ appended ∧
      appended.map (·.toAgentOutputEventDraft) = news.filter (fun draft => draft.runId = runId) ∧
      appended.map (·.sequence) =
        List.range' ((s.eventsOf runId).length + 1) appended.length := by
  obtain ⟨appended, happended⟩ := h.events runId
  refine ⟨appended, happended.symm, ?_, ?_⟩
  · have hdrafts := h.drafts runId
    unfold RunState.draftsOf at hdrafts
    rw [← happended, List.map_append] at hdrafts
    exact List.append_cancel_left hdrafts
  · have hseq := hs'.sequences runId
    rw [← happended, List.map_append, hs.sequences runId, List.length_append,
      ← List.range'_append_1, Nat.add_comm 1] at hseq
    exact List.append_cancel_left hseq

theorem appendEvents_cons (writer : Writer) (first : AgentOutputEventDraft)
    (rest : List AgentOutputEventDraft) (s : RunState) :
    appendEvents host writer (first :: rest) s =
      match precheckBatch host writer s first rest with
      | .error e => (.error e, s)
      | .ok _ => appendAll host writer (fun _ => { budgetPrechecked := true })
          (first :: rest).length (first :: rest) s := by
  show (Action.ofExcept (precheckBatch host writer s first rest) >>= fun _ => _) s = _
  cases precheckBatch host writer s first rest with
  | error e => rfl
  | ok u => rfl

/-- In a batch that passed, a draft goes through at its turn exactly when it is accepted then. -/
theorem batch_turn_iff {first : AgentOutputEventDraft}
    {rest : List AgentOutputEventDraft} (hcheck : precheckBatch host writer s first rest = .ok ())
    (before : List AgentOutputEventDraft) (draft : AgentOutputEventDraft)
    (after : List AgentOutputEventDraft) (hsplit : first :: rest = before ++ draft :: after)
    (now : RunState) (hnow : Extended s now (newDrafts s before)) (reading : Nat) :
    (∃ event next, appendEvent host writer reading draft { budgetPrechecked := true } now =
        (.ok event, next)) ↔
      TurnAccepted host writer s (fun _ => False) reading before draft := by
  obtain ⟨-, -, pending, _, hpending, _, _⟩ := precheckBatch_spec host hcheck
  exact appendEvent_turn_iff host (.refl s) rfl rfl
    ((pendingDrafts_spec host hpending).2 draft (by simp [hsplit])) hnow

/-- The condition under which a batch that passes its checks is all or nothing: every draft is
accepted at its turn; or one is refused before anything was appended, which only a claim that
lapsed since the checks can do. -/
def BatchFits (writer : Writer) (s : RunState) (drafts : List AgentOutputEventDraft) : Prop :=
  ∀ first rest, drafts = first :: rest → precheckBatch host writer s first rest = .ok () →
    (∀ before draft after, drafts = before ++ draft :: after →
      TurnAccepted host writer s (fun _ => False) (drafts.length + before.length) before draft) ∨
    ∃ before draft after, drafts = before ++ draft :: after ∧ newDrafts s before = [] ∧
      ¬ TurnAccepted host writer s (fun _ => False) (drafts.length + before.length) before draft

/-- All new drafts of a batch are appended, or it is refused and nothing has changed. -/
def AllOrNothing (writer : Writer) (s : RunState) (drafts : List AgentOutputEventDraft) : Prop :=
  (∃ events s', appendEvents host writer drafts s = (.ok events, s') ∧
      BatchAppended s s' drafts events) ∨
    ∃ error, appendEvents host writer drafts s = (.error error, s)

/-- **A batch is all or nothing exactly when it fits**, in every reachable state. -/
theorem batch_atomic (run : List (Writer × Operation)) (writer : Writer)
    (drafts : List AgentOutputEventDraft) :
    AllOrNothing host writer (exec (step host) {} run) drafts ↔
      BatchFits host writer (exec (step host) {} run) drafts := by
  set s := exec (step host) {} run with hs
  cases drafts with
  | nil =>
    refine iff_of_true (Or.inl ⟨[], s, rfl, fun runId => ⟨[], by simp, rfl, rfl⟩, .nil⟩) ?_
    intro first rest hnil
    cases hnil
  | cons first rest =>
    cases hcheck : precheckBatch host writer s first rest with
    | error e =>
      refine iff_of_true (Or.inr ⟨e, ?_⟩) ?_
      · rw [appendEvents_cons, hcheck]
      · rintro _ _ hcons hok
        cases hcons
        rw [hcheck] at hok
        cases hok
    | ok u =>
      have hcall : appendEvents host writer (first :: rest) s =
          appendAll host writer (fun _ => { budgetPrechecked := true }) (first :: rest).length
            (first :: rest) s := by
        rw [appendEvents_cons, hcheck]
      have hfits : BatchFits host writer s (first :: rest) ↔ _ :=
        ⟨fun h => h first rest rfl hcheck, fun h _ _ hcons _ => by cases hcons; exact h⟩
      rw [hfits]
      rcases @appendAll_turns host writer _ _ _ (fun _ => { budgetPrechecked := true }) _
          (fun before draft after hsplit now hnow => batch_turn_iff host hcheck before draft after
            hsplit now hnow ((first :: rest).length + before.length)) with
        ⟨⟨events, s', happend, hextended, hanswers⟩, hall⟩ |
        ⟨e, s', stop, happend, hextended, hsame, ⟨before, draft, after, hsplit, hnot⟩, hstop⟩
      · refine iff_of_true (Or.inl ⟨events, s', hcall.trans happend, ?_⟩) (Or.inl hall)
        rw [newDrafts_of_nodup (precheckBatch_spec host hcheck).2.1] at hextended
        have hreached : exec (step host) {} (run ++ [(writer, .appendBatch (first :: rest))]) =
            s' := by
          rw [exec_append, exec_cons, exec_nil]
          unfold step
          simp only [Operation.run, final_map]
          unfold final
          exact congrArg Prod.snd (hcall.trans happend)
        have hbefore : JournalInvariant s := (journal_kept host run).1
        have hafter : JournalInvariant s' := hreached ▸ (journal_kept host _).1
        exact ⟨hextended.numbered hbefore hafter, hanswers⟩
      · -- the call has raised, and has changed nothing when nothing was new before the refusal
        have hatomic : AllOrNothing host writer s (first :: rest) ↔ newDrafts s stop = [] := by
          unfold AllOrNothing
          rw [hcall, happend]
          constructor
          · rintro (⟨_, _, hok, -⟩ | ⟨_, herror⟩)
            · cases hok
            · cases herror
              exact hextended.eq_nil fun _ => rfl
          · exact fun hnil => Or.inr ⟨e, by rw [hsame hnil]⟩
        rw [hatomic, ← hstop, or_iff_right fun hall => hnot (hall before draft after hsplit)]

end

/-! ## A batch that is torn -/

/-- A host on which the payloads below have the sizes they have. -/
def sampleHost : Host where
  py := { repr := fun _ => "", parseInt := fun _ => .error (.valueError "invalid literal for int()") }
  loads _ := .error (.valueError "Expecting value")
  payloadBytes payload := if (Json.field? payload "entries").isSome then 306 else 164
  isoformat _ := "1970-01-01T00:00:00+00:00"
  elapsedMs later earlier := (later - earlier) / 1000
  sha256 _ := "e3b0c44298fc1c149afbf4c8996fb92427ae41e4649b934ca495991b7852b855"

/-- A planning operation begins. -/
def planStarted : AgentOutputEventDraft where
  runId := "run"
  turnId := none
  outputStreamId := none
  invocationId := none
  sourceEventKey := "operation:plan:started"
  source := .runtime
  kind := .operationStarted
  channel := .operation
  visibility := .publicEvent
  payload := [("operationId", .str "plan"), ("kind", .str "planning")]
  occurredAt := 1

/-- It ends. -/
def planFinished : AgentOutputEventDraft :=
  { planStarted with
    sourceEventKey := "operation:plan:finished"
    kind := .operationFinished
    payload := [("operationId", .str "plan"), ("status", .str "succeeded")] }

/-- The stream of its planner. -/
def planSpec : OutputStreamSpec where
  outputStreamId := "stream"
  runId := "run"
  turnId := none
  invocationId := "call"
  intent := .structuredPrivate
  commitMode := .privateMode
  outputProtocol := some planningStreamSchema
  planningScope := some ⟨"run", "plan", 0⟩

/-- What the planner has written so far. -/
def planBytes : AgentOutputEventDraft where
  runId := "run"
  turnId := none
  outputStreamId := some "stream"
  invocationId := some "call"
  sourceEventKey := "provider:call:batch:1"
  source := .provider
  kind := .providerDeltaBatch
  channel := .diagnostic
  visibility := .privateEvent
  payload := [("schemaVersion", .str "purra.provider-delta-batch/v1"),
    ("entries", .arr [.obj [("sourceChunkIndex", .int 1), ("kind", .str "provider.content_delta"),
      ("payload", .obj [("delta", .str "\x7b\"v\":1,\"type\":\"progress\",\"text\":\"Hi")])]]),
    ("sourceChunkStart", .int 1), ("sourceChunkEnd", .int 1),
    ("payloadDigest",
      .str "3498baee95f771559f8ff4165f47481a5dc041da1f4e44af29b17ec104784885")]
  occurredAt := 2

/-- The text it shows of it. -/
def planDelta : AgentOutputEventDraft where
  runId := "run"
  turnId := none
  outputStreamId := some "stream"
  invocationId := some "call"
  sourceEventKey := "planning-delta:call:1:1"
  source := .provider
  kind := .planningDelta
  channel := .commentary
  visibility := .publicEvent
  payload := [("schemaVersion", .str planningStreamSchema), ("operationId", .str "plan"),
    ("revision", .int 0), ("attempt", .int 0), ("recordIndex", .int 1), ("textDelta", .str "Hi"),
    ("sourceChunkIndex", .int 1), ("sourcePartIndex", .int 1)]
  occurredAt := 3

/-- A Run whose planner is at work. -/
def planningRun : List (Writer × Operation) :=
  [({}, .beginRunLifecycle 0 { requestedRunId := some "run" } { type := CoreEventType.runStarted }),
    ({}, .appendEvent planStarted), ({}, .openStream planSpec), ({}, .appendEvent planBytes)]

/-- The end first: it is appended, and then the text is refused. -/
theorem batch_torn : ¬ AllOrNothing sampleHost {} (exec (step sampleHost) {} planningRun)
    [planFinished, planDelta] := by
  have hfails : ((appendEvents sampleHost {} [planFinished, planDelta]
      (exec (step sampleHost) {} planningRun)).1.isOk) = false := by decide +kernel
  have hwritten : ((appendEvents sampleHost {} [planFinished, planDelta]
      (exec (step sampleHost) {} planningRun)).2.eventsOf "run").length = 4 := by decide +kernel
  have hbefore : ((exec (step sampleHost) {} planningRun).eventsOf "run").length = 3 := by
    decide +kernel
  rintro (⟨events, s', h, -⟩ | ⟨error, h⟩)
  · rw [h] at hfails
    cases hfails
  · rw [h, hbefore] at hwritten
    cases hwritten

end Purra.RunMemory
