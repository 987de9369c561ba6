import Purra.RunStore.Settling

/-!
# The journals

What holds of the journals of a repository: every Run and every Root numbers its events, a Root's
journal interleaves those of its Runs, and no source key is stored twice.

* `Journaled` — the guarantees; `Journaled.push` is the one write that extends a journal.
* `KeyClear` — what is asked of a draft's source key: it is trimmed, or what it is when it is
  trimmed is not stored.
* `trace_journaled` — moves that append only such drafts keep the guarantees.
-/

namespace Purra.RunStore

/-- The journals of a repository. -/
structure Journaled (s : State) : Prop extends Tree s where
  numbered : ∀ id run, s.runs.get? id = some run →
    run.events.map (·.sequence) = List.range' 1 run.events.length
  rootNumbered : ∀ root, (s.rootJournal root).map (·.rootSequence) =
    List.range' 1 (s.rootJournal root).length
  interleaved : ∀ id run, s.runs.get? id = some run →
    (s.rootJournal run.rootRunId).filter (fun event => event.runId = id) = run.events
  owned : ∀ root, ∀ event ∈ s.rootJournal root,
    ∃ run, s.runs.get? event.runId = some run ∧ run.rootRunId = root
  trimmed : ∀ root, ∀ event ∈ s.rootJournal root, trim event.sourceKey = event.sourceKey
  distinct : ∀ root, ((s.rootJournal root).map (·.sourceKey)).Nodup
  sources : ∀ root key, (s.rootSources root).get? key =
    (s.rootJournal root).find? (fun event => event.sourceKey = key)

/-- A source key that is trimmed, or that is not stored when it is trimmed. -/
def KeyClear (s : State) (runId : String) (raw : Draft) : Prop :=
  trim raw.sourceKey = raw.sourceKey ∨
    ∀ event ∈ s.rootJournal (s.run runId).rootRunId, event.sourceKey ≠ trim raw.sourceKey

instance (s : State) (runId : String) (raw : Draft) : Decidable (KeyClear s runId raw) :=
  inferInstanceAs (Decidable (_ ∨ ∀ event ∈ _, _))

/-! ## Writes beside the journals -/

/-- A write beside the journals. -/
structure Quiet (s s' : State) : Prop where
  tree : Tree s → Tree s'
  forth : ∀ id run, s.runs.get? id = some run →
    ∃ run', s'.runs.get? id = some run' ∧ run'.rootRunId = run.rootRunId
  back : ∀ id run', s'.runs.get? id = some run' →
    ∃ run, s.runs.get? id = some run ∧ run'.rootRunId = run.rootRunId ∧ run'.events = run.events
  journal : ∀ root, s'.rootJournal root = s.rootJournal root
  sources : ∀ root, s'.rootSources root = s.rootSources root

section

variable {host : Host} {env : Env} {s s' : State} {runId rootId : String} {run : StoredRun}

theorem Quiet.journaled (h : Quiet s s') (hs : Journaled s) : Journaled s' where
  toTree := h.tree hs.toTree
  numbered := by
    intro id run' hrun'
    obtain ⟨run, hrun, -, hevents⟩ := h.back id run' hrun'
    rw [hevents]
    exact hs.numbered id run hrun
  rootNumbered := by
    intro root
    rw [h.journal]
    exact hs.rootNumbered root
  interleaved := by
    intro id run' hrun'
    obtain ⟨run, hrun, hroot, hevents⟩ := h.back id run' hrun'
    rw [hroot, h.journal, hevents]
    exact hs.interleaved id run hrun
  owned := by
    intro root event hevent
    rw [h.journal] at hevent
    obtain ⟨run, hrun, hroot⟩ := hs.owned root event hevent
    obtain ⟨run', hrun', hroot'⟩ := h.forth _ run hrun
    exact ⟨run', hrun', hroot'.trans hroot⟩
  trimmed := by
    intro root event hevent
    rw [h.journal] at hevent
    exact hs.trimmed root event hevent
  distinct := by
    intro root
    rw [h.journal]
    exact hs.distinct root
  sources := by
    intro root key
    rw [h.journal, h.sources]
    exact hs.sources root key

theorem Rewrites.quiet {f : String → StoredRun → StoredRun} (h : Rewrites s s' f)
    (hevents : ∀ id run, (f id run).events = run.events)
    (hroots : s'.rootEvents = s.rootEvents)
    (hsources : s'.rootEventsBySourceKey = s.rootEventsBySourceKey) : Quiet s s' where
  tree := h.tree
  forth := by
    intro id run hrun
    exact ⟨f id run, by rw [h.runs, hrun, Option.map_some], (h.fixed id run).rootRunId⟩
  back := by
    intro id run' hrun'
    obtain ⟨run, hrun, rfl⟩ := h.get? hrun'
    exact ⟨run, hrun, (h.fixed id run).rootRunId, hevents id run⟩
  journal := by
    intro root
    rw [State.rootJournal, hroots]
    rfl
  sources := by
    intro root
    rw [State.rootSources, hsources]
    rfl

theorem quiet_setRun {f : StoredRun → StoredRun} (hf : ∀ run, Notes run (f run)) :
    Quiet s (s.setRun runId f) := by
  have hrewrites : Rewrites s (s.setRun runId f) _ :=
    rewrites_setRun runId (fun run => (hf run).toFixed) fun run hnodup => by
      rw [(hf run).openInvocations]
      exact hnodup
  refine hrewrites.quiet (fun id run => ?_) (setRun_tables s runId f).1 (setRun_tables s runId f).2.1
  split
  · exact (hf run).events
  · rfl

theorem quiet_updateUsages (f : Usage → Usage) :
    Quiet s ((updateUsages host env runId rootId f).final s) := by
  refine (rewrites_updateUsages runId rootId f).quiet (fun id run => ?_)
    (updateUsages_tables runId rootId f s).1 (updateUsages_tables runId rootId f s).2.1
  split <;> rfl

theorem Quiet.refl (s : State) : Quiet s s :=
  ⟨id, fun _ run hrun => ⟨run, hrun, rfl⟩, fun _ run hrun => ⟨run, hrun, rfl, rfl⟩, fun _ => rfl,
    fun _ => rfl⟩

theorem Quiet.trans {s'' : State} (h : Quiet s s') (h' : Quiet s' s'') : Quiet s s'' where
  tree := fun hs => h'.tree (h.tree hs)
  forth := by
    intro id run hrun
    obtain ⟨run', hrun', hroot⟩ := h.forth id run hrun
    obtain ⟨run'', hrun'', hroot'⟩ := h'.forth id run' hrun'
    exact ⟨run'', hrun'', hroot'.trans hroot⟩
  back := by
    intro id run'' hrun''
    obtain ⟨run', hrun', hroot', hevents'⟩ := h'.back id run'' hrun''
    obtain ⟨run, hrun, hroot, hevents⟩ := h.back id run' hrun'
    exact ⟨run, hrun, hroot'.trans hroot, hevents'.trans hevents⟩
  journal := fun root => (h'.journal root).trans (h.journal root)
  sources := fun root => (h'.sources root).trans (h.sources root)

theorem quiet_emitted {meter : Bool} {draft : CopiedDraft} :
    Quiet s (emitted host env runId rootId meter draft s) := by
  unfold emitted
  split
  · exact quiet_updateUsages _
  · exact .refl s

theorem quiet_openReceipt (receipt : Receipt) : Quiet s (openReceipt runId receipt s) := by
  refine (rewrites_openReceipt runId receipt).quiet (fun id run => ?_) (setRun_tables s runId _).1
    (setRun_tables s runId _).2.1
  split <;> rfl

theorem quiet_closeInvocation (invocationId : String) :
    Quiet s (closeInvocation runId invocationId s) := by
  refine (rewrites_closeInvocation runId invocationId).quiet (fun id run => ?_)
    (setRun_tables s runId _).1 (setRun_tables s runId _).2.1
  split <;> rfl

theorem quiet_keepSettlement (settled : Settled) :
    Quiet s (keepSettlement runId settled s) := by
  refine (rewrites_keepSettlement runId settled).quiet (fun id run => ?_)
    (setRun_tables s runId _).1 (setRun_tables s runId _).2.1
  split <;> rfl

theorem quiet_openJournal (rootRunId : String) : Quiet s (openJournal rootRunId s) where
  tree := fun hs => ⟨hs.plain, hs.opens, hs.named, hs.rooted⟩
  forth := fun _ run hrun => ⟨run, hrun, rfl⟩
  back := fun _ run hrun => ⟨run, hrun, rfl, rfl⟩
  journal := by
    intro root
    show ((s.rootEvents.set rootRunId (s.rootJournal rootRunId)).get? root).getD [] = _
    rw [Dict.get?_set]
    split
    · next h => rw [h]; rfl
    · rfl
  sources := by
    intro root
    show ((s.rootEventsBySourceKey.set rootRunId (s.rootSources rootRunId)).get? root).getD
      Dict.empty = _
    rw [Dict.get?_set]
    split
    · next h => rw [h]; rfl
    · rfl

/-! ## Events -/

theorem rootJournal_pushEvent {event : Event} (hrun : s.runs.get? runId = some run)
    (root : String) : (pushEvent runId event s).rootJournal root =
      if root = run.rootRunId then s.rootJournal root ++ [event] else s.rootJournal root := by
  unfold State.rootJournal
  rw [(pushEvent_tables runId event s).1, run_of_get? hrun, Dict.get?_set]
  split
  · next h => rw [h]; rfl
  · rfl

theorem rootSources_pushEvent {event : Event} (hrun : s.runs.get? runId = some run)
    (root : String) : (pushEvent runId event s).rootSources root =
      if root = run.rootRunId then (s.rootSources root).set event.sourceKey event
      else s.rootSources root := by
  unfold State.rootSources
  rw [(pushEvent_tables runId event s).2.1, run_of_get? hrun, Dict.get?_set]
  split
  · next h => rw [h]; rfl
  · rfl

/-- Numbers that count one more. -/
theorem range'_snoc {α : Type} {f : α → Nat} {l : List α} {a : α}
    (hl : l.map f = List.range' 1 l.length) (ha : f a = l.length + 1) :
    (l ++ [a]).map f = List.range' 1 (l ++ [a]).length := by
  rw [List.map_append, hl, List.length_append, List.length_singleton, List.range'_concat]
  simp [ha, Nat.add_comm]

/-- **An event is pushed** under a key that was not stored. -/
theorem Journaled.push {event : Event} (hs : Journaled s) (hrun : s.runs.get? runId = some run)
    (hid : event.runId = runId) (hsequence : event.sequence = run.events.length + 1)
    (hrootSequence : event.rootSequence = (s.rootJournal run.rootRunId).length + 1)
    (htrim : trim event.sourceKey = event.sourceKey)
    (hkey : ∀ e ∈ s.rootJournal run.rootRunId, e.sourceKey ≠ event.sourceKey) :
    Journaled (pushEvent runId event s) where
  toTree := (rewrites_pushEvent runId event).tree hs.toTree
  numbered := by
    intro id run' hrun'
    obtain ⟨run'', hrun'', rfl⟩ := (rewrites_pushEvent runId event).get? hrun'
    by_cases h : id = runId
    · subst h
      rw [hrun] at hrun''
      cases hrun''
      rw [if_pos rfl]
      exact range'_snoc (hs.numbered id run hrun) hsequence
    · rw [if_neg h]
      exact hs.numbered id run'' hrun''
  rootNumbered := by
    intro root
    rw [rootJournal_pushEvent hrun]
    split
    · next h =>
      subst h
      exact range'_snoc (hs.rootNumbered _) hrootSequence
    · exact hs.rootNumbered root
  interleaved := by
    intro id run' hrun'
    obtain ⟨run'', hrun'', rfl⟩ := (rewrites_pushEvent runId event).get? hrun'
    rw [rootJournal_pushEvent hrun]
    by_cases h : id = runId
    · subst h
      rw [hrun] at hrun''
      cases hrun''
      have hroot : (run.push event).rootRunId = run.rootRunId := rfl
      rw [if_pos rfl, hroot, if_pos rfl, List.filter_append, hs.interleaved id run hrun]
      simp [hid, StoredRun.push]
    · rw [if_neg h]
      split
      · rw [List.filter_append, hs.interleaved id run'' hrun'']
        simp [hid, Ne.symm h]
      · exact hs.interleaved id run'' hrun''
  owned := by
    intro root e he
    have hforth : ∀ id old, s.runs.get? id = some old →
        ∃ new, (pushEvent runId event s).runs.get? id = some new ∧
          new.rootRunId = old.rootRunId := by
      intro id old hold
      obtain ⟨new, hnew, hfixed⟩ := (rewrites_pushEvent runId event).grows id old hold
      exact ⟨new, hnew, hfixed.rootRunId⟩
    have hold : ∀ e ∈ s.rootJournal root, ∃ new,
        (pushEvent runId event s).runs.get? e.runId = some new ∧ new.rootRunId = root := by
      intro e he
      obtain ⟨old, hold, hroot⟩ := hs.owned root e he
      obtain ⟨new, hnew, hsame⟩ := hforth _ old hold
      exact ⟨new, hnew, hsame.trans hroot⟩
    rw [rootJournal_pushEvent hrun] at he
    split at he
    · next h =>
      rcases List.mem_append.1 he with he | he
      · exact hold e he
      · obtain ⟨new, hnew, hsame⟩ := hforth runId run hrun
        rw [List.mem_singleton.1 he, hid]
        exact ⟨new, hnew, hsame.trans h.symm⟩
    · exact hold e he
  trimmed := by
    intro root e he
    rw [rootJournal_pushEvent hrun] at he
    split at he
    · rcases List.mem_append.1 he with he | he
      · exact hs.trimmed root e he
      · rw [List.mem_singleton.1 he]
        exact htrim
    · exact hs.trimmed root e he
  distinct := by
    intro root
    rw [rootJournal_pushEvent hrun]
    split
    · next h =>
      subst h
      rw [List.map_append, List.nodup_append]
      refine ⟨hs.distinct _, List.nodup_singleton _, fun key hmem key' hmem' heq => ?_⟩
      obtain ⟨e, he, rfl⟩ := List.mem_map.1 hmem
      rw [List.map_singleton, List.mem_singleton] at hmem'
      exact hkey e he (heq.trans hmem')
    · exact hs.distinct root
  sources := by
    intro root key
    rw [rootJournal_pushEvent hrun, rootSources_pushEvent hrun]
    split
    · next h =>
      subst h
      rw [Dict.get?_set, List.find?_append, hs.sources]
      by_cases hsame : key = event.sourceKey
      · have hnone : (s.rootJournal run.rootRunId).find? (fun e => e.sourceKey = key) = none := by
          rw [List.find?_eq_none]
          intro e he
          rw [hsame]
          simpa using hkey e he
        rw [if_pos hsame, hnone]
        simp [hsame]
      · rw [if_neg hsame]
        simp [Ne.symm hsame]
    · exact hs.sources root key

/-- A Run is begun. -/
theorem Journaled.begun (hs : Journaled s) (hfresh : s.runs.get? run.runId = none)
    (hblank : Blank run) (htree : Tree (addRun run s)) : Journaled (addRun run s) := by
  have hadd : addRun run s = _ := addRun_plain hs.plain
  have hjournal : ∀ root, (addRun run s).rootJournal root = s.rootJournal root := by
    intro root
    rw [hadd]
    rfl
  have hsources : ∀ root, (addRun run s).rootSources root = s.rootSources root := by
    intro root
    rw [hadd]
    rfl
  have hruns : ∀ id run', (addRun run s).runs.get? id = some run' →
      id = run.runId ∧ run' = run ∨ s.runs.get? id = some run' := by
    intro id run' hrun'
    rw [hadd] at hrun'
    rw [Dict.get?_set] at hrun'
    split at hrun'
    · next h => exact .inl ⟨h, (Option.some.inj hrun').symm⟩
    · exact .inr hrun'
  refine ⟨htree, fun id run' hrun' => ?_, fun root => ?_, fun id run' hrun' => ?_,
    fun root event hevent => ?_, fun root event hevent => ?_, fun root => ?_, fun root key => ?_⟩
  · rcases hruns id run' hrun' with ⟨-, rfl⟩ | hold
    · rw [hblank.events]
      rfl
    · exact hs.numbered id run' hold
  · rw [hjournal]
    exact hs.rootNumbered root
  · rw [hjournal]
    rcases hruns id run' hrun' with ⟨rfl, rfl⟩ | hold
    · rw [hblank.events, List.filter_eq_nil_iff]
      intro event hevent
      obtain ⟨old, hold, -⟩ := hs.owned _ event hevent
      intro heq
      rw [of_decide_eq_true heq, hfresh] at hold
      cases hold
    · exact hs.interleaved id run' hold
  · rw [hjournal] at hevent
    obtain ⟨old, hold, hroot⟩ := hs.owned root event hevent
    refine ⟨old, ?_, hroot⟩
    have hne : event.runId ≠ run.runId := by
      intro heq
      rw [heq, hfresh] at hold
      cases hold
    rw [hadd]
    exact (Dict.get?_set_of_ne hne).trans hold
  · rw [hjournal] at hevent
    exact hs.trimmed root event hevent
  · rw [hjournal]
    exact hs.distinct root
  · rw [hjournal, hsources]
    exact hs.sources root key

/-! ## Moves -/

theorem Journaled.key_fresh (hs : Journaled s) (hrun : s.runs.get? runId = some run) {key : String}
    (hfresh : (s.sources runId true).get? key = none) :
    ∀ event ∈ s.rootJournal run.rootRunId, event.sourceKey ≠ key := by
  have hsources : (s.rootSources run.rootRunId).get? key = none := by
    rw [← run_of_get? hrun]
    exact hfresh
  rw [hs.sources, List.find?_eq_none] at hsources
  intro event hevent
  simpa using hsources event hevent

theorem Move.journaled {log : List Charge} (h : Move host env KeyClear True s log s')
    (hs : Journaled s) : Journaled s' := by
  have htree := (h.tree hs.toTree).1
  cases h with
  | journal rootRunId => exact (quiet_openJournal rootRunId).journaled hs
  | begun hfresh hscope hblank => exact hs.begun hfresh hblank htree
  | @appended _ runId rootId raw meter event run hrun hmetered hunmetered hraw happended =>
    obtain ⟨draft, hdraft, -, rfl, rfl⟩ := happended.made
    have hquiet : Quiet s (emitted host env runId rootId meter draft s) := quiet_emitted
    obtain ⟨run', hrun', hroot'⟩ := hquiet.forth runId run hrun
    obtain ⟨old, hold, -, hevents⟩ := hquiet.back runId run' hrun'
    rw [hrun] at hold
    cases hold
    have hkey : (eventOf host env s runId draft).sourceKey = trim raw.sourceKey :=
      trim_of_copyDraft hdraft
    refine (hquiet.journaled hs).push hrun' rfl ?_ ?_ ?_ ?_
    · show eventCount s runId false + 1 = _
      rw [eventCount_plain hs.plain, hevents]
      show (s.run runId).events.length + 1 = _
      rw [run_of_get? hrun]
    · show eventCount s runId true + 1 = _
      rw [eventCount_plain hs.plain, hquiet.journal, hroot', ← run_of_get? hrun]
      rfl
    · rw [hkey, trim_trim]
    · rw [hkey, hquiet.journal, hroot']
      rcases hraw with htrim | hclear
      · rw [htrim]
        exact hs.key_fresh hrun happended.fresh
      · rw [← run_of_get? hrun]
        exact hclear
  | opened =>
    exact ((quiet_openReceipt _).trans (quiet_updateUsages _)).journaled hs
  | charged usage hrun hopen =>
    exact ((quiet_closeInvocation _).trans (quiet_updateUsages _)).journaled hs
  | closed invocationId => exact (quiet_closeInvocation invocationId).journaled hs
  | noted runId hnotes => exact (quiet_setRun hnotes).journaled hs
  | kept runId settled hkept => exact (quiet_keepSettlement settled).journaled hs

/-- **Moves that append clear drafts** keep the journals. -/
theorem trace_journaled {log : List Charge} (h : Trace (Move host env KeyClear True) s log s')
    (hs : Journaled s) : Journaled s' :=
  h.preserves hs fun _ _ _ hs hmove => hmove.journaled hs

end

end Purra.RunStore
