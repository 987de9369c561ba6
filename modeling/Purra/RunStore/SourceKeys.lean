import Purra.Lib.Sequence
import Purra.RunStore.Journals

/-!
# Source keys

What a draft does whose source key is stored already.

* `trace_extends` — a Root's journal only grows at its end.
* `appendEvent_cases`, `appendDrafts_stored` — a draft that is stored is found.
* `Clear` — what is asked of a call: the draft of an `appendEvent` that would be appended has a
  clear key.
* `reached_journaled` — the journals are sound, and stored drafts are found, in every run whose
  calls are clear; a call that is not clear stores a key twice.
* `padded_key_is_stored_twice` — `appendEvent` looks for the key as it was given, and stores it
  trimmed.
-/

namespace Purra.RunStore

section

variable {host : Host} {env : Env} {P : State → String → Draft → Prop} {K : Prop} {s s' : State}
  {runId rootId : String} {run : StoredRun} {log : List Charge}

/-! ## Journals only grow -/

theorem Quiet.extends (h : Quiet s s') (root : String) :
    s.rootJournal root <+: s'.rootJournal root := by
  have hsame := h.journal root
  exact hsame ▸ List.prefix_rfl

theorem Move.extends (h : Move host env P K s log s') (hs : Tree s) (root : String) :
    s.rootJournal root <+: s'.rootJournal root := by
  cases h with
  | journal rootRunId => exact (quiet_openJournal rootRunId).extends root
  | begun hfresh hscope hblank =>
    rw [addRun_plain hs.plain]
    exact List.prefix_rfl
  | @appended _ runId rootId raw meter event run hrun hmetered hunmetered hraw happended =>
    obtain ⟨draft, -, -, -, rfl⟩ := happended.made
    have hquiet : Quiet s (emitted host env runId rootId meter draft s) := quiet_emitted
    obtain ⟨run', hrun', -⟩ := hquiet.forth runId run hrun
    rw [rootJournal_pushEvent hrun', hquiet.journal]
    split
    · exact List.prefix_append _ _
    · exact List.prefix_rfl
  | opened =>
    exact ((quiet_openReceipt _).trans (quiet_updateUsages _)).extends root
  | charged usage hrun hopen =>
    exact ((quiet_closeInvocation _).trans (quiet_updateUsages _)).extends root
  | closed invocationId => exact (quiet_closeInvocation invocationId).extends root
  | noted runId hnotes => exact (quiet_setRun hnotes).extends root
  | kept runId settled hkept => exact (quiet_keepSettlement settled).extends root

/-- **A journal is only extended.** -/
theorem trace_extends (h : Trace (Move host env P K) s log s') (hs : Tree s) (root : String) :
    s.rootJournal root <+: s'.rootJournal root := by
  induction h with
  | refl => exact List.prefix_rfl
  | tail hpast hmove ih => exact ih.trans (hmove.extends (trace_tree hpast hs).1 root)

/-! ## Stored drafts -/

/-- The event is stored under the key of the draft, as `append` stores it. -/
structure Stored (s : State) (runId : String) (raw : Draft) (event : Event) : Prop where
  mem : event ∈ s.rootJournal (s.run runId).rootRunId
  key : event.sourceKey = trim raw.sourceKey

theorem Journaled.unique (hs : Journaled s) {root : String} {event event' : Event}
    (h : event ∈ s.rootJournal root) (h' : event' ∈ s.rootJournal root)
    (hkey : event.sourceKey = event'.sourceKey) : event = event' :=
  List.inj_on_of_nodup_map (hs.distinct root) h h' hkey

/-- A key that is found is trimmed. -/
theorem Journaled.found (hs : Journaled s) {key : String} {event : Event}
    (h : (s.sources runId true).get? key = some event) :
    event ∈ s.rootJournal (s.run runId).rootRunId ∧ event.sourceKey = key ∧ trim key = key := by
  have hfind := (hs.sources (s.run runId).rootRunId key).symm.trans h
  have hmem := List.mem_of_find?_eq_some hfind
  have hkey : event.sourceKey = key := by simpa using List.find?_some hfind
  refine ⟨hmem, hkey, ?_⟩
  rw [← hkey]
  exact hs.trimmed _ event hmem

/-- A trimmed key that is stored is found. -/
theorem Journaled.get?_of_stored (hs : Journaled s) {raw : Draft} {stored : Event}
    (h : Stored s runId raw stored) :
    (s.sources runId true).get? (trim raw.sourceKey) = some stored := by
  cases hget : (s.sources runId true).get? (trim raw.sourceKey) with
  | some event =>
    obtain ⟨hmem, hkey, -⟩ := hs.found hget
    rw [hs.unique hmem h.mem (hkey.trans h.key.symm)]
  | none =>
    have hfind := (hs.sources (s.run runId).rootRunId (trim raw.sourceKey)).symm.trans hget
    rw [List.find?_eq_none] at hfind
    exact absurd h.key (by simpa using hfind stored h.mem)

/-- A draft with a clear key that is stored is found. -/
theorem Journaled.clear_stored (hs : Journaled s) {raw : Draft} {stored : Event}
    (hclear : KeyClear s runId raw) (h : Stored s runId raw stored) :
    (s.sources runId true).get? raw.sourceKey = some stored := by
  rcases hclear with htrim | hclear
  · rw [← htrim]
    exact hs.get?_of_stored h
  · exact absurd h.key (hclear stored h.mem)

/-- What comes of a draft that is stored: its event, or an error. -/
def Replayed {α : Type} (stored : α) (s : State) (r : Except StoreError α × State) : Prop :=
  r = (.ok stored, s) ∨ ∃ e, r = (.error e, s)

theorem Journaled.append_stored (hs : Journaled s) {raw : Draft} {stored : Event}
    (hclear : KeyClear s runId raw) (h : Stored s runId raw stored) (meter : Bool)
    (rootId : String) : Replayed stored s (append host env runId raw meter rootId s) := by
  rw [append_of_found hs.plain meter rootId (hs.clear_stored hclear h)]
  cases hsame : requireSameEvent host stored raw runId with
  | ok u => exact .inl rfl
  | error e => exact .inr ⟨e, rfl⟩

end

/-! ## `appendEvent` -/

section

variable (host : Host)

/-- Nothing but its key keeps the draft of an `appendEvent` out. -/
structure Acceptable (env : Env) (s : State) (runId : String) (draft : Draft)
    (claim : LeaseClaim) : Prop where
  active : ∃ run, active host env runId claim s = (.ok run, s)
  admitted : ∃ copied, copyDraft draft = .ok copied ∧
    Admitted host runId (s.run runId).rootRunId true copied s

/-- What is asked of a call. -/
def Clear (s : State) : Env × Call → Prop
  | (env, .appendEvent runId draft claim) =>
    KeyClear s runId draft ∨ ¬ Acceptable host env s runId draft claim
  | _ => True

end

section

variable {host : Host} {env : Env} {s s' : State} {runId rootId : String} {run : StoredRun}
  {draft : Draft} {claim : LeaseClaim}

theorem require_root (hs : Tree s) (h : require runId s = (.ok run, s)) :
    ∃ root, require run.rootRunId s = (.ok root, s) ∧ root.runId = run.rootRunId := by
  have hrun := (require_eq_ok h).2
  obtain ⟨root, hroot, hself⟩ := hs.rooted _ _ hrun
  have hloaded : run.rootRunId ∉ s.unloadedRoots := by
    intro hunloaded
    have h := Action.read_bind_eq_ok.1 h
    rw [hrun] at h
    rcases Action.ite_eq_ok.1 h with ⟨-, h⟩ | ⟨hno, -⟩
    · exact Action.not_raise_eq_ok h
    · exact hno hunloaded
  refine ⟨root, ?_, hs.named _ _ hroot⟩
  unfold require
  rw [Action.read_bind_apply, hroot]
  dsimp only
  rw [hself, if_neg hloaded]
  rfl

theorem require_of_active (h : active host env runId claim s = (.ok run, s)) :
    require runId s = (.ok run, s) := by
  obtain ⟨found, s₁, hfound, hrest⟩ := Action.bind_eq_ok.1 h
  obtain ⟨rfl, hget⟩ := require_eq_ok hfound
  have hrun := (active_eq_ok h).2.1
  rw [hrun] at hget
  cases hget
  exact hfound

/-- `appendEvent` throws, finds its event, or appends a draft that is acceptable. -/
theorem appendEvent_cases (host : Host) (env : Env) (draft : Draft) (claim : LeaseClaim)
    (runId : String) (hs : Tree s) :
    (∃ e, appendEvent host env runId draft claim s = (.error e, s)) ∨
    (∃ existing, (s.sources runId true).get? draft.sourceKey = some existing ∧
      appendEvent host env runId draft claim s = (.ok existing, s)) ∨
    (∃ event s', appendEvent host env runId draft claim s = (.ok event, s') ∧
      Acceptable host env s runId draft claim ∧
      Appended host env runId (s.run runId).rootRunId true draft s event s') := by
  unfold appendEvent
  rw [Action.bind_apply, (still_active runId claim).apply hs.plain]
  cases hactive : (active host env runId claim s).1 with
  | error e => exact .inl ⟨e, rfl⟩
  | ok run =>
    have hactive : active host env runId claim s = (.ok run, s) := by
      rw [(still_active runId claim).apply hs.plain, hactive]
    dsimp only
    rw [Action.bind_apply, sourceEvent_plain hs.plain]
    dsimp only
    cases hfound : (s.sources runId true).get? draft.sourceKey with
    | some existing =>
      dsimp only
      cases hsame : requireSameEvent host existing draft runId with
      | error e => exact .inl ⟨e, rfl⟩
      | ok u => exact .inr (.inl ⟨existing, rfl, rfl⟩)
    | none =>
      obtain ⟨root, hroot, hid⟩ := require_root hs (require_of_active hactive)
      have hrun := (active_eq_ok hactive).2.1
      dsimp only
      rw [Action.bind_apply, hroot]
      dsimp only
      rw [hid, ← run_of_get? hrun]
      rcases append_cases hs.plain runId draft true (s.run runId).rootRunId with ⟨e, h⟩ |
        ⟨existing, hthere, -, -⟩ | ⟨event, s', h, happended⟩
      · exact .inl ⟨e, h⟩
      · rw [hfound] at hthere
        cases hthere
      · obtain ⟨copied, hcopied, hadmitted, -⟩ := happended.made
        exact .inr (.inr ⟨event, s', h, ⟨⟨run, hactive⟩, copied, hcopied, hadmitted⟩, happended⟩)

/-- A draft that is acceptable is appended, if its key is not found. -/
theorem Acceptable.appendEvent (hs : Tree s) (h : Acceptable host env s runId draft claim)
    (hfresh : (s.sources runId true).get? draft.sourceKey = none) :
    ∃ event s', RunStore.appendEvent host env runId draft claim s = (.ok event, s') ∧
      Appended host env runId (s.run runId).rootRunId true draft s event s' := by
  obtain ⟨run, hactive⟩ := h.active
  obtain ⟨copied, hcopied, hadmitted⟩ := h.admitted
  obtain ⟨root, hroot, hid⟩ := require_root hs (require_of_active hactive)
  have hrun := (active_eq_ok hactive).2.1
  refine ⟨_, _, ?_, hfresh, copied, hcopied, hadmitted, rfl, rfl⟩
  unfold RunStore.appendEvent
  rw [Action.bind_apply, hactive]
  dsimp only
  rw [Action.bind_apply, sourceEvent_plain hs.plain, hfresh]
  dsimp only
  rw [Action.bind_apply, hroot]
  dsimp only
  rw [hid, ← run_of_get? hrun]
  exact append_of_admitted hs.plain hfresh hcopied hadmitted

theorem Journaled.appendEvent_stored (hs : Journaled s) {stored : Event}
    (hclear : Clear host s (env, .appendEvent runId draft claim))
    (h : Stored s runId draft stored) :
    Replayed stored s (appendEvent host env runId draft claim s) := by
  have hcases := appendEvent_cases host env draft claim runId hs.toTree
  rcases hcases with ⟨e, herror⟩ | ⟨existing, hfound, hok⟩ |
    ⟨event, s', -, hacceptable, happended⟩
  · exact .inr ⟨e, herror⟩
  · obtain ⟨hmem, hkey, htrim⟩ := hs.found hfound
    have hsame : existing = stored := hs.unique hmem h.mem (hkey.trans (htrim.symm.trans h.key.symm))
    rw [hok, hsame]
    exact .inl rfl
  · rcases hclear with hclear | hrefused
    · have hfresh := happended.fresh
      rw [hs.clear_stored hclear h] at hfresh
      cases hfresh
    · exact absurd hacceptable hrefused

/-! ## `appendBatch` -/

theorem Journaled.foundOr_stored (hs : Journaled s) {copied : CopiedDraft} {stored : Event}
    (htrim : trim copied.sourceKey = copied.sourceKey) (h : Stored s runId copied.draft stored)
    (appended : Act Event) : foundOr runId copied.sourceKey appended s = (.ok stored, s) := by
  have hclear : KeyClear s runId copied.draft := .inl htrim
  have hfound : (s.sources runId true).get? copied.sourceKey = some stored :=
    hs.clear_stored hclear h
  unfold foundOr
  rw [Action.bind_apply, sourceEvent_plain hs.plain, hfound]
  rfl

/-- What is stored stays stored. -/
theorem Stored.trace {P : State → String → Draft → Prop} {K : Prop} {log : List Charge} {raw : Draft}
    {stored : Event} (h : Stored s runId raw stored) (hs : Tree s)
    (hrun : s.runs.get? runId = some run) (htrace : Trace (Move host env P K) s log s') :
    Stored s' runId raw stored := by
  obtain ⟨run', hrun', hfixed⟩ := (trace_tree htrace hs).2 runId run hrun
  refine ⟨?_, h.key⟩
  have hmem := h.mem
  rw [run_of_get? hrun] at hmem
  rw [run_of_get? hrun', hfixed.rootRunId]
  exact (trace_extends htrace hs _).subset hmem

/-- The drafts of a batch that are stored are found, whatever else is appended. -/
theorem appendDrafts_found {drafts : List CopiedDraft} {events : List Event} (hs : Journaled s)
    (hrun : s.runs.get? runId = some run) (hroot : rootId = run.rootRunId)
    (hkeys : ∀ draft ∈ drafts, trim draft.sourceKey = draft.sourceKey)
    (h : appendDrafts host env runId rootId drafts s = (.ok events, s')) :
    List.Forall₂ (fun draft event => ∀ stored, Stored s runId (CopiedDraft.draft draft) stored →
      event = stored) drafts events := by
  induction drafts generalizing s s' run events with
  | nil =>
    obtain ⟨rfl, -⟩ := Action.pure_eq_ok.1 h
    exact .nil
  | cons draft drafts ih =>
    obtain ⟨hkey, hkeys⟩ := List.forall_mem_cons.1 hkeys
    obtain ⟨event, s₁, hevent, hrest⟩ := Action.bind_eq_ok.1 h
    obtain ⟨rest, s₂, hdrafts, hlast⟩ := Action.bind_eq_ok.1 hrest
    obtain ⟨rfl, -⟩ := Action.pure_eq_ok.1 hlast
    have happend : Writes host env KeyClear True s (append host env runId draft.draft true rootId) :=
      writes_append hs.toTree hrun (fun _ => hroot) (fun h => by cases h) (.inl hkey)
    have hwrites : Writes host env KeyClear True s (foundOr runId draft.sourceKey
        (append host env runId draft.draft true rootId)) := writes_foundOr hs.toTree happend
    obtain ⟨log, hlog⟩ := hwrites
    have hfinal : (foundOr runId draft.sourceKey
        (append host env runId draft.draft true rootId)).final s = s₁ := by
      rw [Action.final, hevent]
    rw [hfinal] at hlog
    obtain ⟨run₁, hrun₁, hfixed⟩ := (trace_tree hlog hs.toTree).2 runId run hrun
    refine .cons ?_ ?_
    · intro stored hstored
      rw [hs.foundOr_stored hkey hstored] at hevent
      cases hevent
      rfl
    · have htail := ih (trace_journaled hlog hs) hrun₁ (hroot.trans hfixed.rootRunId.symm) hkeys
        hdrafts
      exact htail.imp fun _ _ hfound stored hstored =>
        hfound stored (hstored.trace hs.toTree hrun hlog)

/-- A batch whose drafts are all stored. -/
theorem appendDrafts_stored {drafts : List CopiedDraft} {events : List Event} (hs : Journaled s)
    (hkeys : ∀ draft ∈ drafts, trim draft.sourceKey = draft.sourceKey)
    (h : List.Forall₂ (fun draft event => Stored s runId (CopiedDraft.draft draft) event)
      drafts events) :
    appendDrafts host env runId rootId drafts s = (.ok events, s) := by
  induction h with
  | nil => rfl
  | @cons draft stored drafts events hstored _ ih =>
    obtain ⟨hkey, hkeys⟩ := List.forall_mem_cons.1 hkeys
    unfold appendDrafts
    rw [Action.bind_apply, hs.foundOr_stored hkey hstored]
    dsimp only
    rw [Action.bind_apply, ih hkeys]
    rfl

/-- `appendBatch` throws before it appends anything, or appends its drafts. -/
theorem appendBatch_cases (host : Host) (env : Env) (drafts : List Draft) (claim : LeaseClaim)
    (runId : String) (hs : Tree s) :
    (∃ e, appendBatch host env runId drafts claim s = (.error e, s)) ∨
    (drafts = [] ∧ appendBatch host env runId drafts claim s = (.ok [], s)) ∨
    ∃ run copied, active host env runId claim s = (.ok run, s) ∧
      drafts.mapM copyDraft = .ok copied ∧
      appendBatch host env runId drafts claim s =
        appendDrafts host env runId run.rootRunId copied s := by
  have hplain := hs.plain
  unfold appendBatch
  rcases (still_active runId claim).bind_cases hplain _ with ⟨e, -, h⟩ | ⟨run, hactive, h⟩
  · exact .inl ⟨e, h⟩
  rw [h]
  by_cases hempty : drafts = []
  · rw [if_pos hempty]
    exact .inr (.inl ⟨hempty, rfl⟩)
  rw [if_neg hempty]
  rcases (still_ofExcept (drafts.mapM copyDraft)).bind_cases hplain _ with ⟨e, -, h⟩ |
    ⟨copied, hcopied, h⟩
  · exact .inl ⟨e, h⟩
  rw [h]
  rcases (still_throwIf (¬ (copied.map (·.sourceKey)).Nodup) _).bind_cases hplain _ with
    ⟨e, -, h⟩ | ⟨_, -, h⟩
  · exact .inl ⟨e, h⟩
  rw [h]
  rcases (still_pendingDrafts copied).bind_cases hplain _ with ⟨e, -, h⟩ | ⟨pending, -, h⟩
  · exact .inl ⟨e, h⟩
  rw [h]
  obtain ⟨root, hroot, hid⟩ := require_root hs (require_of_active hactive)
  rcases (still_require _).bind_cases hplain _ with ⟨e, -, h⟩ | ⟨found, hfound, h⟩
  · exact .inl ⟨e, h⟩
  rw [hroot] at hfound
  cases hfound
  rw [h]
  rcases (still_forM (still_validatePlanningProjection _) _).bind_cases hplain _ with
    ⟨e, -, h⟩ | ⟨_, -, h⟩
  · exact .inl ⟨e, h⟩
  rw [h]
  rcases (still_ofExcept _).bind_cases hplain _ with ⟨e, -, h⟩ | ⟨_, -, h⟩
  · exact .inl ⟨e, h⟩
  rw [h, hid]
  exact .inr (.inr ⟨run, copied, hactive, (ofExcept_eq_ok hcopied).1, rfl⟩)

end

/-! ## Runs -/

section

variable (host : Host)

/-- Drafts that are stored are found, and nothing changes. -/
structure Replays (s : State) : Prop where
  ofAppend : ∀ env runId raw meter rootId stored, KeyClear s runId raw → Stored s runId raw stored →
    Replayed stored s (append host env runId raw meter rootId s)
  ofAppendEvent : ∀ env runId draft claim stored,
    Clear host s (env, .appendEvent runId draft claim) → Stored s runId draft stored →
      Replayed stored s (appendEvent host env runId draft claim s)
  ofAppendBatch : ∀ env runId drafts claim stored,
    List.Forall₂ (fun draft event => Stored s runId draft event) drafts stored →
      Replayed stored s (appendBatch host env runId drafts claim s)
  found : ∀ env runId drafts claim events s',
    appendBatch host env runId drafts claim s = (.ok events, s') →
      List.Forall₂ (fun draft event => ∀ stored, Stored s runId draft stored → event = stored)
        drafts events

end

section

variable {host : Host} {env : Env} {s : State} {runId : String}

theorem stored_of_copyDraft {raw : Draft} {copied : CopiedDraft} {stored : Event}
    (hcopied : copyDraft raw = .ok copied) :
    Stored s runId copied.draft stored ↔ Stored s runId raw stored := by
  have hkey : copied.draft.sourceKey = trim raw.sourceKey := trim_of_copyDraft hcopied
  constructor
  · intro h
    exact ⟨h.mem, by rw [h.key, hkey, trim_trim]⟩
  · intro h
    exact ⟨h.mem, by rw [h.key, hkey, trim_trim]⟩

theorem Journaled.replays (hs : Journaled s) : Replays host s where
  ofAppend := fun _ _ _ meter rootId _ hclear h => hs.append_stored hclear h meter rootId
  ofAppendEvent := fun _ _ _ _ _ hclear h => hs.appendEvent_stored hclear h
  ofAppendBatch := by
    intro env runId drafts claim stored h
    have hcases := appendBatch_cases host env drafts claim runId hs.toTree
    rcases hcases with ⟨e, hbatch⟩ | ⟨rfl, hbatch⟩ | ⟨run, copied, -, hcopied, hbatch⟩
    · exact .inr ⟨e, hbatch⟩
    · cases h
      exact .inl hbatch
    · rw [hbatch]
      have hboth := forall₂_comp (mapM_eq_ok hcopied).flip h
      have hstored : List.Forall₂ (fun draft event => Stored s runId (CopiedDraft.draft draft)
          event) copied stored := hboth.imp fun _ _ ⟨_, hcopy, hstored⟩ =>
        (stored_of_copyDraft hcopy).2 hstored
      exact .inl (appendDrafts_stored hs (trim_of_mapM_copyDraft hcopied) hstored)
  found := by
    intro env runId drafts claim events s' h
    have hcases := appendBatch_cases host env drafts claim runId hs.toTree
    rcases hcases with ⟨e, hbatch⟩ | ⟨rfl, hbatch⟩ | ⟨run, copied, hactive, hcopied, hbatch⟩
    · rw [hbatch] at h
      cases h
    · rw [hbatch] at h
      cases h
      exact .nil
    · rw [hbatch] at h
      have hfound := appendDrafts_found hs (active_eq_ok hactive).2.1 rfl
        (trim_of_mapM_copyDraft hcopied) h
      exact (forall₂_comp (mapM_eq_ok hcopied) hfound).imp
        fun _ _ ⟨_, hcopy, hsame⟩ stored hstored =>
          hsame stored ((stored_of_copyDraft hcopy).2 hstored)

/-- **One call** that is clear keeps the journals. -/
theorem step_journaled {call : Env × Call} (hclear : Clear host s call) (hs : Journaled s) :
    Journaled (step host s call) := by
  obtain ⟨env, call⟩ := call
  by_cases hraw : ∀ runId draft claim, call = .appendEvent runId draft claim →
      KeyClear s runId draft
  · have htraces : Writes host env KeyClear True s (call.run host env) :=
      Call.traces (fun _ _ _ h => .inl h) call hs.toTree hraw fun _ _ _ _ => trivial
    obtain ⟨log, hlog⟩ := htraces
    exact trace_journaled hlog hs
  · -- the draft is refused, or its key is found: nothing is written
    simp only [not_forall] at hraw
    obtain ⟨runId, draft, claim, rfl, hunclear⟩ := hraw
    have hsame : (appendEvent host env runId draft claim).final s = s := by
      unfold Action.final
      have hcases := appendEvent_cases host env draft claim runId hs.toTree
      rcases hcases with ⟨e, h⟩ | ⟨existing, -, h⟩ | ⟨event, s', -, hacceptable, -⟩
      · rw [h]
      · rw [h]
      · exact (hclear.elim hunclear fun h => h hacceptable).elim
    have hstep : step host s (env, .appendEvent runId draft claim) = s := by
      show ((fun _ => ()) <$> appendEvent host env runId draft claim).final s = s
      rw [Action.final_map, hsame]
    rw [hstep]
    exact hs

theorem journaled_empty : Journaled {} := by
  have hruns : ∀ id run, ({} : State).runs.get? id = some run → False := fun _ _ h => by cases h
  refine ⟨⟨rfl, fun id run h => (hruns id run h).elim, fun id run h => (hruns id run h).elim,
    fun id run h => (hruns id run h).elim⟩, fun id run h => (hruns id run h).elim, fun _ => rfl,
    fun id run h => (hruns id run h).elim, fun _ _ h => absurd h List.not_mem_nil,
    fun _ _ h => absurd h List.not_mem_nil, fun _ => List.nodup_nil, fun _ _ => rfl⟩

/-- A call that is not clear stores a key a second time. -/
theorem step_of_not_clear {call : Env × Call} (hs : Journaled s) (h : ¬ Clear host s call) :
    ∃ root, ¬ (((step host s call).rootJournal root).map (·.sourceKey)).Nodup := by
  obtain ⟨env, call⟩ := call
  cases call with
  | appendEvent runId draft claim =>
    obtain ⟨hkey, hacceptable⟩ := not_or.1 h
    obtain ⟨htrim, hstored⟩ := not_or.1 hkey
    rw [not_not] at hacceptable
    simp only [not_forall, not_not] at hstored
    obtain ⟨stored, hmem, hsame⟩ := hstored
    have hfresh : (s.sources runId true).get? draft.sourceKey = none := by
      cases hget : (s.sources runId true).get? draft.sourceKey with
      | none => rfl
      | some event => exact absurd (hs.found hget).2.2 htrim
    obtain ⟨event, s', hok, happended⟩ := hacceptable.appendEvent hs.toTree hfresh
    have hstep : step host s (env, .appendEvent runId draft claim) = s' := by
      show ((fun _ => ()) <$> appendEvent host env runId draft claim).final s = s'
      rw [Action.final_map, Action.final, hok]
    obtain ⟨run, hactive⟩ := hacceptable.active
    have hrun := (active_eq_ok hactive).2.1
    obtain ⟨copied, hcopied, -, rfl, rfl⟩ := happended.made
    have hquiet : Quiet s (emitted host env runId (s.run runId).rootRunId true copied s) :=
      quiet_emitted
    obtain ⟨run', hrun', hroot'⟩ := hquiet.forth runId run hrun
    refine ⟨run.rootRunId, ?_⟩
    rw [run_of_get? hrun] at hmem
    rw [hstep, rootJournal_pushEvent hrun', if_pos hroot'.symm, hquiet.journal, List.map_append,
      List.nodup_append]
    rintro ⟨-, -, hdisjoint⟩
    refine hdisjoint _ (List.mem_map_of_mem hmem) _ (List.mem_singleton.2 rfl) ?_
    rw [hsame]
    exact (trim_of_copyDraft hcopied).symm
  | _ => exact absurd trivial h

/-- **The journals of every run** whose calls are clear are sound, and drafts that are stored are
found.  A call that is not clear stores a source key a second time. -/
theorem reached_journaled (host : Host) (run : List (Env × Call))
    (hclear : Along (step host) (Clear host) {} run) :
    Journaled (exec (step host) {} run) ∧ Replays host (exec (step host) {} run) ∧
      ∀ call, ¬ Clear host (exec (step host) {} run) call →
        ∃ root, ¬ (((step host (exec (step host) {} run) call).rootJournal root).map
          (·.sourceKey)).Nodup := by
  have hs : Journaled (exec (step host) {} run) :=
    exec_induction (fun _ _ => step_journaled) hclear journaled_empty
  exact ⟨hs, hs.replays, fun _ => step_of_not_clear hs⟩

/-- A Root Run begins. -/
def beginRoot : Env × Call := (sampleEnv, .begin { requestedRunId := some "root" })

/-- A tool is started, under a key. -/
def startTool (sourceKey : String) : Env × Call :=
  (sampleEnv, .appendEvent "root"
    { sourceKey, kind := .toolStarted, channel := .tool, visibility := .pub } {})

/-- The same draft, sent again. -/
theorem reached_journaled_again :
    Journaled (exec (step sampleHost) {} [beginRoot, startTool "k", startTool "k"]) :=
  (reached_journaled sampleHost [beginRoot, startTool "k", startTool "k"]
    ⟨trivial, .inl (by decide +kernel), .inl (by decide +kernel), trivial⟩).1

/-- A key that is padded is not found, and is stored a second time when it is trimmed. -/
theorem padded_key_is_stored_twice :
    ¬ Journaled (exec (step sampleHost) {} [beginRoot, startTool "k", startTool " k"]) := by
  intro h
  have hkeys : ((exec (step sampleHost) {} [beginRoot, startTool "k",
      startTool " k"]).rootJournal "root").map (·.sourceKey) = ["run:root:started", "k", "k"] := by
    decide +kernel
  have hdistinct := h.distinct "root"
  rw [hkeys] at hdistinct
  exact absurd hdistinct (by decide)

end

end Purra.RunStore
