import Purra.Lib.Run
import Purra.Output.Buffering

/-!
# Every delta is journalled once

A stream's chunks are accepted and its pending deltas flushed, in any order; other
producers journal their own events in between.

* `Buffered` — the invariant: the batches in the journal come from groups of deltas, the
  groups and what is pending make up the deltas of the accepted chunks, and of two groups
  for one destination the later has later chunks only.
* `buffered_step` — every action keeps it.
* `buffered_deltas_complete` — after the last flush the batches of each destination hold
  the deltas of the accepted chunks, in their order; their keys are distinct, and each is
  a batch the journal accepts.
-/

namespace Purra.Output

/-! ## Runs of a stream -/

/-- What happens to a stream and its journal. -/
inductive OutputAction where
  /-- A chunk arrives. -/
  | accept (chunk : ModelStreamChunk) (authorization : Authorization) (now : Int)
  /-- The pending deltas are flushed, on demand or because their time has come. -/
  | flush
  /-- Another producer's event is journalled. -/
  | other (draft : AgentOutputEventDraft)

namespace Processor

variable (p : Processor)

/-- One action; a chunk that is refused changes nothing. -/
def step (s : LiveStream) : OutputAction → LiveStream
  | .accept chunk authorization now =>
    match p.acceptProviderChunk s chunk authorization now with
    | .ok s' => s'
    | .error _ => s
  | .flush => p.flushLocked s
  | .other draft => appendAll [draft] s

/-- The chunk an action has accepted, and when. -/
def accepted : OutputAction → Option (ModelStreamChunk × Int)
  | .accept chunk authorization now =>
    match p.authorize chunk authorization with
    | .ok (some authorized) => some (authorized, now)
    | _ => none
  | _ => none


/-- The deltas of some chunks, in arrival order. -/
def extracted (chunks : List (ModelStreamChunk × Int)) : List PendingProviderDelta :=
  (chunks.zipIdx 1).flatMap fun c => pendingDeltas p.spec c.1.1 c.2 c.1.2

/-- A batch of the stream. -/
def isBatch (draft : AgentOutputEventDraft) : Bool :=
  draft.kind = .providerDeltaBatch && draft.outputStreamId = some p.spec.outputStreamId

/-- What another producer journals is no batch of the stream. -/
def Foreign : OutputAction → Prop
  | .other draft => p.isBatch draft = false
  | _ => True

/-- The batches of the stream in a journal. -/
def batches (journal : List AgentOutputEventDraft) : List AgentOutputEventDraft :=
  journal.filter p.isBatch

/-- The entries of the stream's batches for a destination, in journal order. -/
def storedEntries (journal : List AgentOutputEventDraft)
    (destination : OutputChannel × OutputVisibility) : List Json :=
  ((p.batches journal).filter fun draft => (draft.channel, draft.visibility) = destination).flatMap
    fun draft => (Json.items? (Json.get draft.payload "entries")).getD []

/-! ## Deltas -/

variable {p}

/-- What every delta of a chunk satisfies. -/
structure Proper (spec : OutputStreamSpec) (delta : PendingProviderDelta) : Prop where
  index_pos : 0 < delta.sourceChunkIndex
  kind : delta.kind.isProviderDelta = true
  publicText : delta.visibility = .publicEvent → delta.channel.isText = true ∧
    delta.kind = .providerContentDelta ∧ ∃ text, delta.payload = [("delta", .str text)]

variable {spec : OutputStreamSpec}

theorem proper_content {index part : Nat} (hindex : 0 < index) (text : String) (now : Int) :
    Proper spec ⟨index, part, .providerContentDelta, (contentDestination spec).1,
      (contentDestination spec).2, [("delta", .str text)], now⟩ := by
  refine ⟨hindex, rfl, fun hvisibility => ⟨?_, rfl, text, rfl⟩⟩
  have hvisibility : (contentDestination spec).2 = .publicEvent := hvisibility
  show (contentDestination spec).1.isText = true
  unfold contentDestination at hvisibility ⊢
  cases hintent : spec.intent with
  | executionPublic | finalPublic => rfl
  | structuredPrivate | reasoningPrivate =>
    rw [hintent] at hvisibility
    cases hvisibility

/-- A delta of a chunk has the chunk's number. -/
theorem mem_pendingDeltas {chunk : ModelStreamChunk} {index : Nat}
    {now : Int} (hindex : 0 < index) {delta : PendingProviderDelta}
    (h : delta ∈ pendingDeltas spec chunk index now) :
    delta.sourceChunkIndex = index ∧ Proper spec delta := by
  simp only [pendingDeltas, List.mem_append, List.mem_ite_nil_left, List.mem_singleton] at h
  rcases h with ((⟨-, rfl⟩ | ⟨-, rfl⟩) | ⟨-, rfl⟩) | ⟨-, rfl⟩
  · exact ⟨rfl, proper_content hindex _ now⟩
  all_goals exact ⟨rfl, hindex, rfl, fun hvisibility => by cases hvisibility⟩

theorem extracted_append (chunks : List (ModelStreamChunk × Int)) (c : ModelStreamChunk × Int) :
    p.extracted (chunks ++ [c]) =
      p.extracted chunks ++ pendingDeltas p.spec c.1 (chunks.length + 1) c.2 := by
  simp [extracted, List.zipIdx_append, Nat.add_comm]

/-! ## Groups -/

/-- The deltas of some groups for a destination. -/
def select (groups : List ((OutputChannel × OutputVisibility) × List PendingProviderDelta))
    (destination : OutputChannel × OutputVisibility) : List PendingProviderDelta :=
  (groups.filter (·.1 = destination)).flatMap (·.2)

/-- A group of deltas, as it becomes a batch. -/
structure Grouped (spec : OutputStreamSpec)
    (group : (OutputChannel × OutputVisibility) × List PendingProviderDelta) : Prop where
  ne_nil : group.2 ≠ []
  destination : ∀ delta ∈ group.2, delta.destination = group.1
  proper : ∀ delta ∈ group.2, Proper spec delta

/-- Of two groups for one destination the second has later chunks only. -/
def Later (group group' : (OutputChannel × OutputVisibility) × List PendingProviderDelta) : Prop :=
  group.1 = group'.1 →
    ∀ delta ∈ group.2, ∀ delta' ∈ group'.2, delta.sourceChunkIndex < delta'.sourceChunkIndex

theorem select_append (groups groups' : List ((OutputChannel × OutputVisibility) × List PendingProviderDelta))
    (destination : OutputChannel × OutputVisibility) :
    select (groups ++ groups') destination = select groups destination ++ select groups' destination := by
  simp [select, List.filter_append, List.flatMap_append]

/-- The groups that are flushed, in the order of their batches. -/
def flushed (entries : List PendingProviderDelta) :
    List ((OutputChannel × OutputVisibility) × List PendingProviderDelta) :=
  (groupBy PendingProviderDelta.destination entries).entries.mergeSort groupBefore

theorem flushed_perm (entries : List PendingProviderDelta) :
    (flushed entries).Perm (groupBy PendingProviderDelta.destination entries).entries :=
  List.mergeSort_perm _ _

theorem select_flushed (entries : List PendingProviderDelta)
    (destination : OutputChannel × OutputVisibility) :
    select (flushed entries) destination = entries.filter (·.destination = destination) :=
  select_of_perm (flushed_perm entries) destination

theorem mem_flushed {entries : List PendingProviderDelta}
    {group : (OutputChannel × OutputVisibility) × List PendingProviderDelta}
    (h : group ∈ flushed entries) :
    group.2 ≠ [] ∧ ∀ delta ∈ group.2, delta ∈ entries ∧ delta.destination = group.1 := by
  obtain ⟨hne, heq⟩ := mem_groupBy.1 ((flushed_perm entries).mem_iff.1 h)
  refine ⟨hne, fun delta hdelta => ?_⟩
  rw [heq] at hdelta
  obtain ⟨hmem, hdestination⟩ := List.mem_filter.1 hdelta
  exact ⟨hmem, of_decide_eq_true hdestination⟩

/-- The groups of one flush have different destinations. -/
theorem pairwise_flushed (entries : List PendingProviderDelta) :
    (flushed entries).Pairwise fun group group' => group.1 ≠ group'.1 := by
  have hnodup : ((flushed entries).map Prod.fst).Nodup :=
    ((flushed_perm entries).map Prod.fst).nodup_iff.2
      (groupBy PendingProviderDelta.destination entries).nodup_keys
  exact List.pairwise_map.1 hnodup

/-! ## The invariant -/

/-- The groups behind the batches in a journal, for the chunks accepted so far. -/
structure Buffered (p : Processor) (chunks : List (ModelStreamChunk × Int)) (s : LiveStream)
    (groups : List ((OutputChannel × OutputVisibility) × List PendingProviderDelta)) : Prop where
  index : s.chunkIndex = chunks.length
  batches : p.batches s.journal = groups.map (batchDraft p.canonical p.spec)
  grouped : ∀ group ∈ groups, Grouped p.spec group
  later : groups.Pairwise Later
  deltas : ∀ destination,
    select groups destination ++ s.entries.filter (·.destination = destination) =
      (p.extracted chunks).filter (·.destination = destination)
  pending : ∀ delta ∈ s.entries, Proper p.spec delta ∧ delta.sourceChunkIndex ≤ s.chunkIndex ∧
    ∀ group ∈ groups, ∀ earlier ∈ group.2, earlier.sourceChunkIndex < delta.sourceChunkIndex
  stored : ∀ group ∈ groups, ∀ delta ∈ group.2, delta.sourceChunkIndex ≤ s.chunkIndex

variable {chunks : List (ModelStreamChunk × Int)} {s s' : LiveStream}
  {groups : List ((OutputChannel × OutputVisibility) × List PendingProviderDelta)}

/-- What is journalled beside the batches does not matter, nor what else the state holds. -/
theorem Buffered.of_eq (h : Buffered p chunks s groups) (hindex : s'.chunkIndex = s.chunkIndex)
    (hentries : s'.entries = s.entries) (hbatches : p.batches s'.journal = p.batches s.journal) :
    Buffered p chunks s' groups where
  index := hindex.trans h.index
  batches := hbatches.trans h.batches
  grouped := h.grouped
  later := h.later
  deltas := by rw [hentries]; exact h.deltas
  pending := by rw [hentries, hindex]; exact h.pending
  stored := by rw [hindex]; exact h.stored

theorem batches_append (journal journal' : List AgentOutputEventDraft) :
    p.batches (journal ++ journal') = p.batches journal ++ p.batches journal' :=
  List.filter_append ..

theorem batches_batchDrafts (entries : List PendingProviderDelta) :
    p.batches (batchDrafts p.canonical p.spec entries) =
      (flushed entries).map (batchDraft p.canonical p.spec) := by
  refine List.filter_eq_self.2 fun draft hdraft => ?_
  obtain ⟨group, -, rfl⟩ := List.mem_map.1 hdraft
  simp [isBatch, batchDraft]

/-- **A flush** makes batches of what is pending. -/
theorem Buffered.flush (h : Buffered p chunks s groups) :
    Buffered p chunks (p.flushLocked s) (groups ++ flushed s.entries) := by
  by_cases hempty : s.entries = []
  · have hflushed : flushed s.entries = [] := by simp [hempty, flushed, groupBy, Dict.empty]
    rw [hflushed, List.append_nil, flushLocked, if_pos hempty]
    exact h.of_eq rfl rfl rfl
  rw [flushLocked, if_neg hempty]
  exact {
    index := h.index
    batches := by
      show p.batches (s.journal ++ batchDrafts p.canonical p.spec s.entries) = _
      rw [batches_append, h.batches, batches_batchDrafts, List.map_append]
    grouped := by
      intro group hgroup
      rcases List.mem_append.1 hgroup with hgroup | hgroup
      · exact h.grouped group hgroup
      · obtain ⟨hne, hmem⟩ := mem_flushed hgroup
        exact ⟨hne, fun delta hdelta => (hmem delta hdelta).2,
          fun delta hdelta => (h.pending delta (hmem delta hdelta).1).1⟩
    later := by
      refine List.pairwise_append.2 ⟨h.later, ?_, fun group hgroup group' hgroup' => ?_⟩
      · exact (pairwise_flushed s.entries).imp fun hne heq => absurd heq hne
      · intro _ delta hdelta delta' hdelta'
        have hpending := ((mem_flushed hgroup').2 delta' hdelta').1
        exact (h.pending delta' hpending).2.2 group hgroup delta hdelta
    deltas := by
      intro destination
      rw [select_append, select_flushed]
      simpa using h.deltas destination
    pending := by
      intro delta hdelta
      cases hdelta
    stored := by
      intro group hgroup delta hdelta
      rcases List.mem_append.1 hgroup with hgroup | hgroup
      · exact h.stored group hgroup delta hdelta
      · exact (h.pending delta ((mem_flushed hgroup).2 delta hdelta).1).2.1 }

/-- **A chunk** that is taken has its deltas pending, before anything is flushed. -/
theorem Buffered.append (h : Buffered p chunks s groups) (chunk : ModelStreamChunk) (now : Int)
    (hindex : s'.chunkIndex = s.chunkIndex + 1)
    (hentries : s'.entries = s.entries ++ pendingDeltas p.spec chunk (s.chunkIndex + 1) now)
    (hjournal : s'.journal = s.journal) :
    Buffered p (chunks ++ [(chunk, now)]) s' groups where
  index := by rw [hindex, h.index, List.length_append, List.length_singleton]
  batches := by rw [hjournal, h.batches]
  grouped := h.grouped
  later := h.later
  deltas := by
    intro destination
    rw [hentries, extracted_append, List.filter_append, List.filter_append, ← h.deltas destination,
      h.index, List.append_assoc]
  pending := by
    intro delta hdelta
    rw [hentries] at hdelta
    rw [hindex]
    rcases List.mem_append.1 hdelta with hdelta | hdelta
    · obtain ⟨hproper, hle, hlater⟩ := h.pending delta hdelta
      exact ⟨hproper, Nat.le_succ_of_le hle, hlater⟩
    · obtain ⟨hnumber, hproper⟩ := mem_pendingDeltas (Nat.succ_pos s.chunkIndex) hdelta
      refine ⟨hproper, hnumber.le, fun group hgroup earlier hearlier => ?_⟩
      have hle := h.stored group hgroup earlier hearlier
      omega
  stored := by
    intro group hgroup delta hdelta
    rw [hindex]
    exact Nat.le_succ_of_le (h.stored group hgroup delta hdelta)

/-- What is journalled beside batches. -/
theorem Buffered.appendAll (h : Buffered p chunks s groups) {drafts : List AgentOutputEventDraft}
    (hdrafts : ∀ draft ∈ drafts, p.isBatch draft = false) :
    Buffered p chunks (appendAll drafts s) groups := by
  refine h.of_eq rfl rfl ?_
  show p.batches (s.journal ++ drafts) = _
  have hnone : p.batches drafts = [] :=
    List.filter_eq_nil_iff.2 fun draft hdraft => by simp [hdrafts draft hdraft]
  rw [batches_append, hnone, List.append_nil]

theorem isBatch_draft {key : String} {kind : OutputEventKind} (hkind : kind ≠ .providerDeltaBatch)
    (channel : OutputChannel) (visibility : OutputVisibility) (payload : Json.Object) (now : Int) :
    p.isBatch (p.draft key kind channel visibility payload now) = false := by
  simp [isBatch, draft, hkind]

theorem isBatch_chunkDrafts {chunk : ModelStreamChunk} {allowed : Bool}
    {deltas : List PlanningTextDelta} {index : Nat} {now : Int} {draft : AgentOutputEventDraft}
    (h : draft ∈ p.chunkDrafts chunk allowed deltas index now) : p.isBatch draft = false := by
  unfold chunkDrafts deltaDrafts at h
  rcases List.mem_append.1 h with h | h
  · rcases List.mem_append.1 h with h | h
    · split at h
      · split at h
        · obtain ⟨delta, -, rfl⟩ := List.mem_map.1 h
          exact isBatch_draft (by decide) ..
        · cases h
      · cases h
    · obtain ⟨usage, -, rfl⟩ := Option.map_eq_some_iff.1 (Option.mem_toList.1 h)
      exact isBatch_draft (by decide) ..
  · split at h
    · obtain rfl := List.mem_singleton.1 h
      exact isBatch_draft (by decide) ..
    · cases h

/-- Flushing is up to the chunk. -/
theorem Buffered.settle (h : Buffered p chunks s groups) (chunk : ModelStreamChunk)
    (previews : Bool) : ∃ groups', Buffered p chunks (p.settle s chunk previews) groups' := by
  unfold Processor.settle
  split
  · exact ⟨_, h.flush⟩
  · split
    · exact ⟨groups, h.of_eq rfl rfl rfl⟩
    · exact ⟨groups, h⟩

/-- **Taking a chunk** keeps the invariant. -/
theorem Buffered.take (h : Buffered p chunks s groups) (chunk : ModelStreamChunk) (allowed : Bool)
    (now : Int) :
    ∃ groups', Buffered p (chunks ++ [(chunk, now)]) (p.take s chunk allowed now) groups' := by
  have hpending : Buffered p (chunks ++ [(chunk, now)])
      { p.append s chunk now with parser := (p.feedPlanning s.parser chunk).2 } groups :=
    h.append chunk now rfl rfl rfl
  obtain ⟨groups', hsettled⟩ := hpending.settle chunk ((p.feedPlanning s.parser chunk).1 ≠ [])
  exact ⟨groups', hsettled.appendAll fun draft hdraft => isBatch_chunkDrafts hdraft⟩

/-- **Every action** keeps the invariant, and adds the chunk it accepts. -/
theorem buffered_step {action : OutputAction} (hforeign : p.Foreign action)
    (h : Buffered p chunks s groups) :
    ∃ groups', Buffered p (chunks ++ (p.accepted action).toList) (p.step s action) groups' := by
  cases action with
  | accept chunk authorization now =>
    simp only [step, acceptProviderChunk, accepted]
    cases hauthorize : p.authorize chunk authorization with
    | error e =>
      refine ⟨groups, ?_⟩
      show Buffered p (chunks ++ []) s groups
      rwa [List.append_nil]
    | ok answer =>
      cases answer with
      | none =>
        refine ⟨groups, ?_⟩
        show Buffered p (chunks ++ []) s groups
        rwa [List.append_nil]
      | some authorized => exact h.take authorized authorization.planningDelta now
  | flush =>
    refine ⟨groups ++ flushed s.entries, ?_⟩
    show Buffered p (chunks ++ []) (p.flushLocked s) _
    rw [List.append_nil]
    exact h.flush
  | other draft =>
    have hbatch : ∀ d ∈ [draft], p.isBatch d = false := by
      intro d hd
      obtain rfl := List.mem_singleton.1 hd
      exact hforeign
    refine ⟨groups, ?_⟩
    show Buffered p (chunks ++ []) (Processor.appendAll [draft] s) groups
    rw [List.append_nil]
    exact h.appendAll hbatch

theorem buffered_run {actions : List OutputAction} (hforeign : ∀ action ∈ actions, p.Foreign action)
    (h : Buffered p chunks s groups) :
    ∃ groups', Buffered p (chunks ++ actions.filterMap p.accepted) (exec p.step s actions) groups' := by
  induction actions generalizing chunks s groups with
  | nil => exact ⟨groups, by simpa using h⟩
  | cons action rest ih =>
    obtain ⟨groups', hstep⟩ := buffered_step (hforeign action List.mem_cons_self) h
    obtain ⟨groups'', hrun⟩ := ih (fun a ha => hforeign a (List.mem_cons_of_mem _ ha)) hstep
    refine ⟨groups'', ?_⟩
    have hlog : chunks ++ (action :: rest).filterMap p.accepted =
        chunks ++ (p.accepted action).toList ++ rest.filterMap p.accepted := by
      rw [List.append_assoc]
      congr 1
      cases haction : p.accepted action <;> simp [haction]
    rw [hlog]
    exact hrun

/-! ## Keys -/

theorem not_mem_channel (channel : OutputChannel) : ':' ∉ channel.value.toList := by
  cases channel <;> decide

theorem not_mem_visibility (visibility : OutputVisibility) : ':' ∉ visibility.value.toList := by
  cases visibility <;> decide

theorem channel_inj {channel channel' : OutputChannel} (h : channel.value = channel'.value) :
    channel = channel' := by
  cases channel <;> cases channel' <;> first | rfl | exact absurd h (by decide)

theorem visibility_inj {visibility visibility' : OutputVisibility}
    (h : visibility.value = visibility'.value) : visibility = visibility' := by
  cases visibility <;> cases visibility' <;> first | rfl | exact absurd h (by decide)

theorem toList_batchKey (spec : OutputStreamSpec) (destination : OutputChannel × OutputVisibility)
    (start stop : Nat) :
    (batchKey spec destination start stop).toList =
      ("provider-batch:" ++ spec.invocationId ++ ":").toList ++
        (destination.1.value.toList ++ ':' :: (destination.2.value.toList ++
          ':' :: ((toString start).toList ++ ':' :: (toString stop).toList))) := by
  have hcolon : ":".toList = [':'] := by decide
  unfold batchKey
  rw [String.toList_append, String.toList_append, String.toList_append, String.toList_append,
    String.toList_append, String.toList_append, String.toList_append, hcolon]
  simp only [List.append_assoc, List.cons_append, List.nil_append]

/-- A key tells the destination, and the first chunk. -/
theorem batchKey_inj {destination destination' : OutputChannel × OutputVisibility}
    {start stop start' stop' : Nat}
    (h : batchKey spec destination start stop = batchKey spec destination' start' stop') :
    destination = destination' ∧ start = start' := by
  have hlist := congrArg String.toList h
  rw [toList_batchKey, toList_batchKey] at hlist
  have hrest := List.append_cancel_left hlist
  obtain ⟨hchannel, hrest⟩ := word_inj (not_mem_channel _) (not_mem_channel _) hrest
  obtain ⟨hvisibility, hrest⟩ := word_inj (not_mem_visibility _) (not_mem_visibility _) hrest
  obtain ⟨hstart, -⟩ := word_inj (not_mem_digits rfl _) (not_mem_digits rfl _) hrest
  exact ⟨Prod.ext (channel_inj (String.toList_inj.1 hchannel))
    (visibility_inj (String.toList_inj.1 hvisibility)), digits_inj hstart⟩

/-- The first chunk of a group is one of its chunks. -/
theorem chunkStart_mem {deltas : List PendingProviderDelta} (h : deltas ≠ []) :
    ∃ delta ∈ deltas, delta.sourceChunkIndex = chunkStart deltas := by
  have hne : deltas.map (·.sourceChunkIndex) ≠ [] := by simpa using h
  obtain ⟨n, hn⟩ := Option.isSome_iff_exists.1 (List.isSome_min?_of_ne_nil hne)
  obtain ⟨delta, hdelta, heq⟩ := List.mem_map.1 (List.min?_mem hn)
  exact ⟨delta, hdelta, by rw [chunkStart, hn, heq]; rfl⟩

/-- Later groups have other keys. -/
theorem key_ne {canonical : Canonical}
    {group group' : (OutputChannel × OutputVisibility) × List PendingProviderDelta}
    (hne : group.2 ≠ []) (hne' : group'.2 ≠ []) (h : Later group group') :
    (batchDraft canonical spec group).sourceEventKey ≠
      (batchDraft canonical spec group').sourceEventKey := by
  intro hkey
  obtain ⟨hdestination, hstart⟩ := batchKey_inj hkey
  obtain ⟨delta, hdelta, hindex⟩ := chunkStart_mem hne
  obtain ⟨delta', hdelta', hindex'⟩ := chunkStart_mem hne'
  have hlt := h hdestination delta hdelta delta' hdelta'
  omega

/-! ## The check -/

theorem ofValue_value (kind : OutputEventKind) :
    OutputEventKind.ofValue (.str kind.value) = .ok kind := by
  cases kind <;> decide

variable {py : Builtins} {canonical : Canonical} {spec : OutputStreamSpec}
  {group : (OutputChannel × OutputVisibility) × List PendingProviderDelta}

/-- The entry of a delta passes in a batch for its destination. -/
theorem validateEntry_entry {delta : PendingProviderDelta} (hproper : Proper spec delta)
    (hdestination : delta.destination = group.1) :
    validateEntry py (batchDraft canonical spec group) (.obj delta.entry) =
      .ok delta.sourceChunkIndex := by
  have hindex : Json.get delta.entry "sourceChunkIndex" = .int delta.sourceChunkIndex := rfl
  have hkind : Json.get delta.entry "kind" = .str delta.kind.value := rfl
  have hpayload : Json.get delta.entry "payload" = .obj delta.payload := rfl
  have hpositive : ¬(delta.sourceChunkIndex : Int) ≤ 0 := by
    have := hproper.index_pos
    omega
  have hpublic : ¬((batchDraft canonical spec group).visibility = .publicEvent ∧
      ((batchDraft canonical spec group).channel.isText = false ∨
        delta.kind ≠ .providerContentDelta ∨ isStr (Json.get delta.payload "delta") = false)) := by
    have hchannel : (batchDraft canonical spec group).channel = delta.channel :=
      (congrArg Prod.fst hdestination).symm
    have hvisibility : (batchDraft canonical spec group).visibility = delta.visibility :=
      (congrArg Prod.snd hdestination).symm
    rw [hchannel, hvisibility]
    rintro ⟨hpublic, hother⟩
    obtain ⟨htext, hcontent, text, hdelta⟩ := hproper.publicText hpublic
    have hstr : isStr (Json.get delta.payload "delta") = true := by rw [hdelta]; rfl
    simp [htext, hcontent, hstr] at hother
  simp only [validateEntry, hindex, hkind, hpayload, Builtins.int_int, positiveInt, if_neg hpositive,
    ofValue_value, ok_bind, hproper.kind, if_neg hpublic]
  rfl

/-- **A batch passes the check** of the journal. -/
theorem validate_batchDraft (hstream : spec.outputStreamId ≠ "") (hinvocation : spec.invocationId ≠ "")
    (hgroup : Grouped spec group) :
    validateProviderDeltaBatch py canonical (batchDraft canonical spec group) = .ok () := by
  have hentries : (group.2.map fun delta => Json.obj delta.entry).mapM
      (validateEntry py (batchDraft canonical spec group)) =
        .ok (group.2.map (·.sourceChunkIndex)) := by
    rw [List.mapM_map]
    exact mapM_eq_map fun delta hdelta =>
      validateEntry_entry (hgroup.proper delta hdelta) (hgroup.destination delta hdelta)
  have hids : ¬((batchDraft canonical spec group).source ≠ .provider ∨
      (batchDraft canonical spec group).outputStreamId.getD "" = "" ∨
      (batchDraft canonical spec group).invocationId.getD "" = "") := by
    simp [batchDraft, hstream, hinvocation]
  have hschema : Json.get (batchDraft canonical spec group).payload "schemaVersion" =
    .str providerDeltaBatchSchema := rfl
  have hlist : Json.get (batchDraft canonical spec group).payload "entries" =
    .arr (group.2.map fun delta => Json.obj delta.entry) := rfl
  have hstart : Json.get (batchDraft canonical spec group).payload "sourceChunkStart" =
    .int (chunkStart group.2) := rfl
  have hstop : Json.get (batchDraft canonical spec group).payload "sourceChunkEnd" =
    .int (chunkEnd group.2) := rfl
  have hdigest : Json.get (batchDraft canonical spec group).payload "payloadDigest" =
    .str (canonical.digest (group.2.map fun delta => Json.obj delta.entry)) := rfl
  unfold validateProviderDeltaBatch
  rw [if_neg (by simp [batchDraft]), if_neg hids, hschema, hlist, hstart, hstop, hdigest]
  have hne : (group.2.map fun delta => Json.obj delta.entry) ≠ [] := by
    simpa using hgroup.ne_nil
  generalize (group.2.map fun delta => Json.obj delta.entry) = entries at hne hentries
  cases entries with
  | nil => exact absurd rfl hne
  | cons entry rest =>
    simp only [hentries, ok_bind, Json.pyEq_int, Json.pyEq_str, chunkStart, chunkEnd]
    rfl

/-! ## Complete -/

theorem buffered_initial : Buffered p [] {} [] where
  index := rfl
  batches := rfl
  grouped := fun group hgroup => by cases hgroup
  later := List.Pairwise.nil
  deltas := fun destination => rfl
  pending := fun delta hdelta => by cases hdelta
  stored := fun group hgroup => by cases hgroup

/-- The entries of the batches for a destination, from the groups behind them. -/
theorem storedEntries_eq (h : Buffered p chunks s groups)
    (destination : OutputChannel × OutputVisibility) :
    p.storedEntries s.journal destination =
      (select groups destination).map fun delta => .obj delta.entry := by
  rw [storedEntries, h.batches, select, List.filter_map, List.flatMap_map, List.map_flatMap]
  rfl

/-- The keys of the batches are distinct. -/
theorem nodup_keys (h : Buffered p chunks s groups) :
    ((p.batches s.journal).map (·.sourceEventKey)).Nodup := by
  rw [h.batches, List.map_map]
  refine List.pairwise_map.2 (List.Pairwise.imp_of_mem ?_ h.later)
  intro group group' hgroup hgroup' hlater
  exact key_ne (h.grouped group hgroup).ne_nil (h.grouped group' hgroup').ne_nil hlater

/-- A flush leaves nothing pending. -/
theorem flushLocked_entries (s : LiveStream) : (p.flushLocked s).entries = [] := by
  unfold flushLocked
  split
  · next hempty => exact hempty
  · rfl

/-- `finish_model_stream`, and `abort_model_stream`: the last flush. -/
def finish (p : Processor) (s : LiveStream) : LiveStream := p.flushLocked s

/-- **Buffering loses and duplicates nothing.**  Chunks are accepted, with whatever answers the
output policy gives, flushes come at any time, and other producers journal events of their
own; after the last flush the batches of every destination hold the deltas of the accepted
chunks in arrival order, the keys of the batches are distinct, and every batch passes the
journal's check. -/
theorem buffered_deltas_complete (p : Processor) (py : Builtins)
    (hstream : p.spec.outputStreamId ≠ "") (hinvocation : p.spec.invocationId ≠ "")
    (actions : List OutputAction) (hforeign : ∀ action ∈ actions, p.Foreign action) :
    let journal := (p.finish (exec p.step {} actions)).journal
    (∀ destination, p.storedEntries journal destination =
      ((p.extracted (actions.filterMap p.accepted)).filter (·.destination = destination)).map
        fun delta => .obj delta.entry) ∧
    ((p.batches journal).map (·.sourceEventKey)).Nodup ∧
    ∀ batch ∈ p.batches journal, validateProviderDeltaBatch py p.canonical batch = .ok () := by
  intro journal
  obtain ⟨groups, hrun⟩ := buffered_run hforeign (buffered_initial (p := p))
  have hlast := hrun.flush
  rw [List.nil_append] at hlast
  refine ⟨fun destination => ?_, nodup_keys hlast, fun batch hbatch => ?_⟩
  · have hdeltas := hlast.deltas destination
    rw [flushLocked_entries, List.filter_nil, List.append_nil] at hdeltas
    have hstored : p.storedEntries journal destination = _ := storedEntries_eq hlast destination
    rw [hstored, hdeltas]
  · have hbatches : p.batches journal = _ := hlast.batches
    rw [hbatches] at hbatch
    obtain ⟨group, hgroup, rfl⟩ := List.mem_map.1 hbatch
    exact validate_batchDraft hstream hinvocation (hlast.grouped group hgroup)

/-- Two chunks of a public answer, the first flushed by its timer. -/
theorem buffered_deltas_complete_example :
    let p : Processor := {
      canonical := ⟨fun _ => 1, fun _ => "digest"⟩
      spec := { outputStreamId := "s", runId := "r", turnId := none, invocationId := "i",
                intent := .executionPublic, commitMode := .live } }
    let hello : ModelStreamChunk := { contentDelta := "he", reasoningDelta := "why" }
    let rest : ModelStreamChunk := { contentDelta := "llo", finishReason := some .stop }
    let actions := [.accept hello ⟨some hello, true⟩ 1, .flush, .accept rest ⟨some rest, true⟩ 2]
    let journal := (p.finish (exec p.step {} actions)).journal
    (∀ destination, p.storedEntries journal destination =
      ((p.extracted (actions.filterMap p.accepted)).filter (·.destination = destination)).map
        fun delta => .obj delta.entry) ∧
    ((p.batches journal).map (·.sourceEventKey)).Nodup ∧
    ∀ batch ∈ p.batches journal,
      validateProviderDeltaBatch ⟨fun _ => "", fun _ => .ok 0⟩ p.canonical batch = .ok () := by
  intro p hello rest actions
  exact buffered_deltas_complete p _ (by decide) (by decide) actions (by simp [actions, Foreign])

end Processor

end Purra.Output
