import Purra.Output.LivePlanning

/-!
# Live planning output is storable

Every planning event that a stream journals passes the check of the journal it is appended
to, for every Provider text and every chunking of it.

* `contentEntries_batches` — the check reads the contents of the accepted chunks, once they
  are flushed.
* `storable_delta`, `storable_record` — a text delta and a progress record are found in them.
* `Live` — the invariant, kept by every action (`live_step`).
* `live_planning_storable` — every planning event of a run is accepted.
-/

namespace Purra.Output

namespace Processor

variable {p : Processor} {loads : String → Except PyError PyJson} {py : Builtins}
  {chunks : List (ModelStreamChunk × Int)} {s s' : LivePlanning}
  {groups : List ((OutputChannel × OutputVisibility) × List PendingProviderDelta)}

/-! ## What the check reads -/

/-- A delta of a content. -/
def isContent (delta : PendingProviderDelta) : Bool := delta.kind = .providerContentDelta

/-- A chunk has one content delta, if it has content. -/
theorem filter_pendingDeltas (spec : OutputStreamSpec) (chunk : ModelStreamChunk) (index : Nat)
    (now : Int) :
    ((pendingDeltas spec chunk index now).filter isContent).map PendingProviderDelta.entry =
      (if chunk.contentDelta = "" then [] else [(index, chunk.contentDelta)]).map contentEntry := by
  have hother : ∀ (c : Prop) [Decidable c] (delta : PendingProviderDelta), isContent delta = false →
      (if c then [] else [delta]).filter isContent = [] := by
    intro c _ delta hdelta
    split
    · rfl
    · exact List.filter_cons_of_neg (by simp [hdelta])
  dsimp only [pendingDeltas]
  rw [List.filter_append, List.filter_append, List.filter_append, hother (chunk.reasoningDelta = "") _ rfl,
    hother (chunk.toolCallDeltas = []) _ rfl, hother (chunk.progressDelta = "") _ rfl, List.append_nil, List.append_nil, List.append_nil]
  by_cases h : chunk.contentDelta = ""
  · rw [if_pos h, if_pos h]
    rfl
  · rw [if_neg h, if_neg h]
    rfl

/-- The contents are the content deltas of the chunks. -/
theorem contents_extracted (chunks : List (ModelStreamChunk × Int)) :
    ((p.extracted chunks).filter isContent).map PendingProviderDelta.entry =
      (contents chunks).map contentEntry := by
  induction chunks using List.reverseRecOn with
  | nil => rfl
  | append_singleton chunks c ih =>
    rw [extracted_append, contents_append, List.filter_append, List.map_append, ih, List.map_append,
      filter_pendingDeltas]

variable {chunk : ModelStreamChunk}

/-- Content deltas have one destination. -/
theorem destination_of_content {index : Nat} {now : Int}
    {delta : PendingProviderDelta} (h : delta ∈ pendingDeltas p.spec chunk index now)
    (hcontent : isContent delta = true) : delta.destination = contentDestination p.spec := by
  simp only [pendingDeltas, List.mem_append, List.mem_ite_nil_left, List.mem_singleton] at h
  rcases h with ((⟨-, rfl⟩ | ⟨-, rfl⟩) | ⟨-, rfl⟩) | ⟨-, rfl⟩
  · rfl
  all_goals exact absurd hcontent Bool.false_ne_true

theorem mem_extracted {delta : PendingProviderDelta} (h : delta ∈ p.extracted chunks) :
    ∃ chunk index now, delta ∈ pendingDeltas p.spec chunk index now := by
  obtain ⟨c, -, hdelta⟩ := List.mem_flatMap.1 h
  exact ⟨_, _, _, hdelta⟩

variable {stream : LiveStream}

/-- Every delta in a group comes from a chunk. -/
theorem mem_of_group (h : Buffered p chunks stream groups)
    {group : (OutputChannel × OutputVisibility) × List PendingProviderDelta} (hgroup : group ∈ groups)
    {delta : PendingProviderDelta} (hdelta : delta ∈ group.2) : delta ∈ p.extracted chunks := by
  have hselect : delta ∈ select groups group.1 := by
    refine List.mem_flatMap.2 ⟨group, List.mem_filter.2 ⟨hgroup, by simp⟩, hdelta⟩
  have hmem : delta ∈ (p.extracted chunks).filter (·.destination = group.1) := by
    rw [← h.deltas]
    exact List.mem_append_left _ hselect
  exact (List.mem_filter.1 hmem).1

/-- The content deltas of the groups are those for the content's destination. -/
theorem content_groups (h : Buffered p chunks stream groups) :
    (groups.flatMap (·.2)).filter isContent =
      (select groups (contentDestination p.spec)).filter isContent := by
  have hall : ∀ group ∈ groups, ∀ delta ∈ group.2, isContent delta = true →
      group.1 = contentDestination p.spec := by
    intro group hgroup delta hdelta hcontent
    obtain ⟨chunk, index, now, hmem⟩ := mem_extracted (mem_of_group h hgroup hdelta)
    rw [← (h.grouped group hgroup).destination delta hdelta]
    exact destination_of_content hmem hcontent
  clear h
  induction groups with
  | nil => rfl
  | cons group rest ih =>
    have hrest := ih fun other hother => hall other (List.mem_cons_of_mem group hother)
    rw [List.flatMap_cons, List.filter_append, hrest]
    by_cases hgroup : group.1 = contentDestination p.spec
    · simp [select, hgroup]
    · have hnone : group.2.filter isContent = [] := by
        refine List.filter_eq_nil_iff.2 fun delta hdelta hcontent => ?_
        exact hgroup (hall group List.mem_cons_self delta hdelta hcontent)
      rw [hnone, List.nil_append]
      simp [select, hgroup]

/-- The content deltas that are pending come last. -/
theorem content_deltas (h : Buffered p chunks stream groups) (hentries : stream.entries = []) :
    ((groups.flatMap (·.2)).filter isContent).map PendingProviderDelta.entry =
      (contents chunks).map contentEntry := by
  have hdeltas := h.deltas (contentDestination p.spec)
  rw [hentries, List.filter_nil, List.append_nil] at hdeltas
  rw [content_groups h, hdeltas, List.filter_filter, ← contents_extracted (p := p)]
  congr 1
  refine List.filter_congr fun delta hdelta => ?_
  obtain ⟨chunk, index, now, hmem⟩ := mem_extracted hdelta
  cases hcontent : isContent delta with
  | false => simp
  | true => simp [destination_of_content hmem hcontent]

theorem entry_kind (delta : PendingProviderDelta) :
    Json.pyEq (Json.get delta.entry "kind") (.str OutputEventKind.providerContentDelta.value) =
      isContent delta := by
  have hkind : Json.get delta.entry "kind" = .str delta.kind.value := rfl
  rw [hkind, Json.pyEq]
  unfold isContent
  cases delta.kind <;> decide

theorem contentEntries_append (events more : List AgentOutputEventDraft) (invocationId : Option String) :
    contentEntries (events ++ more) invocationId =
      contentEntries events invocationId ++ contentEntries more invocationId := by
  simp [contentEntries, List.filter_append, List.flatMap_append]

/-- The entries of some batches, as the check reads them. -/
theorem contentEntries_map (groups : List ((OutputChannel × OutputVisibility) × List PendingProviderDelta)) :
    contentEntries (groups.map (batchDraft p.canonical p.spec)) (some p.spec.invocationId) =
      ((groups.flatMap (·.2)).filter isContent).map PendingProviderDelta.entry := by
  induction groups with
  | nil => rfl
  | cons group rest ih =>
    have hentries : Json.get (batchDraft p.canonical p.spec group).payload "entries" =
      .arr (group.2.map fun delta => .obj delta.entry) := rfl
    have hbatch : contentEntries [batchDraft p.canonical p.spec group] (some p.spec.invocationId) =
        (group.2.filter isContent).map PendingProviderDelta.entry := by
      have hown : [batchDraft p.canonical p.spec group].filter (fun event =>
          event.invocationId = some p.spec.invocationId && event.kind = .providerDeltaBatch) =
            [batchDraft p.canonical p.spec group] := List.filter_cons_of_pos (by simp [batchDraft])
      rw [contentEntries, hown, List.flatMap_singleton, hentries, Json.items?, Option.getD_some,
        Json.objects_map_obj, List.filter_map]
      congr 1
      exact List.filter_congr fun delta _ => entry_kind delta
    rw [List.map_cons, ← List.singleton_append, contentEntries_append, hbatch, ih,
      List.flatMap_cons, List.filter_append, List.map_append]

/-- Batches of the stream are those of its invocation. -/
def Sorted (p : Processor) (journal : List AgentOutputEventDraft) : Prop :=
  ∀ draft ∈ journal, (draft.kind = .providerDeltaBatch && draft.invocationId = some p.spec.invocationId) =
    p.isBatch draft

/-- **The check reads the contents** of the chunks, once they are flushed. -/
theorem contentEntries_batches (h : Buffered p chunks stream groups)
    (hentries : stream.entries = []) (hsorted : Sorted p stream.journal) :
    contentEntries stream.journal (some p.spec.invocationId) = (contents chunks).map contentEntry := by
  have hbatches : contentEntries stream.journal (some p.spec.invocationId) =
      contentEntries (p.batches stream.journal) (some p.spec.invocationId) := by
    unfold contentEntries batches
    rw [List.filter_filter]
    congr 1
    refine List.filter_congr fun draft hdraft => ?_
    rw [← hsorted draft hdraft, Bool.and_comm]
    cases decide (draft.kind = .providerDeltaBatch) <;> simp
  rw [hbatches, h.batches, contentEntries_map, content_deltas h hentries]

/-! ## What the check accepts -/

/-- The journal's check accepts a draft behind some contents. -/
def Storable (p : Processor) (loads : String → Except PyError PyJson) (py : Builtins)
    (contents : List (Nat × String)) (draft : AgentOutputEventDraft) : Prop :=
  ∀ events, contentEntries events (some p.spec.invocationId) = contents.map contentEntry →
    (∀ scope, p.spec.planningScope = some scope → planningActive events scope = true) →
    validatePlanningProjection py (plainLoads loads) (some p.spec) events draft = .ok ()

/-- The contents, as a dictionary of chunks. -/
def byChunk (contents : List (Nat × String)) : Dict Int String :=
  Dict.empty.extend (contents.map fun c => ((c.1 : Int), c.2))

theorem textByIndex_contents (contents : List (Nat × String)) :
    textByIndex py (contents.map contentEntry) = .ok (byChunk contents) := by
  have hrows : (contents.map contentEntry).mapM (fun entry => do
      let index ← py.int (Json.get entry "sourceChunkIndex")
      .ok (index, entryDelta py entry)) =
        .ok (contents.map fun c => ((c.1 : Int), c.2)) := by
    rw [List.mapM_map]
    exact mapM_eq_map fun c _ => rfl
  unfold textByIndex
  rw [hrows]
  rfl

section

variable {contents : List (Nat × String)}

theorem nodup_chunks (hsorted : (contents.map Prod.fst).Pairwise (· < ·)) :
    ((contents.map fun c => ((c.1 : Int), c.2)).map Prod.fst).Nodup := by
  rw [List.map_map]
  exact List.pairwise_map.2 ((List.pairwise_map.1 hsorted).imp fun hlt heq =>
    hlt.ne (Int.ofNat.inj heq))

theorem get?_byChunk (hsorted : (contents.map Prod.fst).Pairwise (· < ·)) {c : Nat × String}
    (hc : c ∈ contents) : (byChunk contents).get? (c.1 : Int) = some c.2 :=
  Dict.get?_extend_of_mem (nodup_chunks hsorted) (List.mem_map.2 ⟨c, hc, rfl⟩)

/-- The chunks are already in order. -/
theorem keys_byChunk (hsorted : (contents.map Prod.fst).Pairwise (· < ·)) :
    ((byChunk contents).keys.mergeSort fun a b => decide (a ≤ b)) =
      contents.map fun c => (c.1 : Int) := by
  have hentries : (byChunk contents).entries = contents.map fun c => ((c.1 : Int), c.2) := by
    refine (Dict.entries_extend (nodup_chunks hsorted) fun c _ => ?_).trans (List.nil_append _)
    exact List.not_mem_nil
  have hkeys : (byChunk contents).keys = contents.map fun c => (c.1 : Int) := by
    rw [Dict.keys, hentries, List.map_map]
    rfl
  rw [hkeys]
  refine List.mergeSort_of_pairwise (List.pairwise_map.2 ?_)
  exact (List.pairwise_map.1 hsorted).imp fun hlt => decide_eq_true (by omega)

end

/-- The deltas of the last chunk are found behind the others. -/
theorem deltaAt_last {byIndex : Dict Int String} {front : List (Nat × String)}
    {last : Nat × String} {parser : PlanningTextDeltaParser}
    (hget : ∀ c ∈ front ++ [last], byIndex.get? (c.1 : Int) = some c.2)
    (hne : ∀ c ∈ front, c.1 ≠ last.1) {part : Nat} {delta : PlanningTextDelta}
    (hdelta : ((front.foldl (fun q c => (q.feed c.2).2) parser).feed last.2).1[part]? = some delta) :
    deltaAt byIndex (.int last.1) (.int (part + 1 : Nat)) parser
      ((front ++ [last]).map fun c => (c.1 : Int)) = some delta := by
  induction front generalizing parser with
  | nil =>
    have hlt : part < (parser.feed last.2).1.length := (List.getElem?_eq_some_iff.1 hdelta).1
    have hfound : Json.pyEq (.int (last.1 : Int)) (.int last.1) = true ∧
        1 ≤ ((part + 1 : Nat) : Int) ∧ ((part + 1 : Nat) : Int) ≤ (parser.feed last.2).1.length :=
      ⟨Json.pyEq_int _, by omega, by omega⟩
    have hpart : (((part + 1 : Nat) : Int) - 1).toNat = part := by omega
    simp only [List.nil_append, List.map_cons, List.map_nil, deltaAt, hget last (by simp),
      Option.getD_some]
    rw [if_pos hfound, hpart]
    exact hdelta
  | cons c rest ih =>
    have hc : ¬(Json.pyEq (.int (c.1 : Int)) (.int last.1) = true ∧
        1 ≤ ((part + 1 : Nat) : Int) ∧ ((part + 1 : Nat) : Int) ≤ (parser.feed c.2).1.length) := by
      rintro ⟨heq, -⟩
      rw [Json.pyEq_int_of_ne (fun h => hne c List.mem_cons_self (by omega))] at heq
      cases heq
    simp only [List.cons_append, List.map_cons, deltaAt, hget c (by simp), Option.getD_some]
    rw [if_neg hc]
    exact ih (fun d hd => hget d (List.mem_cons_of_mem c hd))
      (fun d hd => hne d (List.mem_cons_of_mem c hd)) hdelta

variable {scope : PlanningScope}

/-- A draft that names the scope and the attempt of the stream is checked against the contents. -/
theorem validate_own (hscope : p.spec.planningScope = some scope)
    (hplanning : p.planning = true) {events : List AgentOutputEventDraft}
    (hactive : planningActive events scope = true) {draft : AgentOutputEventDraft}
    (hinvocation : draft.invocationId = some p.spec.invocationId)
    (hoperation : Json.get draft.payload "operationId" = .str scope.operationId)
    (hrevision : Json.get draft.payload "revision" = .int scope.revision)
    (hattempt : Json.get draft.payload "attempt" = .int p.spec.planningAttempt)
    (hkey : draft.sourceEventKey = planningSourceKey py draft) :
    validatePlanningProjection py (plainLoads loads) (some p.spec) events draft =
      if draft.kind = .planningDelta then
        validatePlanningDelta py (contentEntries events (some p.spec.invocationId)) draft.payload
      else
        validatePlanningProgress py (plainLoads loads)
          (contentEntries events (some p.spec.invocationId)) draft.payload := by
  have hprotocol : ¬p.spec.outputProtocol ≠ some planningStreamSchema := by
    simpa [planning] using hplanning
  have hmatches : ¬(Json.pyEq (Json.get draft.payload "operationId") (.str scope.operationId) = false ∨
      Json.pyEq (Json.get draft.payload "revision") (.int scope.revision) = false ∨
      Json.pyEq (Json.get draft.payload "attempt") (.int p.spec.planningAttempt) = false ∨
      draft.sourceEventKey ≠ planningSourceKey py draft) := by
    rw [hoperation, hrevision, hattempt, Json.pyEq_str, Json.pyEq_int, Json.pyEq_int]
    simpa using hkey
  simp only [validatePlanningProjection, if_neg hprotocol, hscope, if_neg hmatches, hactive,
    hinvocation]
  rfl

/-- **A text delta** of the last content is found in the contents. -/
theorem storable_delta (hscope : p.spec.planningScope = some scope)
    (hplanning : p.planning = true) {front : List (Nat × String)} {last : Nat × String}
    (hsorted : ((front ++ [last]).map Prod.fst).Pairwise (· < ·)) (now : Int)
    {delta : PlanningTextDelta × Nat}
    (hdelta : delta ∈ ((parserAfter front).feed last.2).1.zipIdx 1) :
    Storable p loads py (front ++ [last]) (p.deltaDraft scope last.1 now delta) := by
  intro events hentries hactive
  obtain ⟨part, hpart, hfound⟩ : ∃ part, delta.2 = part + 1 ∧
      ((parserAfter front).feed last.2).1[part]? = some delta.1 := by
    obtain ⟨hle, hget⟩ := List.mk_mem_zipIdx_iff_le_and_getElem?_sub.1 hdelta
    exact ⟨delta.2 - 1, by omega, hget⟩
  have hne : ∀ c ∈ front, c.1 ≠ last.1 := by
    intro c hc heq
    rw [List.map_append] at hsorted
    have hlt := (List.pairwise_append.1 hsorted).2.2 c.1 (List.mem_map_of_mem hc) last.1
      (List.mem_singleton_self _)
    omega
  have hat := deltaAt_last (fun c hc => get?_byChunk hsorted hc) hne hfound
  have hindex : Json.get (p.deltaDraft scope last.1 now delta).payload "sourceChunkIndex" =
    .int last.1 := rfl
  have hnumber : Json.get (p.deltaDraft scope last.1 now delta).payload "sourcePartIndex" =
    .int delta.2 := rfl
  have htext : Json.get (p.deltaDraft scope last.1 now delta).payload "textDelta" =
    .str delta.1.text := rfl
  have hrecord : Json.get (p.deltaDraft scope last.1 now delta).payload "recordIndex" =
    .int delta.1.recordIndex := rfl
  rw [validate_own hscope hplanning (hactive scope hscope) rfl rfl rfl rfl rfl]
  show validatePlanningDelta py _ _ = .ok ()
  unfold validatePlanningDelta
  rw [hentries, textByIndex_contents, hindex, hnumber, htext, hrecord, hpart]
  simp only [ok_bind, keys_byChunk hsorted, hat, Json.pyEq_str, Json.pyEq_int]
  rfl

theorem join_toList (texts : List String) : (String.join texts).toList = texts.flatMap String.toList := by
  induction texts with
  | nil => rfl
  | cons text rest ih => rw [String.join_cons, String.toList_append, ih, List.flatMap_cons]

/-- **A progress record** of a text is found in its contents. -/
theorem storable_record (hscope : p.spec.planningScope = some scope)
    (hplanning : p.planning = true) {r : PlanningProgress} (now : Int)
    (h : Recorded loads (rawText chunks) r) :
    Storable p loads py (contents chunks) (p.recordDraft scope r now) := by
  intro events hentries hactive
  have hraw : (String.join ((contentEntries events (some p.spec.invocationId)).map
      (entryDelta py))).toList = rawText chunks := by
    rw [hentries, join_toList, List.map_map, List.flatMap_map, ← join_contents]
    rfl
  obtain ⟨front, back, hsplit, hsize, earlier, hrecords, hbefore⟩ := h.found
  have hstart : Json.get (p.recordDraft scope r now).payload "sourceStart" = .int r.sourceStart := rfl
  have hend : Json.get (p.recordDraft scope r now).payload "sourceEnd" = .int r.sourceEnd := rfl
  have hindex : Json.get (p.recordDraft scope r now).payload "recordIndex" = .int r.recordIndex := rfl
  have hspan : ¬¬(0 ≤ (r.sourceStart : Int) ∧ (r.sourceStart : Int) < r.sourceEnd ∧
      (r.sourceEnd : Int) ≤ (String.join ((contentEntries events (some p.spec.invocationId)).map
        (entryDelta py))).utf8ByteSize) := by
    have hlt := h.span
    have hbytes : byteSize (rawText chunks) = byteSize front + byteSize back := by
      rw [hsplit, byteSize_append]
    rw [← byteSize_toList, hraw]
    omega
  have hfind : (earlier ++ [r]).find? (fun record =>
      Json.pyEq (.int record.recordIndex) (.int r.recordIndex)) = some r := by
    have hnone : earlier.find? (fun record =>
        Json.pyEq (.int record.recordIndex) (.int r.recordIndex)) = none := by
      refine List.find?_eq_none.2 fun e he => ?_
      have hlt := hbefore e he
      rw [Json.pyEq_int_of_ne (by omega)]
      exact Bool.false_ne_true
    rw [List.find?_append, hnone, Option.none_or, List.find?_cons, Json.pyEq_int]
  have hmapping : r.toMapping.any (fun field =>
      !Json.pyEq (Json.get (p.recordDraft scope r now).payload field.1) field.2) = false := by
    have htext : Json.get (p.recordDraft scope r now).payload "text" = .str r.text := rfl
    simp only [PlanningProgress.toMapping, List.any_cons, List.any_nil, htext, hindex, hstart, hend,
      Json.pyEq_str, Json.pyEq_int, Bool.not_true, Bool.or_self]
  have hkind : (p.recordDraft scope r now).kind ≠ .planningDelta := by
    intro h
    cases h
  rw [validate_own hscope hplanning (hactive scope hscope) rfl rfl rfl rfl rfl, if_neg hkind]
  unfold validatePlanningProgress
  have htake : takeBytes r.sourceEnd (rawText chunks) = some front := by
    rw [hsplit, ← hsize, takeBytes_append]
  simp only [hstart, hend, hindex, if_neg hspan, Int.toNat_natCast, hraw, htake, hrecords, hfind,
    hmapping]
  rfl

/-! ## The journal -/

/-- What another producer journals, and what is journalled beside the stream's batches, leaves
the operation active. -/
theorem planningActive_append {events more : List AgentOutputEventDraft}
    (hmore : ∀ event ∈ more, isStage scope event = false) :
    planningActive (events ++ more) scope = planningActive events scope := by
  have hnone : more.filter (isStage scope) = [] :=
    List.filter_eq_nil_iff.2 fun event hevent => by simp [hmore event hevent]
  unfold isStage at hnone
  unfold planningActive
  rw [List.filter_append, hnone, List.append_nil]

theorem isStage_of_kind {event : AgentOutputEventDraft}
    (h : event.kind.isOperation = false) : isStage scope event = false := by
  rw [isStage, h, Bool.and_false]

/-- A journal in which every planning event of the stream has passed the check. -/
structure Checked (p : Processor) (loads : String → Except PyError PyJson) (py : Builtins)
    (journal : List AgentOutputEventDraft) : Prop where
  sorted : Sorted p journal
  active : ∀ scope, p.spec.planningScope = some scope → planningActive journal scope = true
  valid : ∀ front draft back, journal = front ++ draft :: back → p.isProjection draft = true →
    validatePlanningProjection py (plainLoads loads) (some p.spec) front draft = .ok ()

/-- What a journal may be continued with: one draft that is no projection, or that is checked. -/
theorem Checked.append {journal : List AgentOutputEventDraft} (h : Checked p loads py journal)
    {draft : AgentOutputEventDraft}
    (hsorted : (draft.kind = .providerDeltaBatch && draft.invocationId = some p.spec.invocationId) =
      p.isBatch draft)
    (hstage : ∀ scope, p.spec.planningScope = some scope → isStage scope draft = false)
    (hvalid : p.isProjection draft = true →
      validatePlanningProjection py (plainLoads loads) (some p.spec) journal draft = .ok ()) :
    Checked p loads py (journal ++ [draft]) where
  sorted := by
    intro d hd
    rcases List.mem_append.1 hd with hd | hd
    · exact h.sorted d hd
    · rw [List.mem_singleton.1 hd]
      exact hsorted
  active := by
    intro scope hscope
    rw [planningActive_append]
    · exact h.active scope hscope
    · intro event hevent
      rw [List.mem_singleton.1 hevent]
      exact hstage scope hscope
  valid := by
    intro front d back hsplit hown
    rcases List.eq_nil_or_concat back with rfl | ⟨back, last, rfl⟩
    · obtain ⟨rfl, hd⟩ := List.append_inj' hsplit rfl
      rw [← List.head_eq_of_cons_eq hd] at hown ⊢
      exact hvalid hown
    · rw [List.concat_eq_append, ← List.cons_append, ← List.append_assoc] at hsplit
      obtain ⟨hfront, -⟩ := List.append_inj' hsplit rfl
      exact h.valid front d back hfront hown

theorem Checked.appendAll {journal drafts : List AgentOutputEventDraft}
    (h : Checked p loads py journal)
    (hsorted : ∀ draft ∈ drafts, (draft.kind = .providerDeltaBatch &&
      draft.invocationId = some p.spec.invocationId) = p.isBatch draft)
    (hstage : ∀ draft ∈ drafts, ∀ scope, p.spec.planningScope = some scope →
      isStage scope draft = false)
    (hvalid : ∀ draft ∈ drafts, p.isProjection draft = false) :
    Checked p loads py (journal ++ drafts) := by
  induction drafts generalizing journal with
  | nil => rwa [List.append_nil]
  | cons draft rest ih =>
    have hhead : Checked p loads py (journal ++ [draft]) := by
      refine h.append (hsorted draft List.mem_cons_self) (hstage draft List.mem_cons_self) fun hown => ?_
      rw [hvalid draft List.mem_cons_self] at hown
      cases hown
    have hrest := ih hhead (fun d hd => hsorted d (List.mem_cons_of_mem draft hd))
      (fun d hd => hstage d (List.mem_cons_of_mem draft hd))
      (fun d hd => hvalid d (List.mem_cons_of_mem draft hd))
    rwa [List.append_assoc, List.singleton_append] at hrest

/-- Batches of the stream go to a checked journal. -/
theorem Checked.flush (h : Checked p loads py stream.journal) :
    Checked p loads py (p.flushLocked stream).journal := by
  unfold flushLocked
  split
  · exact h
  · refine h.appendAll ?_ ?_ ?_
    all_goals
      intro draft hdraft
      obtain ⟨group, -, rfl⟩ := List.mem_map.1 hdraft
    · simp [isBatch, batchDraft]
    · exact fun scope _ => isStage_of_kind rfl
    · simp [isProjection, batchDraft, OutputEventKind.isPlanning]

/-! ## The invariant -/

/-- What the record parser has still to read. -/
def unread (tasks : List LiveTask) : List Char :=
  tasks.flatMap fun
    | .accept chunk => chunk.contentDelta.toList
    | _ => []

/-- What a task appends is storable by the time it is done. -/
def TaskReady (p : Processor) (loads : String → Except PyError PyJson) (py : Builtins)
    (chunks : List (ModelStreamChunk × Int)) (stream : LiveStream) : LiveTask → Prop
  | .append draft => draft.kind ≠ .providerDeltaBatch ∧ draft.kind.isOperation = false ∧
      (p.isProjection draft = true →
        stream.entries = [] ∧ Storable p loads py (contents chunks) draft)
  | .progress record => p.planning = true ∧ Recorded loads (rawText chunks) record
  | .accept _ | .finish => True

/-- The invariant of a planning stream, for the chunks accepted so far. -/
structure Live (p : Processor) (loads : String → Except PyError PyJson) (py : Builtins)
    (chunks : List (ModelStreamChunk × Int)) (s : LivePlanning)
    (groups : List ((OutputChannel × OutputVisibility) × List PendingProviderDelta)) : Prop where
  buffered : Buffered p chunks s.stream groups
  checked : Checked p loads py s.stream.journal
  parser : p.planning = true → p.spec.planningScope.isSome = true →
    s.stream.parser = parserAfter (contents chunks)
  read : s.isOver = false → p.planning = true → ∃ text progress,
    PlanningStreamParser.readChars loads {} text = some (progress, s.records) ∧
      rawText chunks = text ++ unread s.tasks
  tasks : ∀ task ∈ s.tasks, TaskReady p loads py chunks s.stream task

/-- The stream stops. -/
theorem Live.stop (h : Live p loads py chunks s groups) (hstream : s'.stream = s.stream)
    (hover : s'.isOver = true) (htasks : ∀ task ∈ s'.tasks, task ∈ s.tasks) :
    Live p loads py chunks s' groups where
  buffered := hstream ▸ h.buffered
  checked := hstream ▸ h.checked
  parser := hstream ▸ h.parser
  read := fun hopen => by
    rw [hover] at hopen
    cases hopen
  tasks := fun task htask => hstream ▸ h.tasks task (htasks task htask)

theorem parser_flushLocked (stream : LiveStream) : (p.flushLocked stream).parser = stream.parser := by
  unfold flushLocked
  split <;> rfl

theorem TaskReady.of_entries {stream' : LiveStream} {task : LiveTask}
    (h : TaskReady p loads py chunks stream task) (hentries : stream.entries = [] → stream'.entries = []) :
    TaskReady p loads py chunks stream' task := by
  cases task with
  | append draft => exact ⟨h.1, h.2.1, fun hown => ⟨hentries (h.2.2 hown).1, (h.2.2 hown).2⟩⟩
  | progress record => exact h
  | accept chunk => exact h
  | finish => exact h

/-- **Flushing.** -/
theorem Live.flush (h : Live p loads py chunks s groups) :
    Live p loads py chunks { s with stream := p.flushLocked s.stream }
      (groups ++ flushed s.stream.entries) where
  buffered := h.buffered.flush
  checked := h.checked.flush
  parser := fun hplanning hscope => (parser_flushLocked s.stream).trans (h.parser hplanning hscope)
  read := h.read
  tasks := fun task htask => (h.tasks task htask).of_entries fun _ => flushLocked_entries s.stream

/-- **Appending** an event that is no batch. -/
theorem Live.appendDraft (h : Live p loads py chunks s groups) (draft : AgentOutputEventDraft)
    (hbatch : p.isOwnBatch draft = false)
    (hstage : ∀ scope, p.spec.planningScope = some scope → isStage scope draft = false)
    (hvalid : p.isProjection draft = true →
      s.stream.entries = [] ∧ Storable p loads py (contents chunks) draft) :
    Live p loads py chunks { s with stream := Processor.appendAll [draft] s.stream } groups where
  buffered := by
    refine h.buffered.appendAll fun d hd => ?_
    rw [List.mem_singleton.1 hd]
    unfold isOwnBatch at hbatch
    unfold isBatch
    cases hkind : decide (draft.kind = .providerDeltaBatch) <;> simp_all
  checked := by
    refine h.checked.append ?_ hstage fun hown => ?_
    · unfold isOwnBatch at hbatch
      unfold isBatch
      cases hkind : decide (draft.kind = .providerDeltaBatch) <;> simp_all
    · obtain ⟨hentries, hstorable⟩ := hvalid hown
      exact hstorable _ (contentEntries_batches h.buffered hentries h.checked.sorted) h.checked.active
  parser := h.parser
  read := h.read
  tasks := fun task htask => (h.tasks task htask).of_entries id

/-- Tasks that are dropped need not be done. -/
theorem Live.tail (h : Live p loads py chunks s groups) {task : LiveTask} {rest : List LiveTask}
    (htasks : s.tasks = task :: rest) (hread : unread [task] = []) :
    Live p loads py chunks { s with tasks := rest } groups where
  buffered := h.buffered
  checked := h.checked
  parser := h.parser
  read := fun hopen hplanning => by
    obtain ⟨text, progress, htext, hraw⟩ := h.read hopen hplanning
    refine ⟨text, progress, htext, ?_⟩
    have hunread : unread (task :: rest) = unread rest := by
      rw [← List.singleton_append, unread, List.flatMap_append]
      show unread [task] ++ unread rest = unread rest
      rw [hread, List.nil_append]
    rw [hraw, htasks, hunread]
  tasks := fun other hother => h.tasks other (htasks ▸ List.mem_cons_of_mem task hother)

/-! ## Steps -/

/-- Previews are flushed; otherwise pending deltas may stay. -/
theorem settle_cases (stream : LiveStream) (chunk : ModelStreamChunk) (previews : Bool) :
    (p.settle stream chunk previews).parser = stream.parser ∧
    ((p.settle stream chunk previews).journal = stream.journal ∨
      p.settle stream chunk previews = p.flushLocked stream) ∧
    (previews = true → (p.settle stream chunk previews).entries = []) := by
  unfold settle
  split
  · exact ⟨parser_flushLocked stream, .inr rfl, fun _ => flushLocked_entries stream⟩
  · next hkeep =>
    have hpreviews : previews = true → False := fun h => hkeep (.inl h)
    split
    · exact ⟨rfl, .inl rfl, fun h => (hpreviews h).elim⟩
    · exact ⟨rfl, .inl rfl, fun h => (hpreviews h).elim⟩

/-- The parser behind a chunk. -/
theorem parser_feedPlanning (now : Int)
    (hplanning : p.planning = true) (hscope : p.spec.planningScope.isSome = true)
    (h : stream.parser = parserAfter (contents chunks)) :
    (p.feedPlanning stream.parser chunk).2 = parserAfter (contents (chunks ++ [(chunk, now)])) := by
  have hsource : (p.planningSource chunk).isSome = decide (chunk.contentDelta ≠ "") := by
    unfold planningSource
    by_cases hempty : chunk.contentDelta = "" <;> simp [hplanning, hscope, hempty]
  rw [feedPlanning, hsource, contents_append, h]
  by_cases hempty : chunk.contentDelta = ""
  · simp [hempty]
  · simp [hempty, parserAfter]

/-- What is appended behind the batches of a chunk. -/
theorem ready_chunkDrafts {stream' : LiveStream} {allowed : Bool}
    (now : Int) (hindex : stream.chunkIndex = chunks.length)
    (hparser : p.planning = true → p.spec.planningScope.isSome = true →
      stream.parser = parserAfter (contents chunks))
    (hentries : (p.feedPlanning stream.parser chunk).1 ≠ [] → stream'.entries = [])
    {draft : AgentOutputEventDraft}
    (hdraft : draft ∈ p.chunkDrafts chunk allowed (p.feedPlanning stream.parser chunk).1
      (stream.chunkIndex + 1) now) :
    TaskReady p loads py (chunks ++ [(chunk, now)]) stream' (.append draft) := by
  have hother : ∀ kind : OutputEventKind, kind ≠ .providerDeltaBatch → kind.isOperation = false →
      kind.isPlanning = false → draft.kind = kind →
      TaskReady p loads py (chunks ++ [(chunk, now)]) stream' (.append draft) := by
    rintro kind hbatch hoperation hplanning rfl
    refine ⟨hbatch, hoperation, fun hown => ?_⟩
    rw [isProjection, hplanning, Bool.false_and] at hown
    cases hown
  unfold chunkDrafts at hdraft
  rcases List.mem_append.1 hdraft with hdraft | hdraft
  · rcases List.mem_append.1 hdraft with hdraft | hdraft
    · unfold deltaDrafts at hdraft
      split at hdraft
      · next scope hsource =>
        split at hdraft
        · obtain ⟨delta, hdelta, rfl⟩ := List.mem_map.1 hdraft
          have hfeed : p.feedPlanning stream.parser chunk = stream.parser.feed chunk.contentDelta := by
            rw [feedPlanning, if_pos (by rw [hsource]; rfl)]
          unfold planningSource at hsource
          split at hsource
          · next hpresent =>
            obtain ⟨hplanning, hcontent⟩ := hpresent
            have hne : (p.feedPlanning stream.parser chunk).1 ≠ [] := by
              intro hnil
              rw [hnil] at hdelta
              cases hdelta
            have hscope : p.spec.planningScope.isSome = true := by rw [hsource]; rfl
            have hsorted := (contents_sorted (chunks ++ [(chunk, now)])).1
            have hcontents : contents (chunks ++ [(chunk, now)]) =
                contents chunks ++ [(chunks.length + 1, chunk.contentDelta)] := by
              rw [contents_append, if_neg hcontent]
            rw [hcontents] at hsorted
            rw [hfeed, hparser hplanning hscope] at hdelta
            refine ⟨by simp [deltaDraft, Processor.draft], rfl, fun _ => ⟨hentries hne, ?_⟩⟩
            rw [hcontents, hindex]
            exact storable_delta hsource hplanning hsorted now hdelta
          · cases hsource
        · cases hdraft
      · cases hdraft
    · obtain ⟨usage, -, rfl⟩ := Option.map_eq_some_iff.1 (Option.mem_toList.1 hdraft)
      exact hother .providerUsage (by decide) rfl rfl rfl
  · split at hdraft
    · obtain rfl := List.mem_singleton.1 hdraft
      exact hother .agentProgress (by decide) rfl rfl rfl
    · cases hdraft

/-- **A chunk is taken**; its deltas are left as tasks, and the record parser's turn is last. -/
theorem Live.receive (h : Live p loads py chunks s groups) (htasks : s.tasks = [])
    (content : PyStr) (rest : ModelStreamChunk) (allowed : Bool) (now : Int) :
    ∃ chunks' groups', Live p loads py chunks' (p.receive s content rest allowed now) groups' := by
  unfold Processor.receive
  split
  · exact ⟨chunks, groups, h.stop rfl rfl fun _ ht => ht⟩
  · dsimp only
    split
    · next authorized hauthorized =>
      clear hauthorized
      obtain ⟨hparser, hjournal, hentries⟩ := settle_cases (p := p)
        { p.append s.stream authorized now with
          parser := (p.feedPlanning s.stream.parser authorized).2 } authorized
        (decide ((p.feedPlanning s.stream.parser authorized).1 ≠ []))
      have hpending : Buffered p (chunks ++ [(authorized, now)])
          { p.append s.stream authorized now with
            parser := (p.feedPlanning s.stream.parser authorized).2 } groups :=
        h.buffered.append authorized now rfl rfl rfl
      obtain ⟨groups', hbuffered⟩ := hpending.settle authorized
        (decide ((p.feedPlanning s.stream.parser authorized).1 ≠ []))
      refine ⟨chunks ++ [(authorized, now)], groups', ⟨hbuffered, ?_, ?_, ?_, ?_⟩⟩
      · have hchecked : Checked p loads py (p.append s.stream authorized now).journal := h.checked
        rcases hjournal with hjournal | hflush
        · rw [hjournal]
          exact hchecked
        · rw [hflush]
          have hstream : Checked p loads py
              { p.append s.stream authorized now with
                parser := (p.feedPlanning s.stream.parser authorized).2 }.journal := hchecked
          exact hstream.flush
      · intro hplanning hscope
        exact hparser.trans (parser_feedPlanning now hplanning hscope (h.parser hplanning hscope))
      · intro hopen hplanning
        obtain ⟨text, progress, htext, hraw⟩ := h.read hopen hplanning
        refine ⟨text, progress, htext, ?_⟩
        rw [htasks] at hraw
        have hdrafts : ∀ drafts : List AgentOutputEventDraft, unread (drafts.map .append) = [] := by
          intro drafts
          simp [unread, List.flatMap_map]
        rw [rawText_append, hraw, unread, unread, List.flatMap_append]
        show text ++ [] ++ authorized.contentDelta.toList =
          text ++ (unread (List.map _ _) ++ unread [.accept authorized])
        rw [hdrafts]
        simp [unread]
      · intro task htask
        rcases List.mem_append.1 htask with htask | htask
        · obtain ⟨draft, hdraft, rfl⟩ := List.mem_map.1 htask
          exact ready_chunkDrafts now h.buffered.index h.parser
            (fun hne => hentries (decide_eq_true hne)) hdraft
        · rw [List.mem_singleton.1 htask]
          trivial
    · exact ⟨chunks, groups, h.stop rfl rfl fun _ ht => ht⟩

/-- **The record parser takes its turn**: the records it finds are left as tasks. -/
theorem Live.acceptChunk (h : Live p loads py chunks s groups) (hopen : s.isOver = false)
    (hplanning : p.planning = true) {rest : List LiveTask}
    (htasks : s.tasks = .accept chunk :: rest) {progress : List PlanningProgress}
    {records : PlanningStreamParser}
    (hfeed : s.records.feed loads (PyStr.ofChars chunk.contentDelta.toList) =
      (.ok progress, records)) :
    Live p loads py chunks { s with
      records
      tasks := p.progressTasks progress ++
        (if chunk.finishReason.isSome then [.finish] else []) ++ rest } groups := by
  obtain ⟨text, earlier, htext, hraw⟩ := h.read hopen hplanning
  have hstarted := PlanningStreamParser.readChars_open PlanningStreamParser.open_initial htext
  have hnext : PlanningStreamParser.readChars loads s.records chunk.contentDelta.toList =
      some (progress, records) := by
    have hfed : PlanningStreamParser.fed loads s.records
          (PyStr.ofChars chunk.contentDelta.toList) = _ :=
      PlanningStreamParser.fed_eq hstarted (PyStr.ofChars chunk.contentDelta.toList)
    rw [PlanningStreamParser.fed, hfeed, PyStr.chars?_ofChars] at hfed
    exact hfed.symm
  have hwhole : PlanningStreamParser.readChars loads {} (text ++ chunk.contentDelta.toList) =
      some (earlier ++ progress, records) := by
    rw [PlanningStreamParser.readChars_append, htext, Option.bind_some, hnext]
    rfl
  have hunread : unread s.tasks = chunk.contentDelta.toList ++ unread rest := by
    rw [htasks, unread, List.flatMap_cons]
    rfl
  have hprogress : unread (p.progressTasks progress ++
      (if chunk.finishReason.isSome then [.finish] else []) ++ rest) = unread rest := by
    have hrecords : unread (p.progressTasks progress) = [] := by
      unfold progressTasks
      split
      · simp [unread, List.flatMap_map]
      · rfl
    have hfinish : unread (if chunk.finishReason.isSome then [.finish] else []) = [] := by
      split <;> rfl
    unfold unread at hrecords hfinish ⊢
    rw [List.flatMap_append, List.flatMap_append, hrecords, hfinish]
    rfl
  refine ⟨h.buffered, h.checked, h.parser, fun _ _ => ?_, fun task htask => ?_⟩
  · refine ⟨text ++ chunk.contentDelta.toList, earlier ++ progress, hwhole, ?_⟩
    rw [hraw, hunread, List.append_assoc, hprogress]
  · rcases List.mem_append.1 htask with htask | htask
    · rcases List.mem_append.1 htask with htask | htask
      · unfold progressTasks at htask
        split at htask
        · obtain ⟨record, hrecord, rfl⟩ := List.mem_map.1 htask
          refine ⟨hplanning, ?_⟩
          rw [hraw, hunread, ← List.append_assoc]
          exact (recorded_of_read hwhole (List.mem_append_right _ hrecord)).append _
        · cases htask
      · split at htask
        · rw [List.mem_singleton.1 htask]
          trivial
        · cases htask
    · exact h.tasks task (htasks ▸ List.mem_cons_of_mem _ htask)

/-- **A task is done.** -/
theorem Live.perform (h : Live p loads py chunks s groups) (hopen : s.isOver = false) (allowed : Bool)
    (now : Int) :
    ∃ groups', Live p loads py chunks (p.perform loads s allowed now) groups' := by
  unfold Processor.perform
  split
  · exact ⟨groups, h⟩
  · next draft rest htasks =>
    obtain ⟨hbatch, hoperation, hvalid⟩ := h.tasks _ (htasks ▸ List.mem_cons_self)
    have hdraft : Live p loads py chunks
        { s with stream := Processor.appendAll [draft] s.stream } groups :=
      h.appendDraft _ (by simp [isOwnBatch, hbatch]) (fun _ _ => isStage_of_kind hoperation) hvalid
    exact ⟨groups, hdraft.tail htasks rfl⟩
  · next chunk rest htasks =>
    by_cases hplanning : p.planning = false
    · rw [if_pos hplanning]
      refine ⟨groups, h.buffered, h.checked, h.parser, fun _ hp => ?_, fun task htask => ?_⟩
      · rw [hplanning] at hp
        cases hp
      · exact h.tasks task (htasks ▸ List.mem_cons_of_mem _ htask)
    · rw [if_neg hplanning]
      by_cases hcalls : chunk.toolCallDeltas ≠ []
      · rw [if_pos hcalls]
        exact ⟨groups, h.stop rfl rfl fun _ ht => by cases ht⟩
      · rw [if_neg hcalls]
        split
        · next progress records hfeed =>
          exact ⟨groups, h.acceptChunk hopen (Bool.not_eq_false _ ▸ hplanning) htasks hfeed⟩
        · exact ⟨groups, h.stop rfl rfl fun _ ht => by cases ht⟩
  · next record rest htasks =>
    obtain ⟨hplanning, hrecord⟩ := h.tasks _ (htasks ▸ List.mem_cons_self)
    split
    · exact ⟨groups, h.stop rfl rfl fun _ ht => by cases ht⟩
    · next scope hscope =>
      split
      · have hdraft := h.flush.appendDraft (p.recordDraft scope record now)
          (by simp [isOwnBatch, recordDraft, draft])
          (fun _ _ => isStage_of_kind rfl)
          (fun _ => ⟨flushLocked_entries s.stream, storable_record hscope hplanning now hrecord⟩)
        exact ⟨_, hdraft.tail htasks rfl⟩
      · exact ⟨groups, h.tail htasks rfl⟩
  · exact ⟨groups, h.stop rfl rfl fun _ ht => by cases ht⟩

/-- **Every action** keeps the invariant. -/
theorem live_step {action : LiveAction} (hothers : p.Undisturbed action)
    (h : Live p loads py chunks s groups) :
    ∃ chunks' groups', Live p loads py chunks' (p.liveStep loads s action) groups' := by
  cases action with
  | chunk content rest allowed now =>
    dsimp only [liveStep]
    by_cases hbusy : s.isOver = true ∨ s.tasks.isEmpty = false
    · rw [if_pos hbusy]
      exact ⟨chunks, groups, h⟩
    · rw [if_neg hbusy]
      have htasks : s.tasks = [] := by
        rw [not_or, Bool.not_eq_false, List.isEmpty_iff] at hbusy
        exact hbusy.2
      exact h.receive htasks content rest allowed now
  | task allowed now =>
    dsimp only [liveStep]
    by_cases hover : s.isOver = true
    · rw [if_pos hover]
      exact ⟨chunks, groups, h⟩
    · rw [if_neg hover]
      exact ⟨chunks, h.perform (Bool.eq_false_iff.2 hover) allowed now⟩
  | flush => exact ⟨chunks, _, h.flush⟩
  | other draft =>
    refine ⟨chunks, groups, h.appendDraft _ hothers.batch hothers.stage fun hown => ?_⟩
    rw [hothers.projection] at hown
    cases hown
  | stop => exact ⟨chunks, groups, h.stop rfl rfl fun _ ht => by cases ht⟩

/-- **Every run** keeps the invariant. -/
theorem live_run {actions : List LiveAction} (hothers : ∀ action ∈ actions, p.Undisturbed action)
    (h : Live p loads py chunks s groups) :
    ∃ chunks' groups', Live p loads py chunks' (exec (p.liveStep loads) s actions) groups' := by
  induction actions generalizing chunks s groups with
  | nil => exact ⟨chunks, groups, h⟩
  | cons action rest ih =>
    obtain ⟨chunks', groups', hstep⟩ := live_step (hothers action List.mem_cons_self) h
    exact ih (fun a ha => hothers a (List.mem_cons_of_mem action ha)) hstep

/-- A stream that is opened. -/
theorem live_initial {history : List AgentOutputEventDraft} (h : p.Ready history) :
    Live p loads py [] { stream := { journal := history } } [] where
  buffered := by
    refine buffered_initial.of_eq rfl rfl ?_
    have hnone : p.batches history = [] := by
      refine List.filter_eq_nil_iff.2 fun draft hdraft hbatch => ?_
      have hown := h.batch draft hdraft
      unfold isBatch at hbatch
      unfold isOwnBatch at hown
      simp_all
    exact hnone
  checked := {
    sorted := by
      intro draft hdraft
      have hown := h.batch draft hdraft
      unfold isOwnBatch at hown
      unfold isBatch
      cases hkind : decide (draft.kind = .providerDeltaBatch) <;> simp_all
    active := h.active
    valid := by
      rintro front draft back rfl hown
      rw [h.projection draft (by simp)] at hown
      cases hown }
  parser := fun _ _ => rfl
  read := fun _ _ => ⟨[], [], PlanningStreamParser.readChars_nil PlanningStreamParser.open_initial, rfl⟩
  tasks := fun task htask => by cases htask

/-- **Live planning output is storable.**  Whatever the Provider sends and however it is cut into
chunks, whatever the output policy lets be shown, and whenever the stream is flushed or
stopped, every planning event of the stream in the journal has passed the journal's check
against the events before it.  The operation of the stream's scope runs all the while, and
other producers journal nothing in the stream's name. -/
theorem live_planning_storable (p : Processor) (loads : String → Except PyError PyJson) (py : Builtins)
    {history : List AgentOutputEventDraft} (hready : p.Ready history) (actions : List LiveAction)
    (hothers : ∀ action ∈ actions, p.Undisturbed action) :
    ∀ front draft back,
      (exec (p.liveStep loads) { stream := { journal := history } } actions).stream.journal =
        front ++ draft :: back →
      p.isProjection draft = true →
      validatePlanningProjection py (plainLoads loads) (some p.spec) front draft = .ok () := by
  obtain ⟨chunks, groups, hlive⟩ := live_run hothers (live_initial hready)
  exact hlive.checked.valid

/-- A progress record that comes in two chunks, while a revision is planned. -/
theorem live_planning_storable_example :
    let p : Processor := {
      canonical := ⟨fun _ => 1, fun _ => "digest"⟩
      spec := { outputStreamId := "s", runId := "r", turnId := none, invocationId := "i",
                intent := .structuredPrivate, commitMode := .privateMode,
                outputProtocol := some planningStreamSchema,
                planningScope := some ⟨"r", "o", 0⟩, planningAttempt := 1 } }
    let loads : String → Except PyError PyJson := fun _ =>
      .ok (.obj [(PyStr.ofChars ['v'], .int 1),
        (PyStr.ofChars "type".toList, .str (PyStr.ofChars "progress".toList)),
        (PyStr.ofChars "text".toList, .str (PyStr.ofChars ['a', 'b']))])
    let started : AgentOutputEventDraft := {
      runId := "r", turnId := none, outputStreamId := none, invocationId := none,
      sourceEventKey := "operation:o:started", source := .runtime, kind := .operationStarted,
      channel := .operation, visibility := .publicEvent,
      payload := [("operationId", .str "o"), ("kind", .str "planning")], occurredAt := 0 }
    let actions : List LiveAction :=
      [.chunk (PyStr.ofChars (PlanningTextDeltaParser.header ++ ['a'])) {} true 1, .task true 1,
        .task true 1, .chunk (PyStr.ofChars ['b', '"', '\x7d', '\n']) {} true 2, .task true 2,
        .task true 2, .task true 3]
    ∀ front draft back,
      (exec (p.liveStep loads) { stream := { journal := [started] } } actions).stream.journal =
        front ++ draft :: back →
      p.isProjection draft = true →
      validatePlanningProjection ⟨fun _ => "", fun _ => .ok 0⟩ (plainLoads loads) (some p.spec) front
        draft = .ok () := by
  intro p loads started actions
  have hready : p.Ready [started] := {
    batch := fun draft hdraft => by rw [List.mem_singleton.1 hdraft]; decide
    projection := fun draft hdraft => by rw [List.mem_singleton.1 hdraft]; decide
    active := fun scope hscope => by cases hscope; decide }
  exact live_planning_storable p loads _ hready actions (by simp [actions, Undisturbed])

end Processor

end Purra.Output
