import Purra.Checkpoints.Messages
import Purra.Lib.Sequence
import Purra.Output.Buffering

/-!
# Accumulating a model round

`_ToolCallParts` and `ModelRoundAccumulator` of `purra/runtime/model_round.py`: the chunks of a
model's stream are gathered, and the tool calls are put together from the deltas of their indexes.

* `ToolCallParts.take` — what one delta does to the parts of its call.
* `ModelRoundAccumulator.add`, `.toolCalls` — the methods.
* `Refragments` — two sequences of deltas of one call that differ in where their arguments are cut.
* `toolCalls_eq` — **how the deltas of different calls are interleaved, grouped and cut is all
  one**.
* `accepted_calls` — what holds of calls that are accepted.
-/

namespace Purra.Runtime

open Purra.Output Purra.Contracts

/-! ## The accumulator -/

/-- `_ToolCallParts`. -/
structure ToolCallParts where
  id : String := ""
  name : String := ""
  argumentFragments : List String := []
  deriving DecidableEq, Repr

namespace ToolCallParts

/-- `arguments`. -/
def arguments (parts : ToolCallParts) : String := String.join parts.argumentFragments

/-- `add_arguments`. -/
def addArguments (parts : ToolCallParts) (fragment : String) : ToolCallParts :=
  if fragment = "" then parts
  else { parts with argumentFragments := parts.argumentFragments ++ [fragment] }

/-- A text that a delta gives differs from the one that is known. -/
def differs (current : String) (given : Option String) : Bool :=
  given.any fun text => current ≠ "" ∧ strip text ≠ current

/-- The text that is known behind a delta. -/
def told (current : String) (given : Option String) : String :=
  match given with
  | none => current
  | some text => if current ≠ "" ∧ strip text ≠ current then current else strip text

/-- The parts behind a delta. -/
def take (parts : ToolCallParts) (delta : ToolCallDelta) : ToolCallParts :=
  { parts with id := told parts.id delta.id, name := told parts.name delta.name }.addArguments
    delta.argumentsFragment

/-- Why the parts do not go with a delta. -/
def conflict (parts : ToolCallParts) (delta : ToolCallDelta) : Option String :=
  if differs parts.name delta.name then some "conflicting_tool_name_for_index"
  else if differs parts.id delta.id then some "conflicting_tool_call_id_for_index"
  else none

end ToolCallParts

/-- `ModelRoundAccumulator`. -/
structure ModelRoundAccumulator where
  contentFragments : List String := []
  reasoningFragments : List String := []
  finishReason : Option ModelFinishReason := none
  usage : Option ModelTokenUsage := none
  calls : Dict Nat ToolCallParts := Dict.empty
  malformedReason : Option String := none

namespace ModelRoundAccumulator

/-- One delta of `add`. -/
def addDelta (acc : ModelRoundAccumulator) (delta : ToolCallDelta) : ModelRoundAccumulator :=
  let current := (acc.calls.get? delta.index).getD {}
  { acc with
    calls := acc.calls.set delta.index (current.take delta)
    malformedReason := current.conflict delta <|> acc.malformedReason }

/-- `add`. -/
def add (acc : ModelRoundAccumulator) (chunk : ModelStreamChunk) : ModelRoundAccumulator :=
  chunk.toolCallDeltas.foldl addDelta { acc with
    contentFragments :=
      acc.contentFragments ++ (if chunk.contentDelta = "" then [] else [chunk.contentDelta])
    reasoningFragments :=
      acc.reasoningFragments ++ (if chunk.reasoningDelta = "" then [] else [chunk.reasoningDelta])
    finishReason := chunk.finishReason <|> acc.finishReason
    usage := chunk.usage <|> acc.usage }

/-- The parts, in the order of their indexes. -/
def ordered (acc : ModelRoundAccumulator) : List ToolCallParts :=
  (acc.calls.keys.insertionSort (· ≤ ·)).filterMap acc.calls.get?

/-- The calls that some parts make, or why they make none. -/
def assembled (parts : List ToolCallParts) : Except PyError (List Contracts.ToolCall × Option String) :=
  if parts = [] then .ok ([], none)
  else if parts.any (fun parts => strip parts.id = "") then .ok ([], some "missing_tool_call_id")
  else if parts.any (fun parts => strip parts.name = "") then
    .ok ([], some "missing_tool_call_name")
  else if ¬(parts.map (·.id)).Nodup then .ok ([], some "duplicate_tool_call_id")
  else (parts.mapM fun parts => Contracts.ToolCall.of parts.id parts.name parts.arguments).map (·, none)

/-- `tool_calls`. -/
def toolCalls (acc : ModelRoundAccumulator) : Except PyError (List Contracts.ToolCall × Option String) :=
  match acc.malformedReason with
  | some reason => .ok ([], some reason)
  | none => assembled acc.ordered

/-- What some chunks leave. -/
def ofChunks (chunks : List ModelStreamChunk) : ModelRoundAccumulator := chunks.foldl add {}

/-- The deltas of some chunks. -/
def deltasOf (chunks : List ModelStreamChunk) : List ToolCallDelta :=
  chunks.flatMap (·.toolCallDeltas)

/-! ## One call at a time -/

/-- The deltas of one call. -/
def stream (index : Nat) (deltas : List ToolCallDelta) : List ToolCallDelta :=
  deltas.filter (·.index = index)

/-- The parts of a call, and whether its deltas have been in conflict. -/
structure Gathered where
  parts : ToolCallParts
  conflicted : Bool

/-- What one more delta of a call does. -/
def gather (before : Option Gathered) (delta : ToolCallDelta) : Option Gathered :=
  let parts := (before.map (·.parts)).getD {}
  some ⟨parts.take delta, (before.map (·.conflicted)).getD false || (parts.conflict delta).isSome⟩

/-- What the deltas of one call make. -/
def gathered (deltas : List ToolCallDelta) : Option Gathered := deltas.foldl gather none

/-- The accumulator holds for each index what its own deltas make. -/
structure Holds (deltas : List ToolCallDelta) (acc : ModelRoundAccumulator) : Prop where
  calls : ∀ i, acc.calls.get? i = (gathered (stream i deltas)).map (·.parts)
  malformed : acc.malformedReason.isSome = true ↔
    ∃ i, (gathered (stream i deltas)).any (·.conflicted) = true

theorem stream_append_self (deltas : List ToolCallDelta) (delta : ToolCallDelta) :
    stream delta.index (deltas ++ [delta]) = stream delta.index deltas ++ [delta] := by
  simp [stream, List.filter_append]

theorem stream_append_of_ne {i : Nat} (deltas : List ToolCallDelta) {delta : ToolCallDelta}
    (h : delta.index ≠ i) : stream i (deltas ++ [delta]) = stream i deltas := by
  simp [stream, List.filter_append, h]

theorem gathered_append (deltas : List ToolCallDelta) (delta : ToolCallDelta) :
    gathered (deltas ++ [delta]) = gather (gathered deltas) delta := by
  simp [gathered, List.foldl_append]

/-- The parts known of a call before its next delta. -/
def known (before : Option Gathered) : ToolCallParts := (before.map (·.parts)).getD {}

theorem conflicted_gather (before : Option Gathered) (delta : ToolCallDelta) :
    (gather before delta).any (·.conflicted) = true ↔
      before.any (·.conflicted) = true ∨ ((known before).conflict delta).isSome = true := by
  cases before <;> simp [gather, known]

variable {deltas : List ToolCallDelta} {acc : ModelRoundAccumulator}

theorem holds_addDelta (h : Holds deltas acc) (delta : ToolCallDelta) :
    Holds (deltas ++ [delta]) (acc.addDelta delta) := by
  have hcurrent : (acc.calls.get? delta.index).getD {} =
      known (gathered (stream delta.index deltas)) := by
    rw [h.calls]
    rfl
  constructor
  · intro i
    by_cases hi : delta.index = i
    · subst hi
      rw [stream_append_self, gathered_append]
      show (acc.calls.set delta.index _).get? delta.index = _
      rw [Dict.get?_set_self, hcurrent]
      rfl
    · rw [stream_append_of_ne deltas hi, ← h.calls]
      exact Dict.get?_set_of_ne (Ne.symm hi)
  · have hreason : (acc.addDelta delta).malformedReason.isSome = true ↔
        ((known (gathered (stream delta.index deltas))).conflict delta).isSome = true ∨
          acc.malformedReason.isSome = true := by
      unfold addDelta
      dsimp only
      rw [hcurrent]
      cases (known (gathered (stream delta.index deltas))).conflict delta <;> simp
    rw [hreason, h.malformed]
    constructor
    · rintro (hconflict | ⟨i, hi⟩)
      · refine ⟨delta.index, ?_⟩
        rw [stream_append_self, gathered_append, conflicted_gather]
        exact Or.inr hconflict
      · refine ⟨i, ?_⟩
        by_cases hindex : delta.index = i
        · subst hindex
          rw [stream_append_self, gathered_append, conflicted_gather]
          exact Or.inl hi
        · rw [stream_append_of_ne deltas hindex]
          exact hi
    · rintro ⟨i, hi⟩
      by_cases hindex : delta.index = i
      · subst hindex
        rw [stream_append_self, gathered_append, conflicted_gather] at hi
        exact hi.symm.imp id fun hi => ⟨_, hi⟩
      · rw [stream_append_of_ne deltas hindex] at hi
        exact Or.inr ⟨i, hi⟩

theorem holds_foldl_addDelta {before : List ToolCallDelta}
    (h : Holds before acc) (deltas : List ToolCallDelta) :
    Holds (before ++ deltas) (deltas.foldl addDelta acc) := by
  induction deltas generalizing before acc with
  | nil => simpa using h
  | cons delta deltas ih =>
    have := ih (holds_addDelta h delta)
    rwa [List.append_assoc] at this

theorem holds_add (h : Holds deltas acc) (chunk : ModelStreamChunk) :
    Holds (deltas ++ chunk.toolCallDeltas) (acc.add chunk) := by
  refine holds_foldl_addDelta ⟨?_, ?_⟩ chunk.toolCallDeltas
  · exact h.calls
  · exact h.malformed

theorem holds_ofChunks (chunks : List ModelStreamChunk) :
    Holds (deltasOf chunks) (ofChunks chunks) := by
  have hgo : ∀ (before : List ToolCallDelta) (acc : ModelRoundAccumulator), Holds before acc →
      Holds (before ++ deltasOf chunks) (chunks.foldl add acc) := by
    induction chunks with
    | nil =>
      intro before acc h
      simpa [deltasOf] using h
    | cons chunk chunks ih =>
      intro before acc h
      have := ih _ _ (holds_add h chunk)
      rwa [List.append_assoc] at this
  exact hgo [] {} ⟨fun _ => rfl, by simp [stream, gathered]⟩

/-! ## Where the arguments are cut -/

/-- Two sequences of deltas of one call that differ in where their arguments are cut: a fragment may
be split off, behind a delta or in front of it, as a delta of its own. -/
inductive Refragments : List ToolCallDelta → List ToolCallDelta → Prop
  | refl (deltas : List ToolCallDelta) : Refragments deltas deltas
  | symm {a b : List ToolCallDelta} : Refragments a b → Refragments b a
  | trans {a b c : List ToolCallDelta} : Refragments a b → Refragments b c → Refragments a c
  | behind (front back : List ToolCallDelta) (delta : ToolCallDelta) (x y : String) :
    Refragments (front ++ { delta with argumentsFragment := x ++ y } :: back)
      (front ++ { delta with argumentsFragment := x } ::
        { index := delta.index, argumentsFragment := y } :: back)
  | before (front back : List ToolCallDelta) (delta : ToolCallDelta) (x y : String) :
    Refragments (front ++ { delta with argumentsFragment := x ++ y } :: back)
      (front ++ { index := delta.index, argumentsFragment := x } ::
        { delta with argumentsFragment := y } :: back)

/-- What is known of a call, whatever its fragments. -/
structure CallView where
  id : String
  name : String
  arguments : String
  conflicted : Bool

/-- The view of what has been gathered. -/
def Gathered.view (g : Gathered) : CallView := ⟨g.parts.id, g.parts.name, g.parts.arguments, g.conflicted⟩

/-- What one more delta does to a view. -/
def CallView.take (view : CallView) (delta : ToolCallDelta) : CallView where
  id := ToolCallParts.told view.id delta.id
  name := ToolCallParts.told view.name delta.name
  arguments := view.arguments ++ delta.argumentsFragment
  conflicted := view.conflicted || ToolCallParts.differs view.name delta.name ||
    ToolCallParts.differs view.id delta.id

/-- The view before the first delta. -/
def noView : CallView := ⟨"", "", "", false⟩

theorem arguments_addArguments (parts : ToolCallParts) (fragment : String) :
    (parts.addArguments fragment).arguments = parts.arguments ++ fragment := by
  unfold ToolCallParts.addArguments
  split
  · rename_i hempty
    rw [hempty, String.append_empty]
  · simp [ToolCallParts.arguments, String.join_append]

theorem view_take (parts : ToolCallParts) (delta : ToolCallDelta) :
    ((parts.take delta).id = ToolCallParts.told parts.id delta.id ∧
      (parts.take delta).name = ToolCallParts.told parts.name delta.name) ∧
      (parts.take delta).arguments = parts.arguments ++ delta.argumentsFragment := by
  have hfields : ∀ (p : ToolCallParts) (fragment : String),
      (p.addArguments fragment).id = p.id ∧ (p.addArguments fragment).name = p.name := by
    intro p fragment
    unfold ToolCallParts.addArguments
    split <;> exact ⟨rfl, rfl⟩
  unfold ToolCallParts.take
  exact ⟨hfields _ _, arguments_addArguments _ _⟩

theorem conflict_isSome (parts : ToolCallParts) (delta : ToolCallDelta) :
    (parts.conflict delta).isSome =
      (ToolCallParts.differs parts.name delta.name || ToolCallParts.differs parts.id delta.id) := by
  unfold ToolCallParts.conflict
  cases ToolCallParts.differs parts.name delta.name with
  | true => rfl
  | false => cases ToolCallParts.differs parts.id delta.id <;> rfl

theorem view_gather (before : Option Gathered) (delta : ToolCallDelta) :
    (gather before delta).map Gathered.view =
      some (((before.map Gathered.view).getD noView).take delta) := by
  have hview : ∀ (parts : ToolCallParts) (conflicted : Bool),
      Gathered.view ⟨parts.take delta, conflicted || (parts.conflict delta).isSome⟩ =
        (Gathered.view ⟨parts, conflicted⟩).take delta := by
    intro parts conflicted
    obtain ⟨⟨hid, hname⟩, harguments⟩ := view_take parts delta
    unfold Gathered.view CallView.take
    dsimp only
    rw [hid, hname, harguments, conflict_isSome, Bool.or_assoc]
  cases before with
  | none => exact congrArg some (hview {} false)
  | some g => exact congrArg some (hview g.parts g.conflicted)

/-- The view of the deltas of a call. -/
def viewOf (deltas : List ToolCallDelta) : Option CallView := (gathered deltas).map Gathered.view

/-- The view behind some more deltas. -/
def viewFrom (view : Option CallView) (deltas : List ToolCallDelta) : Option CallView :=
  deltas.foldl (fun view delta => some ((view.getD noView).take delta)) view

theorem viewOf_eq (deltas : List ToolCallDelta) : viewOf deltas = viewFrom none deltas := by
  have hgo : ∀ before : Option Gathered,
      (deltas.foldl gather before).map Gathered.view =
        viewFrom (before.map Gathered.view) deltas := by
    induction deltas with
    | nil => exact fun _ => rfl
    | cons delta deltas ih =>
      intro before
      rw [List.foldl_cons, ih, view_gather]
      rfl
  exact hgo none

theorem viewFrom_append (view : Option CallView) (front back : List ToolCallDelta) :
    viewFrom view (front ++ back) = viewFrom (viewFrom view front) back := List.foldl_append

/-- **Where the arguments are cut does not show.** -/
theorem viewOf_of_refragments {a b : List ToolCallDelta} (h : Refragments a b) :
    viewOf a = viewOf b := by
  induction h with
  | refl deltas => rfl
  | symm _ ih => exact ih.symm
  | trans _ _ ih ih' => exact ih.trans ih'
  | behind _ back =>
    rw [viewOf_eq, viewOf_eq, viewFrom_append, viewFrom_append]
    show viewFrom (some (_ : CallView)) back = viewFrom (some (_ : CallView)) back
    simp [CallView.take, ToolCallParts.told, ToolCallParts.differs, String.append_assoc]
  | before _ back =>
    rw [viewOf_eq, viewOf_eq, viewFrom_append, viewFrom_append]
    show viewFrom (some (_ : CallView)) back = viewFrom (some (_ : CallView)) back
    simp [CallView.take, ToolCallParts.told, ToolCallParts.differs, String.append_assoc]

/-! ## The calls -/

/-- What a call is made of. -/
def signature (parts : ToolCallParts) : String × String × String :=
  (parts.id, parts.name, parts.arguments)

/-- Calls are made of ids, names and arguments alone. -/
theorem assembled_congr {a b : List ToolCallParts} (h : a.map signature = b.map signature) :
    assembled a = assembled b := by
  have hnil : a = [] ↔ b = [] := by
    rw [← List.map_eq_nil_iff, h, List.map_eq_nil_iff]
  have hids : a.map (·.id) = b.map (·.id) := by
    have hfst := congrArg (List.map Prod.fst) h
    rwa [List.map_map, List.map_map] at hfst
  have hnames : a.map (·.name) = b.map (·.name) := by
    have hsnd := congrArg (List.map fun row : String × String × String => row.2.1) h
    rwa [List.map_map, List.map_map] at hsnd
  have hany : ∀ (f : ToolCallParts → String) (l : List ToolCallParts),
      l.any (fun parts => strip (f parts) = "") = (l.map f).any (fun text => strip text = "") := by
    intro f l
    rw [List.any_map]
    rfl
  have hcalls : ∀ l : List ToolCallParts,
      (l.mapM fun parts => Contracts.ToolCall.of parts.id parts.name parts.arguments) =
        (l.map signature).mapM fun row => Contracts.ToolCall.of row.1 row.2.1 row.2.2 := by
    intro l
    rw [List.mapM_map]
    rfl
  unfold assembled
  rw [hany (·.id), hany (·.id), hany (·.name), hany (·.name), hids, hnames, hcalls, hcalls, h]
  simp only [hnil]

/-- The indexes of some deltas, in order. -/
def callIndexes (deltas : List ToolCallDelta) : List Nat :=
  (deltas.map (·.index)).dedup.insertionSort (· ≤ ·)

theorem mem_indexes {i : Nat} :
    i ∈ deltas.map (·.index) ↔ (gathered (stream i deltas)).isSome = true := by
  have hsome : ∀ (l : List ToolCallDelta) (before : Option Gathered),
      (l.foldl gather before).isSome = true ↔ before.isSome = true ∨ l ≠ [] := by
    intro l
    induction l with
    | nil => simp
    | cons delta l ih =>
      intro before
      rw [List.foldl_cons, ih]
      simp [gather]
  rw [gathered, hsome, stream]
  simp [List.filter_eq_nil_iff]

/-- The calls are kept in the order of their indexes. -/
theorem Holds.keys
    (h : Holds deltas acc) : acc.calls.keys.insertionSort (· ≤ ·) = callIndexes deltas := by
  have hperm : acc.calls.keys.Perm (deltas.map (·.index)).dedup := by
    rw [List.perm_ext_iff_of_nodup acc.calls.nodup (List.nodup_dedup _)]
    intro i
    rw [List.mem_dedup, mem_indexes, Dict.mem_keys_iff, h.calls, ← Option.isSome_iff_exists,
      Option.isSome_map]
  refine List.Perm.eq_of_sortedLE List.sortedLE_insertionSort List.sortedLE_insertionSort ?_
  exact ((List.perm_insertionSort _ _).trans hperm).trans (List.perm_insertionSort _ _).symm

/-- What a call is made of, from its view. -/
def CallView.signature (view : CallView) : String × String × String :=
  (view.id, view.name, view.arguments)

theorem Holds.ordered (h : Holds deltas acc) :
    acc.ordered.map signature =
      (callIndexes deltas).filterMap fun i => (viewOf (stream i deltas)).map CallView.signature := by
  unfold ModelRoundAccumulator.ordered
  rw [h.keys, List.map_filterMap]
  refine List.filterMap_congr fun i _ => ?_
  rw [h.calls, viewOf, Option.map_map, Option.map_map]
  rfl

/-- Deltas that differ only in where arguments are cut leave the same parts. -/
theorem ordered_congr {a b : List ToolCallDelta} {acc' : ModelRoundAccumulator}
    (ha : Holds a acc) (hb : Holds b acc') (h : ∀ i, viewOf (stream i a) = viewOf (stream i b)) :
    acc.ordered.map signature = acc'.ordered.map signature := by
  have hindexes : callIndexes a = callIndexes b := by
    have hperm : (a.map (·.index)).dedup.Perm (b.map (·.index)).dedup := by
      rw [List.perm_ext_iff_of_nodup (List.nodup_dedup _) (List.nodup_dedup _)]
      intro i
      have hview := congrArg Option.isSome (h i)
      rw [viewOf, viewOf, Option.isSome_map, Option.isSome_map] at hview
      rw [List.mem_dedup, List.mem_dedup, mem_indexes, mem_indexes, hview]
    refine List.Perm.eq_of_sortedLE List.sortedLE_insertionSort List.sortedLE_insertionSort ?_
    exact ((List.perm_insertionSort _ _).trans hperm).trans (List.perm_insertionSort _ _).symm
  rw [ha.ordered, hb.ordered, hindexes]
  exact List.filterMap_congr fun i _ => by rw [h i]

theorem malformed_congr {a b : List ToolCallDelta} {acc' : ModelRoundAccumulator}
    (ha : Holds a acc) (hb : Holds b acc') (h : ∀ i, viewOf (stream i a) = viewOf (stream i b)) :
    acc.malformedReason.isSome = acc'.malformedReason.isSome := by
  have hconflict : ∀ (i : Nat) (deltas : List ToolCallDelta),
      (gathered (stream i deltas)).any (·.conflicted) =
        (viewOf (stream i deltas)).any (·.conflicted) := by
    intro i deltas
    rw [viewOf]
    cases gathered (stream i deltas) <;> rfl
  rw [Bool.eq_iff_iff, ha.malformed, hb.malformed]
  simp only [hconflict, h]

/-- No calls, for a reason. -/
def Malformed (result : Except PyError (List Contracts.ToolCall × Option String)) : Prop :=
  ∃ reason, result = .ok ([], some reason)

/-- Two streams whose deltas agree for every index make the same calls, or are both malformed. -/
theorem toolCalls_eq {chunks chunks' : List ModelStreamChunk}
    (h : ∀ i, Refragments (stream i (deltasOf chunks)) (stream i (deltasOf chunks'))) :
    (ofChunks chunks).toolCalls = (ofChunks chunks').toolCalls ∨
      Malformed (ofChunks chunks).toolCalls ∧ Malformed (ofChunks chunks').toolCalls := by
  have hview : ∀ i, viewOf (stream i (deltasOf chunks)) = viewOf (stream i (deltasOf chunks')) :=
    fun i => viewOf_of_refragments (h i)
  have hreason := malformed_congr (holds_ofChunks chunks) (holds_ofChunks chunks') hview
  unfold toolCalls
  cases hmalformed : (ofChunks chunks).malformedReason with
  | some reason =>
    rw [hmalformed] at hreason
    obtain ⟨reason', hmalformed'⟩ := Option.isSome_iff_exists.1 hreason.symm
    rw [hmalformed']
    exact Or.inr ⟨⟨reason, rfl⟩, ⟨reason', rfl⟩⟩
  | none =>
    rw [hmalformed] at hreason
    have hmalformed' : (ofChunks chunks').malformedReason = none := by
      cases hother : (ofChunks chunks').malformedReason with
      | none => rfl
      | some reason =>
        rw [hother] at hreason
        cases hreason
    rw [hmalformed']
    exact Or.inl (assembled_congr
      (ordered_congr (holds_ofChunks chunks) (holds_ofChunks chunks') hview))

/-! ## Calls that are accepted -/

/-- The fragments of a call, one behind the other. -/
def joinedArguments (deltas : List ToolCallDelta) : String :=
  String.join (deltas.map (·.argumentsFragment))

/-- A view has the id stripped, and the arguments of its deltas. -/
theorem viewFrom_some (view : CallView) (deltas : List ToolCallDelta)
    (hid : strip view.id = view.id) :
    ∃ view', viewFrom (some view) deltas = some view' ∧ strip view'.id = view'.id ∧
      view'.arguments = view.arguments ++ joinedArguments deltas := by
  induction deltas generalizing view with
  | nil => exact ⟨view, rfl, hid, (String.append_empty).symm⟩
  | cons delta deltas ih =>
    have htold : strip (ToolCallParts.told view.id delta.id) =
        ToolCallParts.told view.id delta.id := by
      unfold ToolCallParts.told
      split
      · exact hid
      · split
        · exact hid
        · exact strip_strip _
    obtain ⟨view', hview, hstripped, harguments⟩ := ih (view.take delta) htold
    refine ⟨view', hview, hstripped, ?_⟩
    rw [harguments]
    show view.arguments ++ delta.argumentsFragment ++ _ = view.arguments ++ _
    rw [String.append_assoc]
    simp [joinedArguments, String.join_cons]

theorem viewOf_some (h : deltas ≠ []) :
    ∃ view, viewOf deltas = some view ∧ strip view.id = view.id ∧
      view.arguments = joinedArguments deltas := by
  obtain ⟨delta, deltas, rfl⟩ := List.exists_cons_of_ne_nil h
  have hblank : strip noView.id = noView.id := by decide
  obtain ⟨view, hview, hid, harguments⟩ := viewFrom_some noView (delta :: deltas) hblank
  refine ⟨view, ?_, hid, ?_⟩
  · rw [viewOf_eq, ← hview]
    rfl
  · rw [harguments]
    exact String.empty_append

/-- The parts in the order of their indexes: their ids are stripped, and their arguments are those
of their own deltas. -/
theorem Holds.ordered_parts (h : Holds deltas acc) :
    (∀ parts ∈ acc.ordered, strip parts.id = parts.id) ∧
      acc.ordered.map (·.arguments) =
        (callIndexes deltas).map fun i => joinedArguments (stream i deltas) := by
  have hview : ∀ i ∈ callIndexes deltas, ∃ view, viewOf (stream i deltas) = some view ∧
      strip view.id = view.id ∧ view.arguments = joinedArguments (stream i deltas) := by
    intro i hi
    refine viewOf_some ?_
    rw [callIndexes, List.mem_insertionSort, List.mem_dedup, List.mem_map] at hi
    obtain ⟨delta, hdelta, hindex⟩ := hi
    exact List.ne_nil_of_mem (List.mem_filter.2 ⟨hdelta, by simpa using hindex⟩)
  have hordered := h.ordered
  constructor
  · intro parts hparts
    have hmem := List.mem_map_of_mem hparts (f := signature)
    rw [hordered, List.mem_filterMap] at hmem
    obtain ⟨i, hi, hsignature⟩ := hmem
    obtain ⟨view, hview, hid, -⟩ := hview i hi
    rw [hview] at hsignature
    have hsame : view.id = parts.id := congrArg (fun row => row.map Prod.fst) hsignature |> Option.some.inj
    rw [← hsame]
    exact hid
  · have hthird := congrArg (List.map fun row : String × String × String => row.2.2) hordered
    rw [List.map_map, List.map_filterMap] at hthird
    refine hthird.trans ?_
    rw [← List.filterMap_eq_map]
    refine List.filterMap_congr fun i hi => ?_
    obtain ⟨view, hview, -, harguments⟩ := hview i hi
    rw [hview, Option.map_some, Option.map_some]
    exact congrArg some harguments

/-- What `ToolCall` keeps of what it is given. -/
theorem ToolCall.of_eq_ok {id name arguments : String} {call : Contracts.ToolCall}
    (h : Contracts.ToolCall.of id name arguments = .ok call) :
    strip id = call.id.text ∧ call.argumentsJson = arguments := by
  obtain ⟨id', hid, h⟩ := bind_eq_ok h
  obtain ⟨name', -, h⟩ := bind_eq_ok h
  cases h
  exact ⟨RequiredText.of_eq_ok.1 hid, rfl⟩

/-- Accepted calls have names and ids, no id twice, and the arguments of their own deltas. -/
theorem accepted_calls {chunks : List ModelStreamChunk} {calls : List Contracts.ToolCall}
    (h : (ofChunks chunks).toolCalls = .ok (calls, none)) :
    (∀ call ∈ calls, call.id.text ≠ "" ∧ call.name.text ≠ "") ∧ (calls.map (·.id)).Nodup ∧
      calls.map (·.argumentsJson) = (callIndexes (deltasOf chunks)).map fun i =>
        joinedArguments (stream i (deltasOf chunks)) := by
  refine ⟨fun call _ => ⟨call.id.nonblank, call.name.nonblank⟩, ?_⟩
  obtain ⟨hstripped, harguments⟩ := (holds_ofChunks chunks).ordered_parts
  rw [← harguments]
  unfold toolCalls at h
  split at h
  · cases h
  · unfold assembled at h
    split at h
    · rename_i hempty
      cases h
      rw [hempty]
      exact ⟨List.nodup_nil, rfl⟩
    · split at h
      · cases h
      · split at h
        · cases h
        · split at h
          · cases h
          · rename_i hnodup
            rw [not_not] at hnodup
            obtain ⟨calls', hcalls, hpair⟩ := map_eq_ok h
            cases hpair
            have hall := mapM_eq_ok hcalls
            have hids : calls.map (·.id.text) = (ofChunks chunks).ordered.map (·.id) := by
              refine (map_eq_of_forall₂ hall fun parts hparts call hcall => ?_).symm
              rw [← (ToolCall.of_eq_ok hcall).1, hstripped parts hparts]
            have hargs : calls.map (·.argumentsJson) =
                (ofChunks chunks).ordered.map (·.arguments) :=
              (map_eq_of_forall₂ hall fun parts _ call hcall => (ToolCall.of_eq_ok hcall).2.symm).symm
            refine ⟨?_, hargs⟩
            rw [← hids] at hnodup
            exact List.Nodup.of_map (·.text) (by rwa [List.map_map])

/-- **Streamed tool calls do not depend on chunking**: two streams whose deltas agree for every index,
up to where arguments are cut, make the same calls or are both malformed; and calls that are
accepted have names, ids of their own, and the arguments of their own deltas. -/
theorem toolCalls_streamed (chunks chunks' : List ModelStreamChunk) :
    ((∀ i, Refragments (stream i (deltasOf chunks)) (stream i (deltasOf chunks'))) →
      (ofChunks chunks).toolCalls = (ofChunks chunks').toolCalls ∨
        Malformed (ofChunks chunks).toolCalls ∧ Malformed (ofChunks chunks').toolCalls) ∧
    ∀ calls, (ofChunks chunks).toolCalls = .ok (calls, none) →
      (∀ call ∈ calls, call.id.text ≠ "" ∧ call.name.text ≠ "") ∧ (calls.map (·.id)).Nodup ∧
        calls.map (·.argumentsJson) = (callIndexes (deltasOf chunks)).map fun i =>
          joinedArguments (stream i (deltasOf chunks)) :=
  ⟨toolCalls_eq, fun _ => accepted_calls⟩

/-- Two calls, interleaved with cut arguments, and each in one piece. -/
theorem toolCalls_streamed_two :
    let cut : List ModelStreamChunk := [
      { toolCallDeltas := [
        { index := 1, id := some "b", name := some "look", argumentsFragment := "\x7b" },
        { index := 0, id := some "a", name := some "find", argumentsFragment := "[" }] },
      { toolCallDeltas := [{ index := 0, argumentsFragment := "]" }] },
      { toolCallDeltas := [{ index := 1, argumentsFragment := "\x7d" }] }]
    let whole : List ModelStreamChunk := [
      { toolCallDeltas := [
        { index := 0, id := some "a", name := some "find", argumentsFragment := "[]" },
        { index := 1, id := some "b", name := some "look", argumentsFragment := "\x7b\x7d" }] }]
    (ofChunks cut).toolCalls = (ofChunks whole).toolCalls ∨
      Malformed (ofChunks cut).toolCalls ∧ Malformed (ofChunks whole).toolCalls := by
  intro cut whole
  refine (toolCalls_streamed cut whole).1 fun i => ?_
  match i with
  | 0 => exact .symm (.behind [] [] { index := 0, id := some "a", name := some "find" } "[" "]")
  | 1 =>
    exact .symm (.behind [] [] { index := 1, id := some "b", name := some "look" } "\x7b" "\x7d")
  | i + 2 =>
    have hcut : stream (i + 2) (deltasOf cut) = [] := by
      simp [stream, deltasOf, cut]
    have hwhole : stream (i + 2) (deltasOf whole) = [] := by
      simp [stream, deltasOf, whole]
    rw [hcut, hwhole]
    exact .refl []

end ModelRoundAccumulator

end Purra.Runtime
