import Purra.LongTask.Runs

/-!
# The manifest of a task

A task is created with a manifest whose units are distinct, know each other and
wait for each other without a cycle.  Splits grow it: the children inherit what
the parent waited for, whoever waited for the parent waits for its replacements,
and the parent stays in the manifest as an expanded unit that nobody waits for.

`expand_unit` compares the children with the manifest as it stands.  It compares
neither the children's positions with each other nor the names in their
dependencies with anything.

* `Manifest` — the invariant.
* `SplitsWell` — what `expand_unit` leaves to its caller.
* `Split.manifest_iff` — an expansion keeps the invariant exactly then.
* `manifest_of_splitsWell` — **in a run whose expansions are of that kind every task
  keeps its manifest**.
-/

namespace Purra

open LongTaskRepository

/-- The manifest invariant: units are pairwise distinct by id, semantic key and position; each
waits only for units of the task, without a cycle; and none that is not expanded waits for one
that is. -/
structure Manifest (units : Dict String LongTaskUnitRecord) : Prop where
  ids : (units.values.map (·.id)).Nodup
  semanticKeys : (units.values.map (·.semanticKey)).Nodup
  positions : (units.values.map (·.position)).Nodup
  known : ∀ unit ∈ units.values, ∀ dependency ∈ unit.dependencies,
    dependency ∈ units.values.map (·.id)
  acyclic : Topology.Acyclic (units.values.map fun unit => (unit.id, unit.dependencies))
  replaced : ∀ unit ∈ units.values, unit.status ≠ .expanded → ∀ other ∈ units.values,
    other.id ∈ unit.dependencies → other.status ≠ .expanded

/-- The children have distinct positions, and each of them waits for siblings and for units of the
task that are not expanded, besides what it inherits. -/
def SplitsWell (task : StoredLongTask) (split : LongTaskSplitResult) : Prop :=
  (split.children.map (·.position)).Nodup ∧
    ∀ child ∈ split.children, ∀ dependency ∈ child.dependencies,
      dependency ∈ split.children.map (·.id) ∨
        ∃ unit, task.units.get? dependency = some unit ∧ unit.status ≠ .expanded

/-- The holder of `parent` expands it, and the split passes the checks of `expand_unit`. -/
structure Accepts (now : Int) (task : StoredLongTask) (unitId workerId : String) (leaseEpoch : Int)
    (split : LongTaskSplitResult) (decision : FailureDecision) (parent : LongTaskUnitRecord)
    (worker : String) (units : Dict String LongTaskUnitRecord) : Prop where
  disposition : decision.disposition = .splitPart
  nonempty : split.children ≠ []
  deadline : task.deadlineElapsed now = false
  found : task.lookupUnit unitId = some parent
  held : task.heldBy now parent workerId leaseEpoch = some worker
  checked : checkChildren task split = .ok ()
  prospective_eq : prospective task parent split = .ok units

/-! ## Changes that leave the manifest alone -/

/-- The same row of the manifest. -/
structure SameRow (u v : LongTaskUnitRecord) : Prop where
  id : v.id = u.id
  position : v.position = u.position
  semanticKey : v.semanticKey = u.semanticKey
  dependencies : v.dependencies = u.dependencies

theorem SameRow.refl (u : LongTaskUnitRecord) : SameRow u u := ⟨rfl, rfl, rfl, rfl⟩

/-- The same row, expanded or not as before. -/
structure SamePlace (u v : LongTaskUnitRecord) : Prop extends SameRow u v where
  expanded : v.status = .expanded ↔ u.status = .expanded

theorem SamePlace.refl (u : LongTaskUnitRecord) : SamePlace u u := ⟨SameRow.refl u, Iff.rfl⟩

theorem SameUnit.samePlace {u v : LongTaskUnitRecord} (h : SameUnit u v) : SamePlace u v :=
  ⟨⟨h.id, h.position, h.semanticKey, h.dependencies⟩, h.expanded⟩

section

variable {units units' : Dict String LongTaskUnitRecord}

theorem known_of_rel (hrel : Dict.Rel SameRow units units')
    (h : ∀ unit ∈ units.values, ∀ dependency ∈ unit.dependencies,
      dependency ∈ units.values.map (·.id)) :
    ∀ unit ∈ units'.values, ∀ dependency ∈ unit.dependencies,
      dependency ∈ units'.values.map (·.id) := by
  intro v hv dependency hdep
  obtain ⟨k, hk⟩ := Dict.mem_values_iff.1 hv
  obtain ⟨u, hu, huv⟩ := hrel.get?_left hk
  rw [hrel.map_values_eq fun _ _ h => h.id]
  exact h u (Dict.mem_values_of_get? hu) dependency (huv.dependencies ▸ hdep)

theorem Manifest.of_rel (hrel : Dict.Rel SamePlace units units') (h : Manifest units) :
    Manifest units' := by
  have hrows : Dict.Rel SameRow units units' := hrel.mono fun _ _ h => h.toSameRow
  refine ⟨?_, ?_, ?_, known_of_rel hrows h.known, ?_, ?_⟩
  · rw [hrows.map_values_eq fun _ _ h => h.id]
    exact h.ids
  · rw [hrows.map_values_eq fun _ _ h => h.semanticKey]
    exact h.semanticKeys
  · rw [hrows.map_values_eq fun _ _ h => h.position]
    exact h.positions
  · rw [hrows.map_values_eq fun _ _ h => by rw [h.id, h.dependencies]]
    exact h.acyclic
  · intro v hv hopen w hw hdep hexpanded
    obtain ⟨k, hk⟩ := Dict.mem_values_iff.1 hv
    obtain ⟨k', hk'⟩ := Dict.mem_values_iff.1 hw
    obtain ⟨u, hu, huv⟩ := hrel.get?_left hk
    obtain ⟨x, hx, hxw⟩ := hrel.get?_left hk'
    refine h.replaced u (Dict.mem_values_of_get? hu) (fun he => hopen (huv.expanded.2 he)) x
      (Dict.mem_values_of_get? hx) ?_ (hxw.expanded.1 hexpanded)
    rw [← hxw.id, ← huv.dependencies]
    exact hdep

theorem values_id_eq_keys (hs : UnitsSound units) : units.values.map (·.id) = units.keys := by
  unfold Dict.values Dict.keys
  rw [List.map_map]
  refine List.map_congr_left fun p hp => ?_
  exact hs.id_eq p.1 p.2 (Dict.mem_entries_iff.1 hp)

end

/-! ## A new task -/

theorem values_newTask (id : String) (command : LongTaskCreateCommand) :
    (newTask id command).units.values = command.units.map (unitFromSpec id) := by
  unfold Dict.values
  rw [entries_newTask, List.map_map]
  rfl

theorem manifest_newTask (id : String) (command : LongTaskCreateCommand) :
    Manifest (newTask id command).units := by
  have hmap : ∀ {μ : Type} (f : LongTaskUnitRecord → μ) (g : LongTaskUnitSpec → μ),
      (∀ spec, f (unitFromSpec id spec) = g spec) →
      (newTask id command).units.values.map f = command.units.map g := by
    intro μ f g hfg
    rw [values_newTask, List.map_map]
    exact List.map_congr_left fun spec _ => hfg spec
  refine ⟨?_, ?_, ?_, ?_, ?_, ?_⟩
  · rw [hmap _ LongTaskUnitSpec.id fun _ => rfl]
    exact command.nodup_ids
  · rw [hmap _ LongTaskUnitSpec.semanticKey fun _ => rfl]
    exact command.nodup_semanticKeys
  · rw [hmap _ LongTaskUnitSpec.position fun _ => rfl]
    exact command.nodup_positions
  · intro unit hunit dependency hdep
    rw [values_newTask, List.mem_map] at hunit
    obtain ⟨spec, hspec, rfl⟩ := hunit
    rw [hmap _ LongTaskUnitSpec.id fun _ => rfl]
    exact command.known spec hspec dependency hdep
  · rw [hmap _ (fun spec => (spec.id, spec.dependencies)) fun _ => rfl]
    exact Topology.acyclic_iff.1 command.acyclic
  · intro unit _ _ other hother _ hexpanded
    rw [values_newTask, List.mem_map] at hother
    obtain ⟨spec, -, rfl⟩ := hother
    cases hexpanded

/-! ## An expansion -/

@[simp] theorem redirect_self (parent : String) (replacement : List String)
    (unit : LongTaskUnitRecord) : redirect parent replacement parent unit = unit := by
  simp [redirect, downstream]

/-- Whoever is not the parent waits for what it waited for, with the parent replaced. -/
theorem mem_redirect_of_ne {parent k dependency : String} {replacement : List String}
    {unit : LongTaskUnitRecord} (hk : k ≠ parent) :
    dependency ∈ (redirect parent replacement k unit).dependencies ↔
      (dependency ∈ unit.dependencies ∧ dependency ≠ parent) ∨
        (parent ∈ unit.dependencies ∧ dependency ∈ replacement) := by
  have hdown : downstream parent k unit = true ↔ parent ∈ unit.dependencies := by
    simp [downstream, hk]
  simp only [redirect]
  by_cases hp : parent ∈ unit.dependencies
  · rw [if_pos (hdown.2 hp)]
    unfold replaceDependency
    rw [Dict.mem_fromKeys, List.mem_flatMap]
    constructor
    · rintro ⟨current, hcurrent, hmem⟩
      split at hmem
      · exact Or.inr ⟨hp, hmem⟩
      · rename_i hne
        rw [List.mem_singleton] at hmem
        subst hmem
        exact Or.inl ⟨hcurrent, hne⟩
    · rintro (⟨hmem, hne⟩ | ⟨-, hmem⟩)
      · exact ⟨dependency, hmem, by simp [hne]⟩
      · exact ⟨parent, hp, by simpa using hmem⟩
  · rw [if_neg (by rwa [hdown])]
    constructor
    · intro hmem
      exact Or.inl ⟨hmem, fun he => hp (he ▸ hmem)⟩
    · rintro (⟨hmem, -⟩ | ⟨h, -⟩)
      · exact hmem
      · exact absurd h hp

namespace Split

variable {task : StoredLongTask} {parent : LongTaskUnitRecord} {split : LongTaskSplitResult}
  {units : Dict String LongTaskUnitRecord} {worker : String} {decision : FailureDecision}

/-- The manifest's columns grow by the children's, in order. -/
theorem map_values {μ : Type} (h : Split task parent split units) (f : LongTaskUnitRecord → μ)
    (hf : ∀ k u, f (redirect parent.id split.replacementDependencyIds k u) = f u) :
    units.values.map f = task.units.values.map f ++
      split.children.map fun child => f (childUnit task.record.id parent child) := by
  unfold Dict.values
  rw [h.entries_eq]
  simp only [List.map_map, List.map_append, Function.comp_def, hf]

theorem child_ne_parent (h : Split task parent split units)
    (hparent : task.units.get? parent.id = some parent) {child : LongTaskUnitSpec}
    (hchild : child ∈ split.children) : child.id ≠ parent.id := by
  intro he
  exact h.new_ids child hchild (he ▸ Dict.mem_keys_iff.2 ⟨parent, hparent⟩)

/-- A replacement is a child, so no unit of the old manifest. -/
theorem not_old_of_replacement (h : Split task parent split units) {id : String}
    (hid : id ∈ split.replacementDependencyIds) : id ∉ task.units.keys := by
  obtain ⟨child, hchild, rfl⟩ := List.mem_map.1 (split.replacement_subset id hid)
  exact h.new_ids child hchild

theorem get?_parent (h : Split task parent split units)
    (hparent : task.units.get? parent.id = some parent) :
    units.get? parent.id = some parent :=
  h.get?_iff.2 ⟨parent, Or.inl hparent, (redirect_self _ _ _).symm⟩

/-- Storing the expanded parent changes no row. -/
theorem expanded_rel (h : Split task parent split units)
    (hparent : task.units.get? parent.id = some parent) :
    Dict.Rel SameRow units (units.set parent.id (parent.expandedBy worker decision)) :=
  Dict.Rel.set (h.get?_parent hparent) ⟨rfl, rfl, rfl, rfl⟩ SameRow.refl

theorem known (h : Split task parent split units) (hs : UnitsSound task.units)
    (hparent : task.units.get? parent.id = some parent) (hmanifest : Manifest task.units)
    (hwell : SplitsWell task split) : ∀ unit ∈ units.values, ∀ dependency ∈ unit.dependencies,
      dependency ∈ units.values.map (·.id) := by
  rw [values_id_eq_keys (h.sound hs)]
  have hold : ∀ u ∈ task.units.values, ∀ dependency ∈ u.dependencies, dependency ∈ units.keys := by
    intro u hu dependency hdep
    have hknown := hmanifest.known u hu dependency hdep
    rw [values_id_eq_keys hs] at hknown
    exact h.mem_keys.2 (Or.inl hknown)
  have hreplacement : ∀ id ∈ split.replacementDependencyIds, id ∈ units.keys := by
    intro id hid
    obtain ⟨child, hchild, rfl⟩ := List.mem_map.1 (split.replacement_subset id hid)
    exact h.mem_keys.2 (Or.inr ⟨child, hchild, rfl⟩)
  intro v hv dependency hdep
  obtain ⟨k, hk⟩ := Dict.mem_values_iff.1 hv
  obtain ⟨u, hu, rfl⟩ := h.get?_iff.1 hk
  -- what the unit waited for before it was redirected is known
  have hbefore : ∀ d ∈ u.dependencies, d ∈ units.keys := by
    rcases hu with hu | ⟨child, hchild, -, rfl⟩
    · exact hold u (Dict.mem_values_of_get? hu)
    · intro d hd
      have hd' : d ∈ parent.dependencies ++ child.dependencies := Dict.mem_fromKeys.1 hd
      rcases List.mem_append.1 hd' with hd' | hd'
      · exact hold parent (Dict.mem_values_of_get? hparent) d hd'
      · rcases hwell.2 child hchild d hd' with hsibling | ⟨unit, hunit, -⟩
        · obtain ⟨sibling, hmem, rfl⟩ := List.mem_map.1 hsibling
          exact h.mem_keys.2 (Or.inr ⟨sibling, hmem, rfl⟩)
        · exact h.mem_keys.2 (Or.inl (Dict.mem_keys_iff.2 ⟨unit, hunit⟩))
  by_cases hkp : k = parent.id
  · rw [hkp, redirect_self] at hdep
    exact hbefore dependency hdep
  · rcases (mem_redirect_of_ne hkp).1 hdep with ⟨hdep, -⟩ | ⟨-, hdep⟩
    · exact hbefore dependency hdep
    · exact hreplacement dependency hdep

/-- Nobody waits for the parent once it is expanded. -/
theorem not_waiting (h : Split task parent split units)
    (hparent : task.units.get? parent.id = some parent) {k : String} {v : LongTaskUnitRecord}
    (hv : units.get? k = some v) (hk : k ≠ parent.id) : parent.id ∉ v.dependencies := by
  obtain ⟨u, -, rfl⟩ := h.get?_iff.1 hv
  intro hdep
  rcases (mem_redirect_of_ne hk).1 hdep with ⟨-, hne⟩ | ⟨-, hdep⟩
  · exact hne rfl
  · exact h.not_old_of_replacement hdep (Dict.mem_keys_iff.2 ⟨parent, hparent⟩)

/-- A unit of the new manifest other than the parent that is not expanded waits for no unit that
was expanded before. -/
theorem replaced (h : Split task parent split units) (hs : UnitsSound task.units)
    (hparent : task.units.get? parent.id = some parent) (hopen : parent.status ≠ .expanded)
    (hmanifest : Manifest task.units) (hwell : SplitsWell task split) {k : String}
    {v other : LongTaskUnitRecord} (hv : units.get? k = some v) (hk : k ≠ parent.id)
    (hvopen : v.status ≠ .expanded) {k' : String} (hother : units.get? k' = some other)
    (hdep : k' ∈ v.dependencies) : other.status ≠ .expanded := by
  obtain ⟨u, hu, rfl⟩ := h.get?_iff.1 hv
  obtain ⟨x, hx, rfl⟩ := h.get?_iff.1 hother
  rcases hx with hx | ⟨child, -, -, rfl⟩
  · -- a unit of the old manifest is no replacement
    have hkey : k' ∈ task.units.keys := Dict.mem_keys_iff.2 ⟨x, hx⟩
    have hwaits : k' ∈ u.dependencies := by
      rcases (mem_redirect_of_ne hk).1 hdep with ⟨hdep, -⟩ | ⟨-, hdep⟩
      · exact hdep
      · exact absurd hkey (h.not_old_of_replacement hdep)
    have hold : ∀ w ∈ task.units.values, w.status ≠ .expanded → k' ∈ w.dependencies →
        x.status ≠ .expanded := fun w hw hwopen hdep =>
      hmanifest.replaced w hw hwopen x (Dict.mem_values_of_get? hx) (hs.id_eq k' x hx ▸ hdep)
    rcases hu with hu | ⟨child, hchild, -, rfl⟩
    · exact hold u (Dict.mem_values_of_get? hu) hvopen hwaits
    · have hwaits' : k' ∈ parent.dependencies ++ child.dependencies :=
        Dict.mem_fromKeys.1 hwaits
      rcases List.mem_append.1 hwaits' with hd | hd
      · exact hold parent (Dict.mem_values_of_get? hparent) hopen hd
      · rcases hwell.2 child hchild k' hd with hsibling | ⟨unit, hunit, hunitopen⟩
        · obtain ⟨sibling, hsibling, hid⟩ := List.mem_map.1 hsibling
          exact absurd (hid ▸ hkey) (h.new_ids sibling hsibling)
        · rw [hx] at hunit
          cases hunit
          exact hunitopen
  · simp [childUnit, unitFromSpec]

theorem nodup_positions_iff (h : Split task parent split units)
    (hmanifest : Manifest task.units) :
    (units.values.map (·.position)).Nodup ↔ (split.children.map (·.position)).Nodup := by
  rw [h.map_values (·.position) fun _ _ => rfl, List.nodup_append]
  constructor
  · exact fun hnodup => hnodup.2.1
  · refine fun hnodup => ⟨hmanifest.positions, hnodup, fun p hp q hq heq => ?_⟩
    obtain ⟨child, hchild, hposition⟩ := List.mem_map.1 hq
    refine h.new_positions child hchild ?_
    have hsame : child.position = p := hposition.trans heq.symm
    rwa [hsame]

theorem nodup_semanticKeys (h : Split task parent split units)
    (hmanifest : Manifest task.units) : (units.values.map (·.semanticKey)).Nodup := by
  rw [h.map_values (·.semanticKey) fun _ _ => rfl, List.nodup_append]
  refine ⟨hmanifest.semanticKeys, split.nodup_semanticKeys, fun p hp q hq heq => ?_⟩
  obtain ⟨child, hchild, hkey⟩ := List.mem_map.1 hq
  refine h.new_semanticKeys child hchild ?_
  have hsame : child.semanticKey = p := hkey.trans heq.symm
  rwa [hsame]

theorem manifest (h : Split task parent split units) (hs : UnitsSound task.units)
    (hparent : task.units.get? parent.id = some parent) (hopen : parent.status ≠ .expanded)
    (hmanifest : Manifest task.units) (hwell : SplitsWell task split) :
    Manifest (units.set parent.id (parent.expandedBy worker decision)) := by
  have hrel : Dict.Rel SameRow units (units.set parent.id (parent.expandedBy worker decision)) :=
    h.expanded_rel hparent
  have hsound := (h.sound hs).set (k := parent.id) (v := parent.expandedBy worker decision) rfl
    fun _ => rfl
  refine ⟨?_, ?_, ?_, known_of_rel hrel (h.known hs hparent hmanifest hwell), ?_, ?_⟩
  · rw [values_id_eq_keys hsound]
    exact Dict.nodup _
  · rw [hrel.map_values_eq fun _ _ h => h.semanticKey]
    exact h.nodup_semanticKeys hmanifest
  · rw [hrel.map_values_eq fun _ _ h => h.position]
    exact (h.nodup_positions_iff hmanifest).2 hwell.1
  · rw [hrel.map_values_eq fun _ _ h => by rw [h.id, h.dependencies]]
    exact Topology.acyclic_iff.1 h.acyclic
  · intro v hv hvopen other hother hdep
    obtain ⟨k, hk⟩ := Dict.mem_values_iff.1 hv
    obtain ⟨k', hk'⟩ := Dict.mem_values_iff.1 hother
    rw [hsound.id_eq k' other hk'] at hdep
    rw [Dict.get?_set] at hk hk'
    split at hk
    · cases hk
      exact absurd rfl hvopen
    · rename_i hne
      split at hk'
      · rename_i heq
        exact absurd (heq ▸ hdep) (h.not_waiting hparent hk hne)
      · exact h.replaced hs hparent hopen hmanifest hwell hk hne hvopen hk' hdep

/-- **An expansion keeps the manifest exactly when it splits well.** -/
theorem manifest_iff (h : Split task parent split units) (hs : UnitsSound task.units)
    (hparent : task.units.get? parent.id = some parent) (hopen : parent.status ≠ .expanded)
    (hmanifest : Manifest task.units) :
    Manifest (units.set parent.id (parent.expandedBy worker decision)) ↔
      SplitsWell task split := by
  refine ⟨fun hafter => ⟨?_, fun child hchild dependency hdep => ?_⟩,
    h.manifest hs hparent hopen hmanifest⟩
  · have hrel : Dict.Rel SameRow units (units.set parent.id (parent.expandedBy worker decision)) :=
      h.expanded_rel hparent
    have hpositions := hafter.positions
    rw [hrel.map_values_eq fun _ _ h => h.position] at hpositions
    exact (h.nodup_positions_iff hmanifest).1 hpositions
  · have hsound := (h.sound hs).set (k := parent.id) (v := parent.expandedBy worker decision) rfl
      fun _ => rfl
    have hne := h.child_ne_parent hparent hchild
    have hnotparent : dependency ≠ parent.id := fun he =>
      h.not_parent child hchild (he ▸ List.mem_append_right _ hdep)
    -- the child's own row in the new manifest still waits for the dependency
    have hrow := h.get?_iff.2 ⟨_, Or.inr ⟨child, hchild, rfl, rfl⟩, rfl⟩
    have hwaits : dependency ∈ (redirect parent.id split.replacementDependencyIds child.id
        (childUnit task.record.id parent child)).dependencies :=
      (mem_redirect_of_ne hne).2
        (Or.inl ⟨Dict.mem_fromKeys.2 (List.mem_append_right _ hdep), hnotparent⟩)
    have hstored := (Dict.get?_set_of_ne (v := parent.expandedBy worker decision) hne).trans hrow
    have hmem := Dict.mem_values_of_get? hstored
    have hknown := hafter.known _ hmem dependency hwaits
    rw [values_id_eq_keys hsound, Dict.mem_keys_iff] at hknown
    obtain ⟨other, hother⟩ := hknown
    have hotheropen := hafter.replaced _ hmem (by simp [childUnit, unitFromSpec]) other
      (Dict.mem_values_of_get? hother) ((hsound.id_eq _ _ hother).symm ▸ hwaits)
    rw [Dict.get?_set_of_ne hnotparent] at hother
    obtain ⟨u, hu | ⟨sibling, hsibling, hid, -⟩, rfl⟩ := h.get?_iff.1 hother
    · exact Or.inr ⟨u, hu, hotheropen⟩
    · exact Or.inl (List.mem_map.2 ⟨sibling, hsibling, hid⟩)

end Split

/-! ## Every task of every run -/

/-- If the event is an expansion that is accepted, the split is of the right kind. -/
def ExpandsWell (now : Int) (e : TaskEvent) (task : StoredLongTask) : Prop :=
  match e with
  | .call (.expandUnit unitId workerId leaseEpoch split decision) =>
    ∀ parent worker units, Accepts now task unitId workerId leaseEpoch split decision parent
      worker units → SplitsWell task split
  | _ => True

variable {task : StoredLongTask}

theorem Accepts.opened {now : Int} {unitId workerId worker : String}
    {leaseEpoch : Int} {split : LongTaskSplitResult} {decision : FailureDecision}
    {parent : LongTaskUnitRecord} {units : Dict String LongTaskUnitRecord}
    (h : Accepts now task unitId workerId leaseEpoch split decision parent worker units) :
    parent.status ≠ .expanded :=
  LongTaskUnitStatus.ne_expanded_of_active
    (active_of_live (live_of_holdsClaim (holdsClaim_of_heldBy h.held)))

/-- What an accepted expansion stores. -/
theorem Accepts.units_apply {now : Int} {unitId workerId worker : String}
    {leaseEpoch : Int} {split : LongTaskSplitResult} {decision : FailureDecision}
    {parent : LongTaskUnitRecord} {units : Dict String LongTaskUnitRecord}
    (h : Accepts now task unitId workerId leaseEpoch split decision parent worker units) :
    ((TaskEvent.call (.expandUnit unitId workerId leaseEpoch split decision)).apply now task).units =
      units.set parent.id (parent.expandedBy worker decision) := by
  have hchildren : split.children.isEmpty = false := by simpa using h.nonempty
  simp only [TaskEvent.apply, TaskOp.apply, TaskOp.method, LongTaskRepository.expandUnit,
    h.disposition, hchildren, ne_eq, not_true_eq_false, Bool.false_eq_true, if_false, Except.map,
    Action.final_map]
  rw [TaskAction.requireUnit_bind, h.found]
  simp only
  rw [if_neg h.opened, TaskAction.requireUnitClaim_bind, if_neg (by simp [h.deadline]), h.held]
  simp only
  rw [Action.final_read_bind, h.checked, Action.final_ofExcept_bind]
  simp only
  rw [h.prospective_eq, Action.final_ofExcept_bind]
  simp only [Action.final_write_bind, TaskAction.final_bind_record, TaskAction.units_refreshTotals]

theorem Move.manifest {now : Int} {e : TaskEvent}
    {granted : Option LongTaskUnitRecord} {units : Dict String LongTaskUnitRecord}
    {status : LongTaskStatus} (hmove : Move now task e granted units status)
    (hwell : ExpandsWell now e task) (hs : UnitsSound task.units) (h : Manifest task.units) :
    Manifest units := by
  have hrewritten : ∀ {units : Dict String LongTaskUnitRecord},
      Dict.Rel SameUnit task.units units → Manifest units :=
    fun hrel => h.of_rel (hrel.mono fun _ _ h => h.samePlace)
  cases hmove with
  | stay | start | finalFailed | finalCompleted | finalPaused => exact h
  | halt hrel => exact hrewritten (hrel.mono fun _ _ h => h.toSameUnit)
  | resume hrel => exact hrewritten (hrel.mono fun _ _ h => h.toSameUnit)
  | lapse hrel => exact hrewritten (hrel.mono fun _ _ h => h.kept.toSameUnit)
  | grant hrel _ stored claimable =>
    refine (hrewritten (hrel.mono fun _ _ h => h.kept.toSameUnit)).of_rel
      (Dict.Rel.set stored ⟨⟨rfl, rfl, rfl, rfl⟩, ?_⟩ SamePlace.refl)
    refine iff_of_false (by simp [LongTaskUnitRecord.claimed]) fun hexpanded => ?_
    unfold StoredLongTask.claimable at claimable
    simp [hexpanded, LongTaskUnitStatus.waiting, LongTaskUnitStatus.active] at claimable
  | hold holds same | settle holds same =>
    exact hrewritten (Dict.Rel.set holds.stored same SameUnit.refl)
  | interrupt holds =>
    exact hrewritten (Dict.Rel.set holds.stored
      (LongTaskUnitRecord.halted_interrupted holds.active _).toSameUnit SameUnit.refl)
  | expand holds deadline found held checked prospective_eq disposition nonempty =>
    have haccepts := Accepts.mk disposition nonempty deadline found held checked prospective_eq
    exact (split_of_prospective checked prospective_eq).manifest hs holds.stored haccepts.opened h
      (hwell _ _ _ haccepts)

variable {pyStr : Json → String}

/-- The run rule: expansions that split well keep every manifest. -/
theorem manifest_of_expandsWell {run : List (Int × LongTaskOp)}
    (hrun : Along (LongTaskState.step pyStr) (Meets ExpandsWell) .empty run) :
    (exec (LongTaskState.step pyStr) .empty run).All fun task =>
      UnitsSound task.units ∧ Manifest task.units :=
  forall_task_exec_move manifest_newTask
    (fun _ _ _ hwell hs h hmove => hmove.manifest hwell hs h)
    (all_empty _) (all_empty _) hrun

/-- **The manifest of a task.**  In every run whose accepted expansions split well, every task
keeps the manifest invariant; and in each state of such a run an accepted expansion keeps it if
and only if it splits well. -/
theorem manifest_of_splitsWell {run : List (Int × LongTaskOp)}
    (hrun : Along (LongTaskState.step pyStr) (Meets ExpandsWell) .empty run) {k : String}
    {task : StoredLongTask}
    (hget : (exec (LongTaskState.step pyStr) .empty run).tasks.get? k = some task) :
    Manifest task.units ∧
      ∀ (now : Int) (unitId workerId : String) (leaseEpoch : Int) (split : LongTaskSplitResult)
        (decision : FailureDecision) (parent : LongTaskUnitRecord) (worker : String)
        (units : Dict String LongTaskUnitRecord),
        Accepts now task unitId workerId leaseEpoch split decision parent worker units →
        (Manifest ((TaskEvent.call (.expandUnit unitId workerId leaseEpoch split decision)).apply
            now task).units ↔ SplitsWell task split) := by
  obtain ⟨hs, hmanifest⟩ := manifest_of_expandsWell hrun k task hget
  refine ⟨hmanifest, fun now unitId workerId leaseEpoch split decision parent worker units h => ?_⟩
  have hparent := get?_of_lookupUnit hs h.found
  rw [h.units_apply]
  exact (split_of_prospective h.checked h.prospective_eq).manifest_iff hs hparent h.opened hmanifest

/-- The decision a split is settled with. -/
def splitDecision : FailureDecision :=
  ⟨.modelOutputInvalid, "too_large", .splitPart, .notStarted, .local⟩

/-- The only unit `u` is split into `a` and `b`, at the given positions. -/
def splitRun (a b : Nat) : List (Int × LongTaskOp) :=
  [(0, .create "t" (soloCommand none)), (1, .onTask "t" (.start 1)),
    (2, .onTask "t" (.claimUnit none "w" 10)),
    (3, .onTask "t" (.expandUnit "u" "w" 1
      ⟨[soloUnit "a" a, soloUnit "b" b], [], by simp [soloUnit], by simp [soloUnit], by simp⟩ splitDecision))]

theorem manifest_splitRun :
    ∃ task, (exec (LongTaskState.step noStr) .empty (splitRun 1 2)).tasks.get? "t" = some task ∧
      Manifest task.units := by
  have hstored : ((exec (LongTaskState.step noStr) .empty (splitRun 1 2)).tasks.get? "t").isSome =
      true := by decide
  obtain ⟨task, hget⟩ := Option.isSome_iff_exists.1 hstored
  have hwell : Along (LongTaskState.step noStr) (Meets ExpandsWell) .empty (splitRun 1 2) := by
    refine ⟨?_, ?_, ?_, ?_, trivial⟩ <;> intro k task e _ he <;>
      simp only [LongTaskOp.event] at he
    · cases he
    all_goals
      split at he
      · cases he
        simp [ExpandsWell, SplitsWell, soloUnit]
      · cases he
  exact ⟨task, hget, (manifest_of_splitsWell hwell hget).1⟩

/-- Two children at one position are both stored. -/
theorem manifest_positions_collide :
    ¬ ∀ (pyStr : Json → String) (run : List (Int × LongTaskOp)) (k : String)
        (task : StoredLongTask),
      (exec (LongTaskState.step pyStr) .empty run).tasks.get? k = some task →
      Manifest task.units := by
  intro h
  have hafter : ((exec (LongTaskState.step noStr) .empty (splitRun 1 1)).tasks.get? "t").map
      (fun task => task.units.values.map (·.position)) = some [0, 1, 1] := by decide
  obtain ⟨task, hget, hpositions⟩ := Option.map_eq_some_iff.1 hafter
  have hnodup := (h noStr (splitRun 1 1) "t" task hget).positions
  rw [hpositions] at hnodup
  exact absurd hnodup (by decide)

end Purra
