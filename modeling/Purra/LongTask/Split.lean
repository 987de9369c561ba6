import Purra.LongTask.Moves

/-!
# The manifest a split leaves

`expand_unit` adds the children of a unit to the manifest and redirects whoever
waited for the unit to its replacements.  This file says, unit by unit, what the
new manifest holds.

* `childUnit` — the record of a child; `childRecord_eq_ok`: it is what the first
  loop of `expand_unit` stores.
* `Split` — the facts an accepted expansion establishes; `split_of_prospective`.
* `Split.get?` — **a unit of the new manifest is a unit of the old one or a child,
  with its dependencies redirected**.
-/

namespace Purra

open LongTaskRepository

/-- What `expand_unit` stores for a child of `parent`, before dependencies are redirected. -/
def childUnit (taskId : String) (parent : LongTaskUnitRecord) (child : LongTaskUnitSpec) :
    LongTaskUnitRecord :=
  { unitFromSpec taskId child with
    dependencies := Dict.fromKeys (parent.dependencies ++ child.dependencies)
    parentUnitId := child.parentUnitId.or (some parent.id) }

theorem childRecord_eq_ok {taskId : String} {parent : LongTaskUnitRecord}
    {child : LongTaskUnitSpec} {p : String × LongTaskUnitRecord}
    (h : childRecord taskId parent child = .ok p) :
    p = (child.id, childUnit taskId parent child) ∧
      parent.id ∉ parent.dependencies ++ child.dependencies ∧
      child.id ∉ parent.dependencies ++ child.dependencies := by
  unfold childRecord at h
  simp only at h
  split at h
  · cases h
  · rename_i hparent
    obtain ⟨spec, hspec, h⟩ := bind_eq_ok h
    unfold LongTaskUnitSpec.replaceDependencies at hspec
    split at hspec
    · cases hspec
    · rename_i hself
      cases hspec
      cases h
      rw [Dict.mem_fromKeys] at hparent hself
      exact ⟨rfl, hparent, hself⟩

theorem mapM_childRecord {taskId : String} {parent : LongTaskUnitRecord}
    {children : List LongTaskUnitSpec} {records : List (String × LongTaskUnitRecord)}
    (h : children.mapM (childRecord taskId parent) = .ok records) :
    records = children.map (fun child => (child.id, childUnit taskId parent child)) ∧
      ∀ child ∈ children, parent.id ∉ parent.dependencies ++ child.dependencies := by
  induction children generalizing records with
  | nil =>
    cases h
    exact ⟨rfl, by simp⟩
  | cons child children ih =>
    rw [List.mapM_cons] at h
    obtain ⟨p, hp, h⟩ := bind_eq_ok h
    obtain ⟨rest, hrest, h⟩ := bind_eq_ok h
    cases h
    obtain ⟨rfl, hparent, -⟩ := childRecord_eq_ok hp
    obtain ⟨rfl, hparents⟩ := ih hrest
    refine ⟨rfl, fun c hc => ?_⟩
    rcases List.mem_cons.1 hc with rfl | hc
    · exact hparent
    · exact hparents c hc

theorem checkChildren_eq_ok {task : StoredLongTask} {split : LongTaskSplitResult}
    (h : checkChildren task split = .ok ()) :
    (∀ child ∈ split.children, child.id ∉ task.units.keys) ∧
      (∀ child ∈ split.children, child.semanticKey ∉ task.units.values.map (·.semanticKey)) ∧
      ∀ child ∈ split.children, child.position ∉ task.units.values.map (·.position) := by
  unfold checkChildren at h
  split_ifs at h with hid hkey hpos
  simp only [List.any_eq_true, decide_eq_true_eq, not_exists, not_and] at hid hkey hpos
  exact ⟨hid, hkey, hpos⟩

/-- What an accepted expansion of `parent` establishes about the manifest it stores, the parent's
own record apart. -/
structure Split (task : StoredLongTask) (parent : LongTaskUnitRecord)
    (split : LongTaskSplitResult) (units : Dict String LongTaskUnitRecord) : Prop where
  new_ids : ∀ child ∈ split.children, child.id ∉ task.units.keys
  new_semanticKeys : ∀ child ∈ split.children,
    child.semanticKey ∉ task.units.values.map (·.semanticKey)
  new_positions : ∀ child ∈ split.children,
    child.position ∉ task.units.values.map (·.position)
  not_parent : ∀ child ∈ split.children, parent.id ∉ parent.dependencies ++ child.dependencies
  entries_eq : units.entries = (task.units.entries ++ split.children.map fun child =>
    (child.id, childUnit task.record.id parent child)).map fun p =>
      (p.1, redirect parent.id split.replacementDependencyIds p.1 p.2)
  acyclic : Topology.acyclic (units.values.map fun unit => (unit.id, unit.dependencies)) = true

theorem split_of_prospective {task : StoredLongTask} {parent : LongTaskUnitRecord}
    {split : LongTaskSplitResult} {units : Dict String LongTaskUnitRecord}
    (hchecked : checkChildren task split = .ok ())
    (h : prospective task parent split = .ok units) : Split task parent split units := by
  obtain ⟨hids, hkeys, hpositions⟩ := checkChildren_eq_ok hchecked
  obtain ⟨records, hrecords, h⟩ := bind_eq_ok h
  obtain ⟨rfl, hparent⟩ := mapM_childRecord hrecords
  simp only at h
  split_ifs at h with hreplace hacyclic
  cases h
  refine ⟨hids, hkeys, hpositions, hparent, ?_, hacyclic⟩
  have hextend : (task.units.extend (split.children.map fun child =>
      (child.id, childUnit task.record.id parent child))).entries =
      task.units.entries ++ split.children.map fun child =>
        (child.id, childUnit task.record.id parent child) := by
    refine Dict.entries_extend ?_ ?_
    · simpa [List.map_map, Function.comp_def] using split.nodup_ids
    · simpa using hids
  simp only [Dict.map, hextend]

namespace Split

variable {task : StoredLongTask} {parent : LongTaskUnitRecord} {split : LongTaskSplitResult}
  {units : Dict String LongTaskUnitRecord}

/-- **The units of the new manifest**: those of the old one and the children, redirected. -/
theorem get?_iff (h : Split task parent split units) {k : String} {v : LongTaskUnitRecord} :
    units.get? k = some v ↔
      ∃ u, (task.units.get? k = some u ∨
          ∃ child ∈ split.children, child.id = k ∧ u = childUnit task.record.id parent child) ∧
        v = redirect parent.id split.replacementDependencyIds k u := by
  rw [← Dict.mem_entries_iff, h.entries_eq, List.mem_map]
  simp only [List.mem_append, List.mem_map, Prod.exists, Prod.mk.injEq, Dict.mem_entries_iff]
  constructor
  · rintro ⟨k', u, hu, rfl, rfl⟩
    rcases hu with hu | ⟨child, hchild, rfl, rfl⟩
    · exact ⟨u, Or.inl hu, rfl⟩
    · exact ⟨_, Or.inr ⟨child, hchild, rfl, rfl⟩, rfl⟩
  · rintro ⟨u, hu, rfl⟩
    refine ⟨k, u, ?_, rfl, rfl⟩
    rcases hu with hu | ⟨child, hchild, rfl, rfl⟩
    · exact Or.inl hu
    · exact Or.inr ⟨child, hchild, rfl, rfl⟩

theorem mem_keys (h : Split task parent split units) {k : String} :
    k ∈ units.keys ↔ k ∈ task.units.keys ∨ ∃ child ∈ split.children, child.id = k := by
  rw [Dict.mem_keys_iff]
  simp only [h.get?_iff, Dict.mem_keys_iff]
  constructor
  · rintro ⟨v, u, hu | ⟨child, hchild, hk, -⟩, -⟩
    · exact Or.inl ⟨u, hu⟩
    · exact Or.inr ⟨child, hchild, hk⟩
  · rintro (⟨u, hu⟩ | ⟨child, hchild, hk⟩)
    · exact ⟨_, u, Or.inl hu, rfl⟩
    · exact ⟨_, _, Or.inr ⟨child, hchild, hk, rfl⟩, rfl⟩

end Split

/-! Redirecting touches dependencies only. -/

section

variable (parent : String) (replacement : List String) (k : String) (unit : LongTaskUnitRecord)

@[simp] theorem redirect_id : (redirect parent replacement k unit).id = unit.id := rfl

@[simp] theorem redirect_position :
    (redirect parent replacement k unit).position = unit.position := rfl

@[simp] theorem redirect_semanticKey :
    (redirect parent replacement k unit).semanticKey = unit.semanticKey := rfl

@[simp] theorem redirect_status : (redirect parent replacement k unit).status = unit.status := rfl

@[simp] theorem redirect_required :
    (redirect parent replacement k unit).required = unit.required := rfl

@[simp] theorem redirect_attempt :
    (redirect parent replacement k unit).attempt = unit.attempt := rfl

@[simp] theorem redirect_maxAttempts :
    (redirect parent replacement k unit).maxAttempts = unit.maxAttempts := rfl

@[simp] theorem redirect_leaseEpoch :
    (redirect parent replacement k unit).leaseEpoch = unit.leaseEpoch := rfl

@[simp] theorem redirect_runId : (redirect parent replacement k unit).runId = unit.runId := rfl

@[simp] theorem redirect_live (now : Int) :
    (redirect parent replacement k unit).live now = unit.live now := rfl

end

end Purra
