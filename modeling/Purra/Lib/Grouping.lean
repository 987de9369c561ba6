import Purra.Lib.Dict

/-!
# Grouping

Rows sorted into groups by a key, each group in the order of its rows.

* `groupBy` — the groups, in the order in which their keys first appear.
* `mem_groupBy` — a group is never empty, and holds the rows of its key.
* `select_of_perm` — in whatever order the groups are taken, the rows under a key are
  those of the list that was grouped, in its order.
-/

namespace Purra

section Grouping

variable {κ α : Type} [DecidableEq κ] (key : α → κ)

/-- `groups.setdefault(key(row), []).append(row)`. -/
def groupOnto (groups : Dict κ (List α)) (row : α) : Dict κ (List α) :=
  groups.set (key row) ((groups.get? (key row)).getD [] ++ [row])

/-- The rows by their keys. -/
def groupBy (rows : List α) : Dict κ (List α) := rows.foldl (groupOnto key) Dict.empty

variable {key}

theorem get?_foldl_groupOnto (rows : List α) (groups : Dict κ (List α)) (k : κ) :
    (rows.foldl (groupOnto key) groups).get? k =
      if rows.filter (key · = k) = [] then groups.get? k
      else some ((groups.get? k).getD [] ++ rows.filter (key · = k)) := by
  induction rows generalizing groups with
  | nil => simp
  | cons row rest ih =>
    rw [List.foldl_cons, ih, groupOnto, Dict.get?_set]
    by_cases hkey : key row = k
    · subst hkey
      by_cases hrest : rest.filter (key · = key row) = []
      · simp [hrest]
      · simp [hrest]
    · have hkey' : k ≠ key row := fun h => hkey h.symm
      simp [hkey, hkey']

theorem get?_groupBy (rows : List α) (k : κ) :
    (groupBy key rows).get? k =
      if rows.filter (key · = k) = [] then none else some (rows.filter (key · = k)) := by
  rw [groupBy, get?_foldl_groupOnto]
  have hnone : (Dict.empty : Dict κ (List α)).get? k = none := rfl
  simp [hnone]

/-- A group holds the rows of its key, and at least one. -/
theorem mem_groupBy {rows : List α} {group : κ × List α} :
    group ∈ (groupBy key rows).entries ↔
      group.2 ≠ [] ∧ group.2 = rows.filter (key · = group.1) := by
  obtain ⟨k, members⟩ := group
  rw [Dict.mem_entries_iff, get?_groupBy]
  by_cases hempty : rows.filter (key · = k) = []
  · simp [hempty]
  · simp only [if_neg hempty, Option.some.injEq]
    constructor
    · rintro rfl
      exact ⟨hempty, rfl⟩
    · exact fun h => h.2.symm

/-- Among pairs with distinct keys one has the key. -/
theorem filter_key_of_mem {β : Type} {pairs : List (κ × β)}
    (hnodup : (pairs.map Prod.fst).Nodup) {pair : κ × β} (h : pair ∈ pairs) :
    pairs.filter (·.1 = pair.1) = [pair] := by
  induction pairs with
  | nil => cases h
  | cons first rest ih =>
    obtain ⟨hfirst, hrest⟩ := List.nodup_cons.1 hnodup
    rcases List.mem_cons.1 h with rfl | h
    · have hother : rest.filter (·.1 = pair.1) = [] := by
        refine List.filter_eq_nil_iff.2 fun other hmem hkey => hfirst ?_
        exact List.mem_map.2 ⟨other, hmem, of_decide_eq_true hkey⟩
      simp [hother]
    · have hkey : first.1 ≠ pair.1 := fun hkey =>
        hfirst (List.mem_map.2 ⟨pair, h, hkey.symm⟩)
      simp [hkey, ih hrest h]

/-- What groups in some order hold under one key. -/
theorem select_of_perm {rows : List α} {groups : List (κ × List α)}
    (h : groups.Perm (groupBy key rows).entries) (k : κ) :
    (groups.filter (·.1 = k)).flatMap (·.2) = rows.filter (key · = k) := by
  have hnodup : (groups.map Prod.fst).Nodup :=
    (h.map Prod.fst).nodup_iff.2 (groupBy key rows).nodup_keys
  have hmem (group) : group ∈ groups ↔ group.2 ≠ [] ∧ group.2 = rows.filter (key · = group.1) := by
    rw [h.mem_iff, mem_groupBy]
  by_cases hempty : rows.filter (key · = k) = []
  · have hnone : groups.filter (·.1 = k) = [] := by
      refine List.filter_eq_nil_iff.2 fun group hgroup hkey => ?_
      obtain ⟨hne, heq⟩ := (hmem group).1 hgroup
      rw [of_decide_eq_true hkey, hempty] at heq
      exact hne heq
    rw [hnone, hempty, List.flatMap_nil]
  · have hgroup : (k, rows.filter (key · = k)) ∈ groups := (hmem _).2 ⟨hempty, rfl⟩
    have hone : groups.filter (·.1 = k) = [(k, rows.filter (key · = k))] :=
      filter_key_of_mem hnodup hgroup
    rw [hone]
    simp

end Grouping

end Purra
