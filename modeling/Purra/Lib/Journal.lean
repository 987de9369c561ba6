import Mathlib.Data.List.Nodup
import Mathlib.Data.List.Range

/-!
# Views of one log

Several journals that are kept side by side are often views of one log: the entries that
belong to one owner, in the order in which they were written.

* `view f k log` — the entries that `f` assigns to `k`.
* `Numbered f number log` — every view is numbered `1, 2, 3, …` without a gap;
  `Numbered.append` is the step that keeps it so.
* `view_view` — a view of a coarser view, which is how one sees that the coarser journal
  interleaves the finer ones.
* `nodup_flatMap_view` — entries with distinct keys have distinct keys across the views.
-/

namespace Purra

section

variable {α κ κ' : Type} [DecidableEq κ] [DecidableEq κ'] (f : α → κ) (g : α → κ')

/-- The entries of a log that belong to `k`. -/
def view (k : κ) (log : List α) : List α := log.filter fun a => f a = k

/-- Every view of the log is numbered from one on. -/
def Numbered (number : α → Nat) (log : List α) : Prop :=
  ∀ k, (view f k log).map number = List.range' 1 (view f k log).length

variable {f g} {number : α → Nat} {log : List α} {a : α} {k : κ}

theorem mem_view : a ∈ view f k log ↔ a ∈ log ∧ f a = k := by
  simp [view]

theorem view_append_self : view f (f a) (log ++ [a]) = view f (f a) log ++ [a] := by
  simp [view]

theorem view_append_of_ne (h : f a ≠ k) : view f k (log ++ [a]) = view f k log := by
  simp [view, h]

theorem numbered_nil : Numbered f number [] := fun _ => rfl

/-- The next entry takes the next number of its view. -/
theorem Numbered.append (h : Numbered f number log)
    (ha : number a = (view f (f a) log).length + 1) : Numbered f number (log ++ [a]) := by
  intro k
  by_cases hk : f a = k
  · subst hk
    rw [view_append_self, List.map_append, h (f a), List.length_append, List.map_singleton, ha,
      List.length_singleton, List.range'_concat]
    simp [Nat.add_comm]
  · rw [view_append_of_ne hk]
    exact h k

/-- When the entries of `k` all belong to `r`, they are a view of the entries of `r`. -/
theorem view_view {r : κ'} (h : ∀ a ∈ log, f a = k → g a = r) :
    view f k (view g r log) = view f k log := by
  unfold view
  rw [List.filter_filter]
  refine List.filter_congr fun a ha => ?_
  by_cases hk : f a = k
  · simp [hk, h a ha hk]
  · simp [hk]

/-- Keys that are distinct in the log are distinct across the views. -/
theorem nodup_flatMap_view {β : Type} {key : α → β} (hkeys : (log.map key).Nodup)
    {owners : List κ} (howners : owners.Nodup) :
    ((owners.flatMap fun k => view f k log).map key).Nodup := by
  have hsub : ∀ k, (view f k log).Sublist log := fun k => List.filter_sublist
  rw [List.map_flatMap, List.nodup_flatMap]
  refine ⟨fun k _ => hkeys.sublist ((hsub k).map key), howners.imp fun {k k'} hne => ?_⟩
  intro b hb hb'
  obtain ⟨a, ha, rfl⟩ := List.mem_map.1 hb
  obtain ⟨a', ha', heq⟩ := List.mem_map.1 hb'
  have hsame : a' = a :=
    List.inj_on_of_nodup_map hkeys ((hsub k').subset ha') ((hsub k).subset ha) heq
  subst hsame
  exact hne ((mem_view.1 ha).2.symm.trans (mem_view.1 ha').2)

end

end Purra
