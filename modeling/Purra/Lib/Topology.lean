import Mathlib.Data.Set.Finite.Basic
import Mathlib.Order.WellFounded

/-!
# Deciding that a dependency table has no cycle

A dependency table lists, for each node, the nodes it depends on; a dependency
that has no row of its own is a node without dependencies.  A topological sorter
accepts the table exactly when no node depends on itself, however indirectly.

* `peel` — one round of the sorter: drop the rows whose dependencies have all
  been emitted already.
* `acyclic` — the Boolean test: peeling as often as there are rows empties the
  table.
* `acyclic_iff` — **the test is exact**: it passes if and only if the transitive
  closure of the dependency relation is irreflexive.
-/

namespace Purra.Topology

variable {κ : Type}

/-- `Depends g a b`: the row of `a` names `b`. -/
def Depends (g : List (κ × List κ)) (a b : κ) : Prop := ∃ row ∈ g, row.1 = a ∧ b ∈ row.2

/-- No node depends on itself, however indirectly. -/
def Acyclic (g : List (κ × List κ)) : Prop := ∀ a, ¬ Relation.TransGen (Depends g) a a

variable {g : List (κ × List κ)}

theorem Acyclic.mono {h : List (κ × List κ)} (hsub : ∀ a b, Depends g a b → Depends h a b)
    (hh : Acyclic h) : Acyclic g := fun a ha =>
  hh a (Relation.TransGen.mono hsub _ _ ha)

/-- A table whose nodes split into two parts without edges between them is acyclic if both parts
are. -/
theorem Acyclic.union {g₁ g₂ : List (κ × List κ)} (h₁ : Acyclic g₁) (h₂ : Acyclic g₂)
    (S : κ → Prop) (hin : ∀ a b, Depends g a b → S a → Depends g₁ a b ∧ S b)
    (hout : ∀ a b, Depends g a b → ¬ S a → Depends g₂ a b ∧ ¬ S b) : Acyclic g := by
  have hinside : ∀ {a b}, Relation.TransGen (Depends g) a b → S a →
      Relation.TransGen (Depends g₁) a b ∧ S b := by
    intro a b hab ha
    induction hab with
    | single hab => exact ⟨.single (hin _ _ hab ha).1, (hin _ _ hab ha).2⟩
    | tail _ hbc ih => exact ⟨ih.1.tail (hin _ _ hbc ih.2).1, (hin _ _ hbc ih.2).2⟩
  have houtside : ∀ {a b}, Relation.TransGen (Depends g) a b → ¬ S a →
      Relation.TransGen (Depends g₂) a b ∧ ¬ S b := by
    intro a b hab ha
    induction hab with
    | single hab => exact ⟨.single (hout _ _ hab ha).1, (hout _ _ hab ha).2⟩
    | tail _ hbc ih => exact ⟨ih.1.tail (hout _ _ hbc ih.2).1, (hout _ _ hbc ih.2).2⟩
  intro a ha
  by_cases hmem : S a
  · exact h₁ a (hinside ha hmem).1
  · exact h₂ a (houtside ha hmem).1

variable [DecidableEq κ]

/-- One round of the sorter: keep the rows that still wait for another row. -/
def peel (g : List (κ × List κ)) : List (κ × List κ) :=
  g.filter fun row => row.2.any fun b => decide (b ∈ g.map Prod.fst)

/-- Peel `n` times. -/
def peelN : Nat → List (κ × List κ) → List (κ × List κ)
  | 0, g => g
  | n + 1, g => peelN n (peel g)

/-- The sorter's verdict on a dependency table. -/
def acyclic (g : List (κ × List κ)) : Bool := (peelN g.length g).isEmpty

theorem mem_peel {row : κ × List κ} :
    row ∈ peel g ↔ row ∈ g ∧ ∃ b ∈ row.2, b ∈ g.map Prod.fst := by
  simp [peel, List.mem_filter]

/-- A set of nodes each of which has a row naming another of them survives every round. -/
theorem survives_peelN {S : κ → Prop} :
    ∀ (n : Nat) {g : List (κ × List κ)},
      (∀ a, S a → ∃ row ∈ g, row.1 = a ∧ ∃ b ∈ row.2, S b) →
      ∀ a, S a → ∃ row ∈ peelN n g, row.1 = a := by
  intro n
  induction n with
  | zero =>
    intro g hS a ha
    obtain ⟨row, hrow, hra, -⟩ := hS a ha
    exact ⟨row, hrow, hra⟩
  | succ n ih =>
    intro g hS a ha
    refine ih (fun x hx => ?_) a ha
    obtain ⟨row, hrow, hrx, b, hb, hSb⟩ := hS x hx
    obtain ⟨row', hrow', hrb, -⟩ := hS b hSb
    exact ⟨row, mem_peel.2 ⟨hrow, b, hb, List.mem_map.2 ⟨row', hrow', hrb⟩⟩, hrx, b, hb, hSb⟩

/-- A table that a full peeling empties has no cycle. -/
theorem Acyclic.of_peelN_eq_nil {n : Nat} (h : peelN n g = []) :
    Acyclic g := by
  intro a ha
  -- the nodes on a cycle through `a` keep each other in the table
  have hS : ∀ x, Relation.TransGen (Depends g) x a ∧ Relation.TransGen (Depends g) a x →
      ∃ row ∈ g, row.1 = x ∧
        ∃ b ∈ row.2, Relation.TransGen (Depends g) b a ∧ Relation.TransGen (Depends g) a b := by
    rintro x ⟨hxa, hax⟩
    obtain ⟨b, ⟨row, hrow, hrx, hb⟩, hba⟩ := Relation.TransGen.head'_iff.1 hxa
    refine ⟨row, hrow, hrx, b, hb, ?_, hax.tail ⟨row, hrow, hrx, hb⟩⟩
    rcases Relation.reflTransGen_iff_eq_or_transGen.1 hba with rfl | hba
    · exact ha
    · exact hba
  obtain ⟨row, hrow, -⟩ := survives_peelN n hS a ⟨ha, ha⟩
  rw [h] at hrow
  exact absurd hrow List.not_mem_nil

theorem peel_depends {a b : κ} (h : Depends (peel g) a b) :
    Depends g a b := by
  obtain ⟨row, hrow, hra, hb⟩ := h
  exact ⟨row, (mem_peel.1 hrow).1, hra, hb⟩

/-- An acyclic table with a row left loses a row in the next round. -/
theorem length_peel_lt (hac : Acyclic g) (hne : g ≠ []) :
    (peel g).length < g.length := by
  by_contra hlen
  have hkeep : ∀ row ∈ g, ∃ b ∈ row.2, b ∈ g.map Prod.fst := by
    have heq : peel g = g := List.filter_sublist.eq_of_length_le (not_lt.1 hlen)
    intro row hrow
    exact (mem_peel.1 (heq.symm ▸ hrow)).2
  -- nodes of the table, ordered by indirect dependency, have a minimal element
  let T := {x : κ // x ∈ g.map Prod.fst}
  let R : T → T → Prop := fun y x => Relation.TransGen (Depends g) x.1 y.1
  have hwf : WellFounded R := by
    have : IsTrans T R := ⟨fun _ _ _ h h' => h'.trans h⟩
    have : Std.Irrefl R := ⟨fun x h => hac x.1 h⟩
    exact Finite.wellFounded_of_trans_of_irrefl R
  obtain ⟨row, hrow⟩ := List.exists_mem_of_ne_nil g hne
  obtain ⟨m, -, hmin⟩ := hwf.has_min Set.univ
    ⟨(⟨row.1, List.mem_map_of_mem hrow⟩ : T), Set.mem_univ _⟩
  obtain ⟨r, hr, hrm⟩ := List.mem_map.1 m.2
  obtain ⟨b, hb, hbg⟩ := hkeep r hr
  exact hmin ⟨b, hbg⟩ (Set.mem_univ _) (Relation.TransGen.single ⟨r, hr, hrm, hb⟩)

theorem peelN_eq_nil_of_acyclic :
    ∀ (n : Nat) {g : List (κ × List κ)}, Acyclic g → g.length ≤ n → peelN n g = [] := by
  intro n
  induction n with
  | zero =>
    intro g _ hlen
    exact List.eq_nil_of_length_eq_zero (Nat.le_zero.1 hlen)
  | succ n ih =>
    intro g hac hlen
    refine ih (hac.mono fun a b => peel_depends) ?_
    by_cases hne : g = []
    · subst hne
      simp [peel]
    · have := length_peel_lt hac hne
      omega

/-- **The sorter is exact**: it accepts a table if and only if the table has no cycle. -/
theorem acyclic_iff : acyclic g = true ↔ Acyclic g := by
  rw [acyclic, List.isEmpty_iff]
  exact ⟨Acyclic.of_peelN_eq_nil, fun h => peelN_eq_nil_of_acyclic _ h le_rfl⟩

end Purra.Topology
