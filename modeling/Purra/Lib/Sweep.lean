import Mathlib.Data.List.Sort

/-!
# Sweeping a changing set in order

A set is swept by positions: at a position one lists the members behind it in order, handles the
first few and moves the position to the last of them; when the whole listing has been handled
the sweep is over.  The set may change between any two listings.

* `Keys` — a set by the list of its members in order.
* `listing` — the members behind a position, in order.
* `Swept` — what has been handled up to a position: in order, and including every member of `R`,
  those that never leave the set.
* `Swept.advance`, `Swept.finish` — the two ways to go on.
-/

namespace Purra

namespace Sweep

variable {α : Type} [LinearOrder α]

/-- The element is behind the position. -/
def Behind (position : Option α) (a : α) : Prop := ∀ p ∈ position, p < a

instance (position : Option α) (a : α) : Decidable (Behind position a) :=
  match position with
  | none => isTrue fun _ h => by cases h
  | some p => decidable_of_iff (p < a) ⟨fun h q hq => by cases hq; exact h, fun h => h p rfl⟩

/-- A set, by its members in order: the keys of an ordered index. -/
structure Keys (α : Type) [LinearOrder α] where
  keys : List α
  sorted : keys.Pairwise (· < ·)

instance : Membership α (Keys α) := ⟨fun index a => a ∈ index.keys⟩

instance (a : α) (index : Keys α) : Decidable (a ∈ index) :=
  inferInstanceAs (Decidable (a ∈ index.keys))

/-- The members behind a position, in order. -/
def listing (index : Keys α) (position : Option α) : List α :=
  index.keys.filter (Behind position ·)

theorem mem_listing {index : Keys α} {position : Option α} {a : α} :
    a ∈ listing index position ↔ a ∈ index ∧ Behind position a := by
  unfold listing
  rw [List.mem_filter, decide_eq_true_eq]
  rfl

theorem listing_pairwise (index : Keys α) (position : Option α) :
    (listing index position).Pairwise (· < ·) := index.sorted.filter _

/-- In a sorted list, what is not behind a member of a first part is in that part. -/
theorem mem_take_of_le {l : List α} (hl : l.Pairwise (· < ·)) {n : Nat} {a q : α} (hq : q ∈ l.take n)
    (ha : a ∈ l) (hle : a ≤ q) : a ∈ l.take n := by
  rw [← List.take_append_drop n l] at hl ha
  rcases List.mem_append.1 ha with h | h
  · exact h
  · exact absurd ((List.pairwise_append.1 hl).2.2 q hq a h) (not_lt.2 hle)

/-- In a sorted list, the last member is the greatest. -/
theorem le_getLast? {l : List α} (hl : l.Pairwise (· < ·)) {a q : α} (hq : l.getLast? = some q)
    (ha : a ∈ l) : a ≤ q := by
  obtain ⟨front, rfl⟩ := List.getLast?_eq_some_iff.1 hq
  rcases List.mem_append.1 ha with h | h
  · exact ((List.pairwise_append.1 hl).2.2 a h q List.mem_cons_self).le
  · exact (List.mem_singleton.1 h).le

/-- What has been handled up to a position. -/
structure Swept (R : α → Prop) (position : Option α) (done : List α) : Prop where
  sorted : done.Pairwise (· < ·)
  bounded : ∀ a ∈ done, ¬ Behind position a
  covers : ∀ a, R a → ¬ Behind position a → a ∈ done

theorem swept_nil (R : α → Prop) : Swept R none ([] : List α) where
  sorted := .nil
  bounded a h := by cases h
  covers a _ h := absurd (fun _ hp => by cases hp) h

variable {R : α → Prop} {position : Option α} {done : List α} {index : Keys α}

/-- What has been handled comes before what is listed. -/
theorem Swept.before (h : Swept R position done) {a b : α} (ha : a ∈ done)
    (hb : Behind position b) : a < b := by
  by_contra hle
  exact h.bounded a ha fun p hp => lt_of_lt_of_le (hb p hp) (not_lt.1 hle)

theorem Swept.append (h : Swept R position done) {l : List α} (hl : l.Pairwise (· < ·))
    (hbehind : ∀ a ∈ l, Behind position a) : (done ++ l).Pairwise (· < ·) :=
  List.pairwise_append.2 ⟨h.sorted, hl, fun _ ha b hb => h.before ha (hbehind b hb)⟩

/-- The first `n` listed members are handled, and the position moves to the last of them. -/
theorem Swept.advance (h : Swept R position done) (hR : ∀ a, R a → a ∈ index) {n : Nat} {q : α}
    (hq : ((listing index position).take n).getLast? = some q) :
    Behind position q ∧ Swept R (some q) (done ++ (listing index position).take n) := by
  have hlist := listing_pairwise index position
  have htake : ((listing index position).take n).Pairwise (· < ·) := hlist.sublist (List.take_sublist _ _)
  have hbehind : ∀ a ∈ (listing index position).take n, Behind position a := fun a ha =>
    (mem_listing.1 (List.mem_of_mem_take ha)).2
  have hmem : q ∈ (listing index position).take n := List.mem_of_getLast? hq
  have hposition : Behind position q := hbehind q hmem
  have hle : ∀ {a : α}, ¬ Behind (some q) a → a ≤ q := by
    intro a ha
    by_contra hlt
    exact ha fun p hp => by
      cases hp
      exact not_le.1 hlt
  refine ⟨hposition, h.append htake hbehind, ?_, ?_⟩
  · intro a ha hnot
    have hlt := hnot q rfl
    rcases List.mem_append.1 ha with ha | ha
    · exact absurd (h.before ha hposition) (not_lt.2 hlt.le)
    · exact absurd (le_getLast? htake hq ha) (not_le.2 hlt)
  · intro a ha hnot
    by_cases hold : Behind position a
    · exact List.mem_append_right _
        (mem_take_of_le hlist hmem (mem_listing.2 ⟨hR a ha, hold⟩) (hle hnot))
    · exact List.mem_append_left _ (h.covers a ha hold)

/-- The whole listing is handled: everything that stayed has been. -/
theorem Swept.finish (h : Swept R position done) (hR : ∀ a, R a → a ∈ index) :
    (done ++ listing index position).Pairwise (· < ·) ∧
      ∀ a, R a → a ∈ done ++ listing index position := by
  refine ⟨h.append (listing_pairwise _ _) fun a ha => (mem_listing.1 ha).2, fun a ha => ?_⟩
  by_cases hold : Behind position a
  · exact List.mem_append_right _ (mem_listing.2 ⟨hR a ha, hold⟩)
  · exact List.mem_append_left _ (h.covers a ha hold)

end Sweep

end Purra
