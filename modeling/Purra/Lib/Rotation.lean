import Purra.Lib.Dict

/-!
# Rotating queues

A queue whose members are checked against a list of those that are there now, and whose head is
moved to its tail once it has been served.

* `refill` — drop what is gone, append what is new; what stays keeps its order
  (`filter_prefix_refill`), nothing is there twice (`nodup_refill`).
* `rotate` — the first `n` members go to the end.
* `Within` — at most `p` members stand before an element.  Refilling does not move an element that
  is still there further back (`Within.refill`); serving `n` members either serves it or
  brings it `n` places nearer (`Within.rotate`).
-/

namespace Purra

namespace Rotation

variable {α : Type} [DecidableEq α]

/-- What is left of the queue among the found elements, and behind it the found ones that were not in
the queue. -/
def refill (queue found : List α) : List α :=
  let kept := queue.filter (· ∈ found)
  kept ++ found.filter (· ∉ kept)

/-- The first `n` members go to the end. -/
def rotate (n : Nat) (queue : List α) : List α := queue.drop n ++ queue.take n

variable {queue : List α} {a : α}

theorem mem_refill {found : List α} : a ∈ refill queue found ↔ a ∈ found := by
  unfold refill
  simp only [List.mem_append, List.mem_filter, decide_eq_true_eq]
  constructor
  · rintro (⟨-, h⟩ | ⟨h, -⟩) <;> exact h
  · intro h
    by_cases hq : a ∈ queue
    · exact .inl ⟨hq, h⟩
    · exact .inr ⟨h, fun hkept => hq hkept.1⟩

theorem nodup_refill {found : List α} (hqueue : queue.Nodup) (hfound : found.Nodup) :
    (refill queue found).Nodup := by
  unfold refill
  refine List.nodup_append.2 ⟨hqueue.filter _, hfound.filter _, ?_⟩
  rintro a ha b hb rfl
  have hnew := (List.mem_filter.1 hb).2
  rw [decide_eq_true_eq] at hnew
  exact hnew ha

/-- Those that stay come first, in the order they had. -/
theorem filter_prefix_refill (queue found : List α) :
    queue.filter (· ∈ found) <+: refill queue found := List.prefix_append _ _

omit [DecidableEq α] in
omit [DecidableEq α] in
theorem nodup_rotate {n : Nat} (h : queue.Nodup) : (rotate n queue).Nodup := by
  unfold rotate
  rw [List.nodup_append_comm, List.take_append_drop]
  exact h

/-- At most `p` members stand before `a`. -/
def Within (p : Nat) (a : α) (queue : List α) : Prop :=
  ∃ ahead behind, queue = ahead ++ a :: behind ∧ ahead.length ≤ p

variable {p : Nat}

omit [DecidableEq α] in
theorem within_of_getElem? (h : queue[p]? = some a) :
    Within p a queue := by
  obtain ⟨hp, rfl⟩ := List.getElem?_eq_some_iff.1 h
  refine ⟨queue.take p, queue.drop (p + 1), ?_, List.length_take_le p queue⟩
  rw [List.getElem_cons_drop, List.take_append_drop]

omit [DecidableEq α] in
theorem Within.mono {q : Nat} (h : Within p a queue) (hpq : p ≤ q) :
    Within q a queue := by
  obtain ⟨ahead, behind, hqueue, hlength⟩ := h
  exact ⟨ahead, behind, hqueue, Nat.le_trans hlength hpq⟩

/-- Refilling brings no one in before an element that stays. -/
theorem Within.refill {found : List α} (h : Within p a queue)
    (ha : a ∈ found) : Within p a (refill queue found) := by
  obtain ⟨ahead, behind, rfl, hlength⟩ := h
  have hkept : (ahead ++ a :: behind).filter (· ∈ found) =
      ahead.filter (· ∈ found) ++ a :: behind.filter (· ∈ found) := by
    rw [List.filter_append, List.filter_cons_of_pos (by simpa using ha)]
  unfold Rotation.refill
  dsimp only
  rw [hkept, List.append_assoc, List.cons_append]
  exact ⟨_, _, rfl, Nat.le_trans (List.length_filter_le _ _) hlength⟩

omit [DecidableEq α] in
/-- An element that is not among the first `n` moves `n` places forward. -/
theorem Within.rotate {n : Nat} (h : Within p a queue)
    (ha : a ∉ queue.take n) : n ≤ p ∧ Within (p - n) a (rotate n queue) := by
  obtain ⟨ahead, behind, rfl, hlength⟩ := h
  have hn : n ≤ ahead.length := by
    by_contra hlt
    apply ha
    rw [List.take_append, List.take_of_length_le (by omega),
      show n - ahead.length = (n - ahead.length - 1) + 1 by omega, List.take_succ_cons]
    exact List.mem_append_right _ List.mem_cons_self
  refine ⟨Nat.le_trans hn hlength, ahead.drop n, behind ++ ahead.take n, ?_, ?_⟩
  · unfold Rotation.rotate
    rw [List.drop_append_of_le_length hn, List.take_append_of_le_length hn, List.append_assoc,
      List.cons_append]
  · rw [List.length_drop]
    omega

end Rotation

end Purra
