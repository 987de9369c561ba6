import Mathlib.Data.List.Sort
import Purra.Lib.Dict

/-!
# Apportioning a pool by largest remainders

A pool of indivisible units is shared out in proportion to weights.  Everyone gets the whole
part of the exact share; the units left over go, one each, to the largest remainders, and to
the earlier of equal remainders.

* `bump` — one more at each of the given positions; `sum_bump` and `getElem?_bump` say what
  that does to the sum and to one entry.
* `largestFirst` — the positions, largest entry first and the earlier of equal entries first.
* `forall_mem_take_of_pairwise` — the front of an ordered list has a property that is passed
  on to the left, as long as enough of its members have it.
* `sum_quotients_add_extra` and `extra_le_countP` — the whole parts never overspend the pool,
  and what is left over is no more than there are positive remainders.
* `sum_apportion` and `apportion_le` — **the shares spend the pool exactly**, and when the
  pool is smaller than the weights together **no share exceeds its weight**.
* `Dict.credit` — amounts added to the accounts of a dictionary; `sum_values_credit` and
  `get?_credit_of_mem` say what that does to the sum and to one account.
-/

namespace Purra

/-! ## One more at some positions -/

/-- One more at each of the positions. -/
def bump (l positions : List Nat) : List Nat := positions.foldl (fun l i => l.modify i (· + 1)) l

@[simp] theorem bump_nil (l : List Nat) : bump l [] = l := rfl

@[simp] theorem bump_cons (l : List Nat) (i : Nat) (positions : List Nat) :
    bump l (i :: positions) = bump (l.modify i (· + 1)) positions := rfl

@[simp] theorem length_bump (l positions : List Nat) : (bump l positions).length = l.length := by
  induction positions generalizing l with
  | nil => rfl
  | cons i positions ih => rw [bump_cons, ih, List.length_modify]

theorem sum_modify_add_one {l : List Nat} {i : Nat} (h : i < l.length) :
    (l.modify i (· + 1)).sum = l.sum + 1 := by
  induction l generalizing i with
  | nil => exact absurd h (Nat.not_lt_zero i)
  | cons a l ih =>
    cases i with
    | zero =>
      simp only [List.modify_zero_cons, List.sum_cons]
      omega
    | succ i =>
      have hi : i < l.length := Nat.lt_of_succ_lt_succ h
      simp only [List.modify_succ_cons, List.sum_cons, ih hi]
      omega

theorem sum_bump {l positions : List Nat} (h : ∀ i ∈ positions, i < l.length) :
    (bump l positions).sum = l.sum + positions.length := by
  induction positions generalizing l with
  | nil => rfl
  | cons i positions ih =>
    have hi : i < l.length := h i (List.mem_cons_self ..)
    have hrest : ∀ j ∈ positions, j < (l.modify i (· + 1)).length := by
      intro j hj
      rw [List.length_modify]
      exact h j (List.mem_cons_of_mem i hj)
    rw [bump_cons, ih hrest, sum_modify_add_one hi, List.length_cons]
    omega

theorem getElem?_bump {l positions : List Nat} (hnd : positions.Nodup) (i : Nat) :
    (bump l positions)[i]? = l[i]?.map fun n => if i ∈ positions then n + 1 else n := by
  induction positions generalizing l with
  | nil => simp
  | cons j positions ih =>
    obtain ⟨hj, hnd⟩ := List.nodup_cons.1 hnd
    rw [bump_cons, ih hnd, List.getElem?_modify]
    by_cases hij : j = i
    · subst hij
      cases l[j]? <;> simp [hj]
    · have hne : ¬ i = j := fun h => hij h.symm
      cases l[i]? <;> simp [hij, hne]

/-! ## The order of the remainders -/

/-- The positions of a list, largest entry first, the earlier of equal entries first. -/
def largestFirst (l : List Nat) : List Nat :=
  (List.range l.length).insertionSort fun i j =>
    l.getD j 0 < l.getD i 0 ∨ l.getD i 0 = l.getD j 0 ∧ i ≤ j

theorem perm_largestFirst (l : List Nat) : (largestFirst l).Perm (List.range l.length) :=
  List.perm_insertionSort _ _

theorem nodup_largestFirst (l : List Nat) : (largestFirst l).Nodup :=
  (perm_largestFirst l).nodup_iff.2 List.nodup_range

theorem lt_of_mem_largestFirst {l : List Nat} {i : Nat} (h : i ∈ largestFirst l) : i < l.length :=
  List.mem_range.1 ((perm_largestFirst l).mem_iff.1 h)

theorem pairwise_largestFirst (l : List Nat) :
    (largestFirst l).Pairwise fun i j => l.getD j 0 ≤ l.getD i 0 := by
  have htotal : Std.Total fun i j : Nat =>
      l.getD j 0 < l.getD i 0 ∨ l.getD i 0 = l.getD j 0 ∧ i ≤ j := by
    constructor
    intro i j
    omega
  have htrans : IsTrans Nat fun i j =>
      l.getD j 0 < l.getD i 0 ∨ l.getD i 0 = l.getD j 0 ∧ i ≤ j := by
    constructor
    intro i j k hij hjk
    omega
  refine (List.pairwise_insertionSort _ _).imp ?_
  intro i j h
  omega

/-- A property that is passed on to the left holds of the first `k` members, as long as `k`
members have it. -/
theorem forall_mem_take_of_pairwise {α : Type} {p : α → Prop} [DecidablePred p] {l : List α}
    (hl : l.Pairwise fun a b => p b → p a) {k : Nat} (hk : k ≤ l.countP (p ·)) :
    ∀ a ∈ l.take k, p a := by
  induction l generalizing k with
  | nil => simp
  | cons b l ih =>
    obtain ⟨hb, hl⟩ := List.pairwise_cons.1 hl
    cases k with
    | zero => simp
    | succ k =>
      have hpb : p b := by
        by_contra hnot
        -- then nothing behind it has the property either
        have hnone : l.countP (p ·) = 0 := by
          rw [List.countP_eq_zero]
          intro a ha hpa
          exact hnot (hb a ha (of_decide_eq_true hpa))
        rw [List.countP_cons_of_neg (by simpa using hnot), hnone] at hk
        omega
      rw [List.countP_cons_of_pos (by simpa using hpb)] at hk
      intro a ha
      rw [List.take_succ_cons] at ha
      rcases List.mem_cons.1 ha with rfl | ha
      · exact hpb
      · exact ih hl (Nat.le_of_succ_le_succ hk) a ha

/-! ## Quotients and remainders -/

theorem sum_div_add_sum_mod (l : List Nat) (total : Nat) :
    total * (l.map (· / total)).sum + (l.map (· % total)).sum = l.sum := by
  induction l with
  | nil => simp
  | cons a l ih =>
    have ha := Nat.div_add_mod a total
    simp only [List.map_cons, List.sum_cons, Nat.mul_add]
    omega

theorem sum_map_mul (l : List Nat) (pool : Nat) : (l.map (· * pool)).sum = l.sum * pool := by
  induction l with
  | nil => simp
  | cons a l ih => simp only [List.map_cons, List.sum_cons, ih, Nat.add_mul]

/-- A list of numbers below `total` sums to no more than `total` for each positive one. -/
theorem sum_le_mul_countP {l : List Nat} {total : Nat} (h : ∀ a ∈ l, a ≤ total) :
    l.sum ≤ total * l.countP (0 < ·) := by
  induction l with
  | nil => simp
  | cons a l ih =>
    have hrest : l.sum ≤ total * l.countP (0 < ·) := ih fun b hb => h b (List.mem_cons_of_mem a hb)
    have ha : a ≤ total := h a (List.mem_cons_self ..)
    by_cases hpos : 0 < a
    · rw [List.countP_cons_of_pos (by simpa using hpos), List.sum_cons, Nat.mul_add]
      omega
    · rw [List.countP_cons_of_neg (by simpa using hpos), List.sum_cons]
      omega

/-- The members of a list with a property, counted at their positions. -/
theorem countP_range_getD (l : List Nat) (p : Nat → Bool) :
    (List.range l.length).countP (fun i => p (l.getD i 0)) = l.countP p := by
  have hmap : (List.range l.length).map (fun i => l.getD i 0) = l := by
    refine List.ext_getElem (by simp) ?_
    intro i hi hi'
    simp [List.getD_eq_getElem?_getD, List.getElem?_eq_getElem hi']
  calc (List.range l.length).countP (fun i => p (l.getD i 0))
      = ((List.range l.length).map fun i => l.getD i 0).countP p := by
        rw [List.countP_map]
        rfl
    _ = l.countP p := by rw [hmap]

/-! ## The shares -/

section
variable (products : List Nat) (total pool : Nat)

/-- The whole parts of the exact shares, with one more for the largest remainders until the pool
is spent.  `products` are the weights times the pool. -/
def apportion : List Nat :=
  let quotients := products.map (· / total)
  bump quotients ((largestFirst (products.map (· % total))).take (pool - quotients.sum))

variable {products total pool}
variable (hsum : products.sum = total * pool) (hpos : 0 < total)
include hsum hpos

/-- The whole parts never overspend the pool; what is left over is what the remainders make up. -/
theorem sum_quotients_add_extra : (products.map (· / total)).sum ≤ pool ∧
    total * (pool - (products.map (· / total)).sum) = (products.map (· % total)).sum := by
  have hdivmod := sum_div_add_sum_mod products total
  have hle : (products.map (· / total)).sum ≤ pool := by
    refine Nat.le_of_mul_le_mul_left ?_ hpos
    omega
  refine ⟨hle, ?_⟩
  rw [Nat.mul_sub]
  omega

theorem extra_le_countP : pool - (products.map (· / total)).sum ≤
    (products.map (· % total)).countP (0 < ·) := by
  obtain ⟨-, hextra⟩ := sum_quotients_add_extra hsum hpos
  have hbound : (products.map (· % total)).sum ≤
      total * (products.map (· % total)).countP (0 < ·) := by
    refine sum_le_mul_countP ?_
    intro a ha
    obtain ⟨b, -, rfl⟩ := List.mem_map.1 ha
    exact (Nat.mod_lt b hpos).le
  refine Nat.le_of_mul_le_mul_left ?_ hpos
  rw [hextra]
  exact hbound

/-- Whoever gets one more has a remainder. -/
theorem remainder_pos_of_mem_take {i : Nat}
    (hi : i ∈ (largestFirst (products.map (· % total))).take
      (pool - (products.map (· / total)).sum)) :
    0 < (products.map (· % total)).getD i 0 := by
  have hpair : (largestFirst (products.map (· % total))).Pairwise fun i j =>
      0 < (products.map (· % total)).getD j 0 → 0 < (products.map (· % total)).getD i 0 := by
    refine (pairwise_largestFirst _).imp ?_
    intro i j h
    omega
  refine forall_mem_take_of_pairwise hpair ?_ i hi
  have hcount : (largestFirst (products.map (· % total))).countP
      (fun i => decide (0 < (products.map (· % total)).getD i 0)) =
      (products.map (· % total)).countP (0 < ·) := by
    rw [(perm_largestFirst _).countP_eq]
    exact countP_range_getD _ fun n => decide (0 < n)
  rw [hcount]
  exact extra_le_countP hsum hpos

/-- **The shares spend the pool exactly.** -/
theorem sum_apportion : (apportion products total pool).sum = pool := by
  obtain ⟨hle, -⟩ := sum_quotients_add_extra hsum hpos
  have hcount := extra_le_countP hsum hpos
  have hlen : (largestFirst (products.map (· % total))).length = products.length := by
    rw [(perm_largestFirst _).length_eq, List.length_range, List.length_map]
  have hextra : pool - (products.map (· / total)).sum ≤ products.length :=
    hcount.trans (List.countP_le_length.trans_eq (List.length_map ..))
  unfold apportion
  rw [sum_bump, List.length_take, hlen]
  · omega
  · intro i hi
    have := lt_of_mem_largestFirst (List.mem_of_mem_take hi)
    simpa using this

end

/-- **No share exceeds its weight** when the pool is no larger than the weights together. -/
theorem apportion_le {weights : List Nat} {pool : Nat} (hpos : 0 < weights.sum)
    (hpool : pool ≤ weights.sum) {i w share : Nat} (hw : weights[i]? = some w)
    (hshare : (apportion (weights.map (· * pool)) weights.sum pool)[i]? = some share) :
    share ≤ w := by
  have hsum : (weights.map (· * pool)).sum = weights.sum * pool := sum_map_mul weights pool
  unfold apportion at hshare
  rw [getElem?_bump ((List.take_sublist _ _).nodup (nodup_largestFirst _))] at hshare
  simp only [List.getElem?_map, hw, Option.map_some, Option.some.injEq] at hshare
  have hexact : w * pool ≤ weights.sum * w := by
    rw [Nat.mul_comm weights.sum w]
    exact Nat.mul_le_mul_left w hpool
  have hdiv : w * pool / weights.sum ≤ w := Nat.div_le_of_le_mul hexact
  split at hshare
  · rename_i hi
    have hrem := remainder_pos_of_mem_take hsum hpos hi
    have hat : (((weights.map (· * pool)).map (· % weights.sum)).getD i 0) =
        w * pool % weights.sum := by
      simp [List.getD_eq_getElem?_getD, hw]
    rw [hat] at hrem
    -- a whole share of `w` would leave no remainder
    have hlt : w * pool / weights.sum < w := by
      refine lt_of_le_of_ne hdiv ?_
      intro heq
      have hdm := Nat.div_add_mod (w * pool) weights.sum
      rw [heq] at hdm
      omega
    omega
  · omega

/-! ## Crediting accounts -/

namespace Dict

variable {κ : Type}

theorem sum_values (d : Dict κ Nat) : d.values.sum = d.total fun _ n => n := rfl

variable [DecidableEq κ]

/-- The values of a dictionary whose keys and entries are known. -/
theorem values_eq_map {ν α : Type} {d : Dict κ ν} {l : List α} {key : α → κ} {value : α → ν}
    (hkeys : d.keys = l.map key) (h : ∀ a ∈ l, d.get? (key a) = some (value a)) :
    d.values = l.map value := by
  have hself : d.keys.map d.get? = d.values.map some := by
    unfold keys values
    rw [List.map_map, List.map_map]
    exact List.map_congr_left fun p hp => mem_entries_iff.1 hp
  have hsome : d.values.map some = (l.map value).map some := by
    rw [← hself, hkeys, List.map_map, List.map_map]
    exact List.map_congr_left h
  exact List.map_injective_iff.2 (Option.some_injective _) hsome

/-- Add each amount to the account it is for. -/
def credit (d : Dict κ Nat) (amounts : List (κ × Nat)) : Dict κ Nat :=
  amounts.foldl (fun d p => d.set p.1 ((d.get? p.1).getD 0 + p.2)) d

@[simp] theorem credit_nil (d : Dict κ Nat) : d.credit [] = d := rfl

@[simp] theorem credit_cons (d : Dict κ Nat) (p : κ × Nat) (amounts : List (κ × Nat)) :
    d.credit (p :: amounts) = (d.set p.1 ((d.get? p.1).getD 0 + p.2)).credit amounts := rfl

theorem sum_values_credit (d : Dict κ Nat) (amounts : List (κ × Nat)) :
    (d.credit amounts).values.sum = d.values.sum + (amounts.map Prod.snd).sum := by
  induction amounts generalizing d with
  | nil => simp
  | cons p amounts ih =>
    have hset : (d.set p.1 ((d.get? p.1).getD 0 + p.2)).values.sum = d.values.sum + p.2 := by
      rw [sum_values, sum_values]
      cases h : d.get? p.1 with
      | none =>
        rw [total_set_of_none _ h]
        simp
      | some n =>
        have htotal := total_set_of_get? (v := (some n).getD 0 + p.2) (fun _ m => m) h
        simp only [Option.getD_some] at htotal ⊢
        omega
    rw [credit_cons, ih, hset, List.map_cons, List.sum_cons, Nat.add_assoc]

theorem keys_credit {d : Dict κ Nat} {amounts : List (κ × Nat)} (h : ∀ p ∈ amounts, p.1 ∈ d.keys) :
    (d.credit amounts).keys = d.keys := by
  induction amounts generalizing d with
  | nil => rfl
  | cons p amounts ih =>
    have hkeys := keys_set_of_mem (v := (d.get? p.1).getD 0 + p.2) (h p (List.mem_cons_self ..))
    rw [credit_cons, ih, hkeys]
    intro q hq
    rw [hkeys]
    exact h q (List.mem_cons_of_mem p hq)

theorem get?_credit_of_not_mem {d : Dict κ Nat} {amounts : List (κ × Nat)} {k : κ}
    (h : k ∉ amounts.map Prod.fst) : (d.credit amounts).get? k = d.get? k := by
  induction amounts generalizing d with
  | nil => rfl
  | cons p amounts ih =>
    rw [List.map_cons, List.mem_cons, not_or] at h
    rw [credit_cons, ih h.2, get?_set_of_ne h.1]

theorem get?_credit_of_mem {d : Dict κ Nat} {amounts : List (κ × Nat)} {k : κ} {n : Nat}
    (hnd : (amounts.map Prod.fst).Nodup) (h : (k, n) ∈ amounts) :
    (d.credit amounts).get? k = some ((d.get? k).getD 0 + n) := by
  induction amounts generalizing d with
  | nil => cases h
  | cons p amounts ih =>
    obtain ⟨hp, hnd⟩ := List.nodup_cons.1 hnd
    rw [credit_cons]
    rcases List.mem_cons.1 h with rfl | h
    · rw [get?_credit_of_not_mem hp, get?_set, if_pos rfl]
    · have hne : k ≠ p.1 := by
        rintro rfl
        exact hp (List.mem_map.2 ⟨_, h, rfl⟩)
      rw [ih hnd h, get?_set_of_ne hne]

end Dict

end Purra
