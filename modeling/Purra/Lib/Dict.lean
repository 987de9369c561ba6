import Mathlib.Algebra.Group.Int.Defs
import Mathlib.Algebra.GroupWithZero.Nat
import Mathlib.Data.List.Dedup
import Mathlib.Data.List.Perm.Basic

/-!
# Insertion-ordered dictionaries

A dictionary that remembers the order in which its keys first appeared: setting
a key that is present overwrites the value in place, setting a new key appends
it.  This is the mapping of most scripting languages, and iteration order is
part of what a program computes from it (the *first* entry with a property, the
newest entry).

* `Dict` carries the uniqueness of its keys as a field, so a dictionary with two
  entries for one key cannot be built.
* `get?`, `set`, `map`, `extend` — lookup, update in place or append, a loop that
  rewrites every value, and a run of appends; `get?_set`, `get?_map`,
  `get?_extend` say what each does to lookup.
* `mem_values_iff` — the values are exactly what some key looks up.
* `fromKeys` — the distinct elements of a list, each at its first position: the keys of the
  dictionary one gets by storing them in turn.
* `countP_set`, `countP_map_le` — how an update changes the number of values with
  a property, which is what a capacity check reads.
* `total` — the sum of a quantity over the entries; `total_set_of_get?` and
  `total_set_of_none` say how an assignment moves it.
* `Rel` — one dictionary is an update of another under the same keys; `Rel.countP_le`.
-/

namespace Purra

/-- Two texts are a key. -/
instance textPairs : LawfulBEq (String × String) := inferInstance

/-- A dictionary with unique keys, in the order the keys were first set. -/
structure Dict (κ ν : Type) where
  /-- The entries, oldest key first. -/
  entries : List (κ × ν)
  /-- No key occurs twice. -/
  nodup_keys : (entries.map Prod.fst).Nodup

namespace Dict

variable {κ ν : Type}

/-- The dictionary with no entry. -/
def empty : Dict κ ν := ⟨[], List.nodup_nil⟩

/-- The keys, oldest first. -/
def keys (d : Dict κ ν) : List κ := d.entries.map Prod.fst

/-- The values, in key order. -/
def values (d : Dict κ ν) : List ν := d.entries.map Prod.snd

/-- Rewrite every value, as a loop over the entries does. -/
def map {μ : Type} (f : κ → ν → μ) (d : Dict κ ν) : Dict κ μ where
  entries := d.entries.map fun p => (p.1, f p.1 p.2)
  nodup_keys := by simpa [List.map_map, Function.comp_def] using d.nodup_keys

variable {d : Dict κ ν}

theorem ext {e : Dict κ ν} (h : d.entries = e.entries) : d = e := by
  cases d
  cases e
  cases h
  rfl

@[simp] theorem keys_empty : (empty : Dict κ ν).keys = [] := rfl

@[simp] theorem values_empty : (empty : Dict κ ν).values = [] := rfl

theorem nodup (d : Dict κ ν) : d.keys.Nodup := d.nodup_keys

@[simp] theorem keys_map {μ : Type} (f : κ → ν → μ) (d : Dict κ ν) :
    (d.map f).keys = d.keys := by
  simp [map, keys, List.map_map, Function.comp_def]

theorem values_map {μ : Type} (f : κ → ν → μ) (d : Dict κ ν) :
    (d.map f).values = d.entries.map fun p => f p.1 p.2 := by
  simp [map, values, List.map_map, Function.comp_def]

variable [DecidableEq κ]

/-- Overwrite the value of `k` in a list of entries, leaving the order alone. -/
def replaceEntry (k : κ) (v : ν) : List (κ × ν) → List (κ × ν)
  | [] => []
  | p :: l => if p.1 = k then (k, v) :: l else p :: replaceEntry k v l

theorem map_fst_replaceEntry (k : κ) (v : ν) (l : List (κ × ν)) :
    (replaceEntry k v l).map Prod.fst = l.map Prod.fst := by
  induction l with
  | nil => rfl
  | cons p l ih =>
    unfold replaceEntry
    by_cases h : p.1 = k
    · simp [h]
    · simp [h, ih]

/-- The value stored under `k`, if any. -/
def get? (d : Dict κ ν) (k : κ) : Option ν := (d.entries.find? (·.1 = k)).map Prod.snd

/-- Store `v` under `k`: in place when `k` is present, at the end when it is new. -/
def set (d : Dict κ ν) (k : κ) (v : ν) : Dict κ ν :=
  if h : k ∈ d.keys then
    ⟨replaceEntry k v d.entries, by rw [map_fst_replaceEntry]; exact d.nodup_keys⟩
  else
    ⟨d.entries ++ [(k, v)], by
      rw [List.map_append, List.map_singleton]
      exact List.nodup_append'.2 ⟨d.nodup_keys, List.nodup_singleton _, by simpa [keys] using h⟩⟩

/-- Store a list of pairs one after the other. -/
def extend (d : Dict κ ν) (l : List (κ × ν)) : Dict κ ν := l.foldl (fun d p => d.set p.1 p.2) d

/-! ## Lookup -/

variable {k : κ} {v : ν}

theorem mem_entries_iff :
    (k, v) ∈ d.entries ↔ d.get? k = some v := by
  obtain ⟨l, hl⟩ := d
  unfold get?
  induction l with
  | nil => simp
  | cons p l ih =>
    obtain ⟨k', v'⟩ := p
    simp only [List.map_cons, List.nodup_cons] at hl
    by_cases h : k' = k
    · subst h
      have hnot : (k', v) ∉ l := fun hm => hl.1 (List.mem_map.2 ⟨_, hm, rfl⟩)
      simp [hnot, eq_comm]
    · have hne : (k, v) ≠ (k', v') := by
        intro he
        exact h (congrArg Prod.fst he).symm
      simp only [List.mem_cons, hne, false_or, List.find?_cons, h, decide_false]
      exact ih hl.2

theorem mem_values_iff : v ∈ d.values ↔ ∃ k, d.get? k = some v := by
  simp only [values, List.mem_map, Prod.exists, exists_eq_right, mem_entries_iff]

theorem mem_values_of_get? (h : d.get? k = some v) :
    v ∈ d.values := mem_values_iff.2 ⟨k, h⟩

theorem mem_keys_iff : k ∈ d.keys ↔ ∃ v, d.get? k = some v := by
  simp only [keys, List.mem_map, Prod.exists, exists_and_right, exists_eq_right, mem_entries_iff]

theorem get?_eq_none_iff : d.get? k = none ↔ k ∉ d.keys := by
  rw [mem_keys_iff, not_exists]
  cases d.get? k <;> simp

@[simp] theorem get?_empty (k : κ) : (empty : Dict κ ν).get? k = none := rfl

@[simp] theorem get?_map {μ : Type} (f : κ → ν → μ) (d : Dict κ ν) (k : κ) :
    (d.map f).get? k = (d.get? k).map (f k) := by
  obtain ⟨l, hl⟩ := d
  unfold get? map
  simp only
  clear hl
  induction l with
  | nil => rfl
  | cons p l ih =>
    by_cases h : p.1 = k
    · simp [h]
    · simpa [h] using ih

variable {l : List (κ × ν)}

theorem mem_replaceEntry (hl : (l.map Prod.fst).Nodup) {p : κ × ν} :
    p ∈ replaceEntry k v l ↔ (k ∈ l.map Prod.fst ∧ p = (k, v)) ∨ (p ∈ l ∧ p.1 ≠ k) := by
  induction l with
  | nil => simp [replaceEntry]
  | cons q l ih =>
    simp only [List.map_cons, List.nodup_cons] at hl
    unfold replaceEntry
    by_cases h : q.1 = k
    · have hq : ∀ r ∈ l, r.1 ≠ k := fun r hr he =>
        hl.1 (List.mem_map.2 ⟨r, hr, he.trans h.symm⟩)
      rw [if_pos h, List.mem_cons]
      constructor
      · rintro (rfl | hp)
        · exact Or.inl ⟨by simp [h], rfl⟩
        · exact Or.inr ⟨List.mem_cons_of_mem _ hp, hq p hp⟩
      · rintro (⟨-, rfl⟩ | ⟨hp, hne⟩)
        · exact Or.inl rfl
        · rcases List.mem_cons.1 hp with rfl | hp
          · exact absurd h hne
          · exact Or.inr hp
    · rw [if_neg h, List.mem_cons, ih hl.2]
      simp only [List.map_cons, List.mem_cons, Ne.symm h, false_or]
      constructor
      · rintro (rfl | hp | hp)
        · exact Or.inr ⟨Or.inl rfl, h⟩
        · exact Or.inl hp
        · exact Or.inr ⟨Or.inr hp.1, hp.2⟩
      · rintro (hp | ⟨rfl | hp, hne⟩)
        · exact Or.inr (Or.inl hp)
        · exact Or.inl rfl
        · exact Or.inr (Or.inr ⟨hp, hne⟩)

theorem mem_entries_set {p : κ × ν} :
    p ∈ (d.set k v).entries ↔ p = (k, v) ∨ (p ∈ d.entries ∧ p.1 ≠ k) := by
  unfold set
  split
  · rename_i h
    rw [mem_replaceEntry d.nodup_keys]
    exact or_congr_left (and_iff_right h)
  · rename_i h
    simp only [List.mem_append, List.mem_singleton]
    constructor
    · rintro (hp | hp)
      · refine Or.inr ⟨hp, fun he => h ?_⟩
        exact he ▸ List.mem_map_of_mem hp
      · exact Or.inl hp
    · rintro (hp | hp)
      · exact Or.inr hp
      · exact Or.inl hp.1

theorem get?_set (d : Dict κ ν) (k k' : κ) (v : ν) :
    (d.set k v).get? k' = if k' = k then some v else d.get? k' := by
  refine Option.ext fun w => ?_
  rw [← mem_entries_iff, mem_entries_set]
  by_cases h : k' = k
  · subst h
    simp [eq_comm]
  · simp [h, mem_entries_iff]

@[simp] theorem get?_set_self (d : Dict κ ν) (k : κ) (v : ν) : (d.set k v).get? k = some v := by
  simp [get?_set]

theorem get?_set_of_ne {k' : κ} (h : k' ≠ k) :
    (d.set k v).get? k' = d.get? k' := by
  simp [get?_set, h]

/-- Storing what is stored changes nothing. -/
theorem set_of_get? (h : d.get? k = some v) : d.set k v = d := by
  have hmem : (k, v) ∈ d.entries := mem_entries_iff.2 h
  have hreplace : ∀ l : List (κ × ν), (l.map Prod.fst).Nodup → (k, v) ∈ l →
      replaceEntry k v l = l := by
    intro l hl hkv
    induction l with
    | nil => rfl
    | cons p l ih =>
      rw [List.map_cons, List.nodup_cons] at hl
      unfold replaceEntry
      rcases List.mem_cons.1 hkv with rfl | hkv
      · rw [if_pos rfl]
      · have hp : p.1 ≠ k := by
          rintro rfl
          exact hl.1 (List.mem_map.2 ⟨_, hkv, rfl⟩)
        rw [if_neg hp, ih hl.2 hkv]
  apply ext
  unfold set
  rw [dif_pos (mem_keys_iff.2 ⟨v, h⟩)]
  exact hreplace d.entries d.nodup_keys hmem

/-- Overwriting a value adds no key. -/
theorem get?_set_eq_none {k' : κ} {w : ν} (h : d.get? k = some v)
    (hnone : d.get? k' = none) : (d.set k w).get? k' = none := by
  rw [get?_set_of_ne]
  · exact hnone
  · rintro rfl
    rw [h] at hnone
    cases hnone

theorem keys_set_of_mem (h : k ∈ d.keys) :
    (d.set k v).keys = d.keys := by
  unfold set
  rw [dif_pos h]
  exact map_fst_replaceEntry k v d.entries

theorem keys_set_of_not_mem (h : k ∉ d.keys) :
    (d.set k v).keys = d.keys ++ [k] := by
  unfold set
  rw [dif_neg h]
  simp [keys]

theorem entries_set_of_not_mem (h : k ∉ d.keys) :
    (d.set k v).entries = d.entries ++ [(k, v)] := by
  unfold set
  rw [dif_neg h]

/-- Appending pairs under new, distinct keys puts them behind the old entries. -/
theorem entries_extend (hnd : (l.map Prod.fst).Nodup)
    (hnew : ∀ p ∈ l, p.1 ∉ d.keys) : (d.extend l).entries = d.entries ++ l := by
  induction l generalizing d with
  | nil => simp [extend]
  | cons p l ih =>
    simp only [List.map_cons, List.nodup_cons] at hnd
    have hp : p.1 ∉ d.keys := hnew p (List.mem_cons_self ..)
    have hrest : ∀ q ∈ l, q.1 ∉ (d.set p.1 p.2).keys := by
      intro q hq
      rw [keys_set_of_not_mem hp, List.mem_append, List.mem_singleton, not_or]
      refine ⟨hnew q (List.mem_cons_of_mem _ hq), fun he => hnd.1 ?_⟩
      exact he ▸ List.mem_map_of_mem hq
    calc (d.extend (p :: l)).entries = ((d.set p.1 p.2).extend l).entries := rfl
      _ = (d.set p.1 p.2).entries ++ l := ih hnd.2 hrest
      _ = d.entries ++ p :: l := by rw [entries_set_of_not_mem hp]; simp

theorem get?_extend_of_not_mem (hk : k ∉ l.map Prod.fst) : (d.extend l).get? k = d.get? k := by
  induction l generalizing d with
  | nil => rfl
  | cons p l ih =>
    rw [List.map_cons, List.mem_cons, not_or] at hk
    show ((d.set p.1 p.2).extend l).get? k = d.get? k
    rw [ih hk.2, get?_set_of_ne hk.1]

theorem get?_extend_of_mem (hnd : (l.map Prod.fst).Nodup)
    (hmem : (k, v) ∈ l) : (d.extend l).get? k = some v := by
  induction l generalizing d with
  | nil => exact absurd hmem List.not_mem_nil
  | cons p l ih =>
    rw [List.map_cons, List.nodup_cons] at hnd
    show ((d.set p.1 p.2).extend l).get? k = some v
    rcases List.mem_cons.1 hmem with rfl | hmem
    · rw [get?_extend_of_not_mem hnd.1, get?_set_self]
    · exact ih hnd.2 hmem

/-- After a run of appends, an entry is one of them or an entry that was there under another
key. -/
theorem get?_extend_eq_some (hnd : (l.map Prod.fst).Nodup) :
    (d.extend l).get? k = some v ↔ (k, v) ∈ l ∨ (k ∉ l.map Prod.fst ∧ d.get? k = some v) := by
  by_cases hk : k ∈ l.map Prod.fst
  · obtain ⟨⟨k', w⟩, hmem, rfl⟩ := List.mem_map.1 hk
    rw [get?_extend_of_mem hnd hmem, Option.some.injEq]
    constructor
    · rintro rfl
      exact Or.inl hmem
    · rintro (hv | hv)
      · have := get?_extend_of_mem (d := d) hnd hv
        rw [get?_extend_of_mem hnd hmem] at this
        exact Option.some.inj this
      · exact absurd hk hv.1
  · rw [get?_extend_of_not_mem hk]
    constructor
    · exact fun h => Or.inr ⟨hk, h⟩
    · rintro (hv | hv)
      · exact absurd (List.mem_map_of_mem hv) hk
      · exact hv.2

/-- `del d[k]`. -/
def erase (d : Dict κ ν) (k : κ) : Dict κ ν where
  entries := d.entries.filter fun p => p.1 ≠ k
  nodup_keys := (List.filter_sublist.map Prod.fst).nodup d.nodup_keys

theorem get?_erase (d : Dict κ ν) (k k' : κ) :
    (d.erase k).get? k' = if k' = k then none else d.get? k' := by
  have hmem : ∀ v, (k', v) ∈ (d.erase k).entries ↔ (k', v) ∈ d.entries ∧ k' ≠ k := by
    intro v
    simp [erase, List.mem_filter]
  split
  · rename_i hk
    cases h : (d.erase k).get? k' with
    | none => rfl
    | some v => exact absurd hk ((hmem v).1 (mem_entries_iff.2 h)).2
  · rename_i hk
    cases h : d.get? k' with
    | none =>
      cases he : (d.erase k).get? k' with
      | none => rfl
      | some v =>
        have hv := mem_entries_iff.1 ((hmem v).1 (mem_entries_iff.2 he)).1
        rw [h] at hv
        cases hv
    | some v => exact mem_entries_iff.1 ((hmem v).2 ⟨mem_entries_iff.2 h, hk⟩)

@[simp] theorem get?_erase_self (d : Dict κ ν) (k : κ) : (d.erase k).get? k = none := by
  rw [get?_erase, if_pos rfl]

theorem get?_erase_of_ne {k' : κ} (h : k' ≠ k) :
    (d.erase k).get? k' = d.get? k' := by rw [get?_erase, if_neg h]

/-! ## Distinct elements in order of appearance -/

/-- Every element once, at its first position. -/
def fromKeys (l : List κ) : List κ := l.reverse.dedup.reverse

@[simp] theorem mem_fromKeys {l : List κ} : k ∈ fromKeys l ↔ k ∈ l := by
  simp [fromKeys]

theorem nodup_fromKeys (l : List κ) : (fromKeys l).Nodup := by
  unfold fromKeys
  rw [List.nodup_reverse]
  exact List.nodup_dedup _

/-! ## Totals

The total of a quantity over a dictionary moves with what one assignment replaces. -/

/-- The sum of `w` over the entries. -/
def total (d : Dict κ ν) (w : κ → ν → Nat) : Nat := (d.entries.map fun p => w p.1 p.2).sum

theorem total_replaceEntry {u : ν} (w : κ → ν → Nat)
    (hl : (l.map Prod.fst).Nodup) (h : (k, u) ∈ l) :
    ((replaceEntry k v l).map fun p => w p.1 p.2).sum + w k u =
      (l.map fun p => w p.1 p.2).sum + w k v := by
  induction l with
  | nil => simp at h
  | cons p l ih =>
    simp only [List.map_cons, List.nodup_cons] at hl
    unfold replaceEntry
    by_cases hp : p.1 = k
    · have hpu : p = (k, u) := by
        rcases List.mem_cons.1 h with h | h
        · exact h.symm
        · exact absurd (List.mem_map.2 ⟨_, h, hp.symm⟩) hl.1
      subst hpu
      simp only [if_true, List.map_cons, List.sum_cons]
      omega
    · have hmem : (k, u) ∈ l := by
        rcases List.mem_cons.1 h with h | h
        · exact absurd (congrArg Prod.fst h).symm hp
        · exact h
      have := ih hl.2 hmem
      simp only [hp, if_false, List.map_cons, List.sum_cons]
      omega

/-- Overwriting the value `u` of a present key by `v`. -/
theorem total_set_of_get? {u : ν} (w : κ → ν → Nat)
    (h : d.get? k = some u) : (d.set k v).total w + w k u = d.total w + w k v := by
  have hk : k ∈ d.keys := mem_keys_iff.2 ⟨u, h⟩
  unfold total set
  rw [dif_pos hk]
  exact total_replaceEntry w d.nodup_keys (mem_entries_iff.2 h)

/-- Storing a value under a new key. -/
theorem total_set_of_none (w : κ → ν → Nat)
    (h : d.get? k = none) : (d.set k v).total w = d.total w + w k v := by
  unfold total
  rw [entries_set_of_not_mem (get?_eq_none_iff.1 h), List.map_append, List.sum_append]
  simp

theorem total_congr {w w' : κ → ν → Nat}
    (h : ∀ k v, d.get? k = some v → w k v = w' k v) : d.total w = d.total w' := by
  unfold total
  congr 1
  exact List.map_congr_left fun p hp => h p.1 p.2 (mem_entries_iff.1 hp)

/-- The total of a dictionary that holds, key by key, what another one makes of its values. -/
theorem total_of_get? {e : Dict κ ν} {f : κ → ν → ν}
    (h : ∀ k, e.get? k = (d.get? k).map (f k)) (w : κ → ν → Nat) :
    e.total w = d.total fun k v => w k (f k v) := by
  have hperm : e.entries.Perm (d.map f).entries := by
    rw [List.perm_ext_iff_of_nodup (.of_map Prod.fst e.nodup_keys)
      (.of_map Prod.fst (d.map f).nodup_keys)]
    rintro ⟨k, v⟩
    rw [mem_entries_iff, mem_entries_iff, h, get?_map]
  unfold total
  rw [(hperm.map fun p => w p.1 p.2).sum_nat, map, List.map_map]
  rfl

/-! ## Counting values -/

omit [DecidableEq κ] in
/-- A number of values is a total. -/
theorem countP_eq_total (d : Dict κ ν) (q : ν → Bool) :
    d.values.countP q = d.total fun _ v => if q v then 1 else 0 := by
  unfold values total
  induction d.entries with
  | nil => rfl
  | cons p l ih => simp [List.countP_cons, ih, Nat.add_comm]

/-- Overwriting the value `u` of a present key by `v` moves the number of values with a property
by what `u` and `v` contribute to it. -/
theorem countP_set {u : ν} (q : ν → Bool) (h : d.get? k = some u) :
    (d.set k v).values.countP q + (if q u then 1 else 0) =
      d.values.countP q + (if q v then 1 else 0) := by
  rw [countP_eq_total, countP_eq_total]
  exact total_set_of_get? _ h

/-- Storing a value under any key adds at most one to the number of values with a property. -/
theorem countP_set_le (q : ν → Bool) :
    (d.set k v).values.countP q ≤ d.values.countP q + (if q v then 1 else 0) := by
  by_cases hk : k ∈ d.keys
  · obtain ⟨u, hu⟩ := mem_keys_iff.1 hk
    have := countP_set (v := v) q hu
    omega
  · rw [values, entries_set_of_not_mem hk, List.map_append, List.countP_append]
    simp [values, List.countP_cons]

/-- Appending pairs under new, distinct keys adds their values. -/
theorem countP_extend (q : ν → Bool) (hnd : (l.map Prod.fst).Nodup) (hnew : ∀ p ∈ l, p.1 ∉ d.keys) :
    (d.extend l).values.countP q = d.values.countP q + (l.map Prod.snd).countP q := by
  rw [values, entries_extend hnd hnew, List.map_append, List.countP_append]
  rfl

/-- A rewrite that gives no value a property it lacked does not raise the number with it. -/
theorem countP_map_le {f : κ → ν → ν} {q q' : ν → Bool}
    (h : ∀ k v, d.get? k = some v → q (f k v) = true → q' v = true) :
    (d.map f).values.countP q ≤ d.values.countP q' := by
  rw [values_map, values, List.countP_map, List.countP_map]
  exact List.countP_mono_left fun p hp hq => h p.1 p.2 (mem_entries_iff.1 hp) hq

/-! ## Updates that keep the keys

Most updates rewrite values and leave the keys and their order alone.  `Rel R d e` says that `e` is
such an update of `d` and that every value moved by `R`; updates compose by `Rel.trans`. -/

/-- `e` has the keys of `d`, and `R` relates the two values of every key. -/
def Rel (R : ν → ν → Prop) (d e : Dict κ ν) : Prop :=
  e.keys = d.keys ∧ ∀ k u v, d.get? k = some u → e.get? k = some v → R u v

namespace Rel

variable {R S T : ν → ν → Prop} {d e f : Dict κ ν}

theorem refl (hR : ∀ u, R u u) (d : Dict κ ν) : Rel R d d := by
  refine ⟨rfl, fun k u v hu hv => ?_⟩
  rw [hu] at hv
  cases hv
  exact hR u

theorem get? (h : Rel R d e) {k : κ} {u : ν} (hu : d.get? k = some u) :
    ∃ v, e.get? k = some v ∧ R u v := by
  have hk : k ∈ e.keys := by
    rw [h.1]
    exact mem_keys_iff.2 ⟨u, hu⟩
  obtain ⟨v, hv⟩ := mem_keys_iff.1 hk
  exact ⟨v, hv, h.2 k u v hu hv⟩

theorem get?_left (h : Rel R d e) {k : κ} {v : ν} (hv : e.get? k = some v) :
    ∃ u, d.get? k = some u ∧ R u v := by
  have hk : k ∈ d.keys := by
    rw [← h.1]
    exact mem_keys_iff.2 ⟨v, hv⟩
  obtain ⟨u, hu⟩ := mem_keys_iff.1 hk
  exact ⟨u, hu, h.2 k u v hu hv⟩

theorem trans (h₁ : Rel R d e) (h₂ : Rel S e f) (hT : ∀ u v w, R u v → S v w → T u w) :
    Rel T d f := by
  refine ⟨h₂.1.trans h₁.1, fun k u w hu hw => ?_⟩
  obtain ⟨v, hv, huv⟩ := h₁.get? hu
  exact hT u v w huv (h₂.2 k v w hv hw)

theorem mono (hS : ∀ u v, R u v → S u v) (h : Rel R d e) : Rel S d e :=
  ⟨h.1, fun k u v hu hv => hS u v (h.2 k u v hu hv)⟩

theorem map {g : κ → ν → ν} (hR : ∀ k u, d.get? k = some u → R u (g k u)) :
    Rel R d (d.map g) := by
  refine ⟨keys_map g d, fun k u v hu hv => ?_⟩
  rw [get?_map, hu, Option.map_some, Option.some.injEq] at hv
  exact hv ▸ hR k u hu

theorem set {k : κ} {u v : ν} (hu : d.get? k = some u) (huv : R u v) (hR : ∀ w, R w w) :
    Rel R d (d.set k v) := by
  refine ⟨keys_set_of_mem (mem_keys_iff.2 ⟨u, hu⟩), fun k' u' v' hu' hv' => ?_⟩
  by_cases hk : k' = k
  · subst hk
    rw [get?_set_self] at hv'
    rw [hu] at hu'
    cases hu'
    cases hv'
    exact huv
  · rw [get?_set_of_ne hk, hu'] at hv'
    cases hv'
    exact hR u'

/-- An update that keeps the keys is a rewrite of every value. -/
theorem eq_map (h : Rel R d e) : e = d.map fun k u => (e.get? k).getD u := by
  have hlen : e.entries.length = d.entries.length := by
    simpa [keys] using congrArg List.length h.1
  refine ext (List.ext_getElem ?_ fun i hi hi' => ?_)
  · simpa [Dict.map] using hlen
  · have hd : i < d.entries.length := hlen ▸ hi
    have hkey : e.entries[i].1 = d.entries[i].1 := by
      have hik : i < e.keys.length := by simpa [keys] using hi
      have hik' : i < d.keys.length := by simpa [keys] using hd
      have : e.keys[i] = d.keys[i] := List.getElem_of_eq h.1 hik
      simpa [keys] using this
    have hget : e.get? e.entries[i].1 = some e.entries[i].2 :=
      mem_entries_iff.1 (List.getElem_mem hi)
    simp only [Dict.map, List.getElem_map, ← hkey, hget, Option.getD_some]

/-- What `R` leaves alone in a value reads the same before and after. -/
theorem map_values_eq {μ : Type} {g : ν → μ} (h : Rel R d e) (hg : ∀ u v, R u v → g v = g u) :
    e.values.map g = d.values.map g := by
  rw [h.eq_map]
  unfold values Dict.map
  simp only [List.map_map]
  refine List.map_congr_left fun p hp => ?_
  have hu : d.get? p.1 = some p.2 := mem_entries_iff.1 hp
  obtain ⟨v, hv, huv⟩ := h.get? hu
  simp only [Function.comp_apply, hv, Option.getD_some]
  exact hg _ _ huv

/-- If only values with `q'` can turn into values with `q`, the number with `q` afterwards is at
most the number with `q'` before. -/
theorem countP_le {q q' : ν → Bool} (h : Rel R d e)
    (hq : ∀ u v, R u v → q v = true → q' u = true) :
    e.values.countP q ≤ d.values.countP q' := by
  rw [h.eq_map]
  refine countP_map_le fun k u hu hqu => ?_
  obtain ⟨v, hv, huv⟩ := h.get? hu
  rw [hv, Option.getD_some] at hqu
  exact hq u v huv hqu

end Rel

end Dict

end Purra
