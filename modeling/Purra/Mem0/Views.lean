import Purra.Mem0.Journal

/-!
# Versions of items

An item is stored with its metadata, and a view that a control lays over it.

* `field?_merge` — what is read of two objects, one laid over the other.
* `version_changed` — a change moves the version of an item on by one.
* `pyEq_int_unique` — a version is equal to one number at most.
-/

namespace Purra.Json

section

variable {key other : String} {v : Json} {o a b : Object}

theorem field?_setField_self : field? (setField key v o) key = some v := by
  induction o with
  | nil => exact field?_cons_self key v []
  | cons p o ih =>
    unfold setField
    by_cases hp : p.1 = key
    · rw [if_pos hp]
      exact field?_cons_self key v o
    · rw [if_neg hp]
      exact (field?_cons_of_ne hp p.2 _).trans ih

theorem field?_setField_of_ne (h : key ≠ other) :
    field? (setField key v o) other = field? o other := by
  induction o with
  | nil => exact field?_cons_of_ne h v []
  | cons p o ih =>
    obtain ⟨name, w⟩ := p
    unfold setField
    by_cases hp : name = key
    · subst hp
      rw [if_pos rfl, field?_cons_of_ne h, field?_cons_of_ne h]
    · rw [if_neg hp]
      by_cases hname : name = other
      · subst hname
        rw [field?_cons_self, field?_cons_self]
      · rw [field?_cons_of_ne hname, field?_cons_of_ne hname, ih]

theorem keys_setField : (setField key v o).map Prod.fst =
    if key ∈ o.map Prod.fst then o.map Prod.fst else o.map Prod.fst ++ [key] := by
  induction o with
  | nil => rfl
  | cons p o ih =>
    unfold setField
    by_cases hp : p.1 = key
    · rw [if_pos hp, if_pos (by simp [hp])]
      simp [hp]
    · rw [if_neg hp, List.map_cons, ih]
      by_cases hmem : key ∈ o.map Prod.fst
      · have hcons : key ∈ (p :: o).map Prod.fst := List.mem_cons_of_mem p.1 hmem
        rw [if_pos hmem, if_pos hcons]
        rfl
      · have hcons : key ∉ (p :: o).map Prod.fst := by
          rw [List.map_cons, List.mem_cons, not_or]
          exact ⟨fun h => hp h.symm, hmem⟩
        rw [if_neg hmem, if_neg hcons]
        rfl

theorem nodup_setField (h : (o.map Prod.fst).Nodup) :
    ((setField key v o).map Prod.fst).Nodup := by
  rw [keys_setField]
  split
  · exact h
  · next hkey =>
    refine List.nodup_append.2 ⟨h, List.nodup_singleton key, fun x hx y hy hxy => ?_⟩
    exact hkey (List.mem_singleton.1 hy ▸ hxy ▸ hx)

theorem nodup_merge (h : (a.map Prod.fst).Nodup) : ((merge a b).map Prod.fst).Nodup := by
  induction b generalizing a with
  | nil => exact h
  | cons p b ih => exact ih (nodup_setField h)

theorem field?_merge (h : (b.map Prod.fst).Nodup) :
    field? (merge a b) key = (field? b key).or (field? a key) := by
  induction b generalizing a with
  | nil => rfl
  | cons p b ih =>
    obtain ⟨name, v⟩ := p
    obtain ⟨hname, hb⟩ := List.nodup_cons.1 h
    show field? (merge (setField name v a) b) key = _
    rw [ih hb]
    by_cases hkey : name = key
    · subst hkey
      have hnone : field? b name = none := by
        rw [field?, Option.map_eq_none_iff, List.find?_eq_none]
        intro q hq heq
        exact hname (List.mem_map.2 ⟨q, hq, by simpa using heq⟩)
      rw [hnone, field?_setField_self, field?_cons_self]
      rfl
    · rw [field?_setField_of_ne hkey, field?_cons_of_ne hkey]

/-- A value is equal to one number at most. -/
theorem pyEq_int_unique {x : Json} {m n : Int} (hm : pyEq x (.int m) = true)
    (hn : pyEq x (.int n) = true) : m = n := by
  have hnumber : ∀ {mantissa exponent : Int} {k : Int},
      sameNumber (mantissa, exponent) (k, 0) = true →
        mantissa * 2 ^ (exponent - min exponent 0).toNat = k * 2 ^ (0 - min exponent 0).toNat :=
    fun h => by simpa [sameNumber] using h
  have hunique : ∀ {mantissa exponent : Int}, sameNumber (mantissa, exponent) (m, 0) = true →
      sameNumber (mantissa, exponent) (n, 0) = true → m = n := by
    intro mantissa exponent hm hn
    have heq := (hnumber hm).symm.trans (hnumber hn)
    exact Int.eq_of_mul_eq_mul_right (Int.ne_of_gt (Int.pow_pos (by decide))) heq
  cases x with
  | bool b => exact hunique (by simpa [pyEq, asNumber] using hm) (by simpa [pyEq, asNumber] using hn)
  | int k => exact hunique (by simpa [pyEq, asNumber] using hm) (by simpa [pyEq, asNumber] using hn)
  | float a e => exact hunique (by simpa [pyEq, asNumber] using hm) (by simpa [pyEq, asNumber] using hn)
  | null => simp [pyEq] at hm
  | str s => simp [pyEq] at hm
  | arr items => simp [pyEq] at hm
  | obj fields => simp [pyEq] at hm

end

end Purra.Json

namespace Purra.Mem0

theorem nodup_viewed (row : Record) : (row.viewed.map Prod.fst).Nodup := by
  refine Json.nodup_merge ?_
  show ["version", "state", "metadata", "reason", "created_at", "updated_at"].Nodup
  decide

/-- A changed item keeps its id, its metadata and its deletion mark. -/
theorem changed_kept {host : Host} {now version : Int} {row : Record} {change : Json.Object} :
    (changed host now row change version).id = row.id := by
  unfold changed
  split <;> rfl

/-- **A change moves the version on by one.** -/
theorem version_changed {host : Host} {now version : Int} {row : Record} {change : Json.Object}
    (h : change ≠ []) : (changed host now row change version).version = .int (version + 1) := by
  rw [changed, if_neg h]
  have hview : ((Json.merge (Json.merge row.viewed change)
      [("version", .int (version + 1)), ("updated_at", .str (host.isoformat now))]).map
        Prod.fst).Nodup :=
    Json.nodup_merge (Json.nodup_merge (nodup_viewed row))
  have hstamp : ([("version", Json.int (version + 1)),
      ("updated_at", .str (host.isoformat now))].map Prod.fst).Nodup := by
    show ["version", "updated_at"].Nodup
    decide
  show (Json.field? (Json.merge _ (Json.merge (Json.merge row.viewed change)
    [("version", .int (version + 1)), ("updated_at", .str (host.isoformat now))])) "version").getD
      .null = _
  rw [Json.field?_merge hview, Json.field?_merge hstamp]
  rfl

end Purra.Mem0
