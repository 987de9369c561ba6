import Mathlib.Data.List.Nodup

/-!
# Ordered rows

Three notions about a list of rows that is worked through from front to back.

* `InOrder` — every row names only what was known before it: nodes given at the
  start, and the rows above.  `inOrder_append` cuts a list in two; `InOrder.without` says
  which rows may be taken out.
* `findFirst` — the first row that meets a test, with its position; `findFirst_set`
  continues the search behind a row that was replaced.
* `setAll` — rows replaced by position, one after the other.  `forall₂_setAll` is
  the frame rule: what holds between a row and each of its replacements, and
  between a row and itself, holds between the two lists.  `setAll_eq_map`
  evaluates replacements that were computed row by row, `positions` being the usual ones.
-/

namespace Purra

section InOrder

variable {κ : Type}

/-- Every row names only known nodes and rows above it. -/
def InOrder : List κ → List (κ × List κ) → Prop
  | _, [] => True
  | known, row :: rows => (∀ b ∈ row.2, b ∈ known) ∧ InOrder (known ++ [row.1]) rows

instance decidableInOrder [DecidableEq κ] :
    (known : List κ) → (rows : List (κ × List κ)) → Decidable (InOrder known rows)
  | _, [] => isTrue trivial
  | known, row :: rows =>
    have := decidableInOrder (known ++ [row.1]) rows
    inferInstanceAs (Decidable ((∀ b ∈ row.2, b ∈ known) ∧ InOrder (known ++ [row.1]) rows))

theorem inOrder_append {known : List κ} {rows rows' : List (κ × List κ)} :
    InOrder known (rows ++ rows') ↔
      InOrder known rows ∧ InOrder (known ++ rows.map Prod.fst) rows' := by
  induction rows generalizing known with
  | nil => simp [InOrder]
  | cons row rows ih => simp [InOrder, ih, and_assoc]

/-- Rows may be taken out when their nodes are known from the start. -/
theorem InOrder.without (out : κ → Bool) {rows : List (κ × List κ)} :
    ∀ {known known' : List κ}, InOrder known rows → (∀ a ∈ known, a ∈ known') →
      (∀ row ∈ rows, out row.1 = true → row.1 ∈ known') →
      InOrder known' (rows.filter fun row => !out row.1) := by
  induction rows with
  | nil => exact fun _ _ _ => trivial
  | cons row rows ih =>
    intro known known' h hsub hout
    cases hrow : out row.1 with
    | true =>
      rw [List.filter_cons_of_neg (by simp [hrow])]
      refine ih h.2 (fun a ha => ?_) fun r hr => hout r (List.mem_cons_of_mem row hr)
      rcases List.mem_append.1 ha with ha | ha
      · exact hsub a ha
      · rw [List.mem_singleton.1 ha]
        exact hout row (List.mem_cons_self ..) hrow
    | false =>
      rw [List.filter_cons_of_pos (by simp [hrow])]
      refine ⟨fun b hb => hsub b (h.1 b hb), ih h.2 (fun a ha => ?_) fun r hr hr' => ?_⟩
      · rcases List.mem_append.1 ha with ha | ha
        · exact List.mem_append_left _ (hsub a ha)
        · exact List.mem_append_right _ ha
      · exact List.mem_append_left _ (hout r (List.mem_cons_of_mem row hr) hr')

/-- Names may be dropped from the rows. -/
theorem InOrder.restrict (keep : κ → Bool) {rows : List (κ × List κ)} :
    ∀ {known known' : List κ}, InOrder known rows →
      (∀ a ∈ known, keep a = true → a ∈ known') →
      InOrder known' (rows.map fun row => (row.1, row.2.filter keep)) := by
  induction rows with
  | nil => exact fun _ _ => trivial
  | cons row rows ih =>
    intro known known' h hsub
    rw [List.map_cons]
    refine ⟨fun b hb => ?_, ih h.2 fun a ha hk => ?_⟩
    · rw [List.mem_filter] at hb
      exact hsub b (h.1 b hb.1) hb.2
    · rcases List.mem_append.1 ha with ha | ha
      · exact List.mem_append_left _ (hsub a ha hk)
      · exact List.mem_append_right _ ha

/-- What a row names was known at the start, or stands above it. -/
theorem InOrder.earlier {rows : List (κ × List κ)} :
    ∀ {known : List κ}, InOrder known rows → ∀ {i : Nat} {row : κ × List κ},
      rows[i]? = some row → ∀ b ∈ row.2, b ∈ known ∨ ∃ j < i, ∃ row', rows[j]? = some row' ∧
        row'.1 = b := by
  induction rows with
  | nil => exact fun _ _ _ h => by cases h
  | cons first rows ih =>
    intro known h i row hget b hb
    cases i with
    | zero =>
      cases hget
      exact Or.inl (h.1 b hb)
    | succ i =>
      rw [List.getElem?_cons_succ] at hget
      rcases ih h.2 hget b hb with hknown | ⟨j, hj, row', hrow', hid⟩
      · rcases List.mem_append.1 hknown with hknown | hfirst
        · exact Or.inl hknown
        · exact Or.inr ⟨0, by omega, first, rfl, (List.mem_singleton.1 hfirst).symm⟩
      · exact Or.inr ⟨j + 1, by omega, row', hrow', hid⟩

end InOrder

section FindFirst

variable {α : Type} {p : α → Bool} {l : List α}

/-- The first row that meets `p`, with its position. -/
def findFirst (p : α → Bool) (l : List α) : Option (Nat × α) :=
  (l.findIdx? p).bind fun i => l[i]?.map fun a => (i, a)

theorem findFirst_eq_some {i : Nat} {a : α} :
    findFirst p l = some (i, a) ↔
      l[i]? = some a ∧ p a = true ∧ ∀ j b, j < i → l[j]? = some b → p b = false := by
  unfold findFirst
  rw [Option.bind_eq_some_iff]
  constructor
  · rintro ⟨k, hk, hmap⟩
    obtain ⟨b, hb, heq⟩ := Option.map_eq_some_iff.1 hmap
    cases heq
    obtain ⟨hlt, hp, hbefore⟩ := List.findIdx?_eq_some_iff_getElem.1 hk
    rw [List.getElem?_eq_getElem hlt] at hb
    cases hb
    refine ⟨List.getElem?_eq_getElem hlt, hp, fun j b hj hb => ?_⟩
    rw [List.getElem?_eq_getElem (Nat.lt_trans hj hlt)] at hb
    cases hb
    simpa using hbefore j hj
  · rintro ⟨ha, hp, hbefore⟩
    obtain ⟨hlt, hget⟩ := List.getElem?_eq_some_iff.1 ha
    refine ⟨i, List.findIdx?_eq_some_iff_getElem.2 ⟨hlt, ?_, fun j hj => ?_⟩, ?_⟩
    · rw [hget]
      exact hp
    · simpa using hbefore j _ hj (List.getElem?_eq_getElem (Nat.lt_trans hj hlt))
    · rw [ha]
      rfl

theorem findFirst_eq_none : findFirst p l = none ↔ ∀ a ∈ l, p a = false := by
  unfold findFirst
  constructor
  · intro h
    rw [← List.findIdx?_eq_none_iff]
    cases hk : l.findIdx? p with
    | none => rfl
    | some k =>
      obtain ⟨hlt, -, -⟩ := List.findIdx?_eq_some_iff_getElem.1 hk
      rw [hk, Option.bind_some, List.getElem?_eq_getElem hlt] at h
      cases h
  · intro h
    rw [List.findIdx?_eq_none_iff.2 h]
    rfl

theorem findFirst_congr {q : α → Bool} (h : ∀ a ∈ l, p a = q a) :
    findFirst p l = findFirst q l := by
  have hidx : l.findIdx? p = l.findIdx? q := by
    induction l with
    | nil => rfl
    | cons a l ih =>
      rw [List.findIdx?_cons, List.findIdx?_cons, h a (List.mem_cons_self ..),
        ih fun b hb => h b (List.mem_cons_of_mem a hb)]
  rw [findFirst, findFirst, hidx]

/-- When the first row found is replaced by one that fails the test, the search goes on behind
it. -/
theorem findFirst_set {i : Nat} {a b : α} (h : findFirst p l = some (i, a)) (hb : p b = false) :
    findFirst p (l.set i b) = (findFirst p (l.drop (i + 1))).map fun q => (i + 1 + q.1, q.2) := by
  obtain ⟨ha, -, hbefore⟩ := findFirst_eq_some.1 h
  have hi := (List.getElem?_eq_some_iff.1 ha).1
  have hfront : ∀ j c, j ≤ i → (l.set i b)[j]? = some c → p c = false := by
    intro j c hj hc
    rcases Nat.lt_or_eq_of_le hj with hlt | rfl
    · rw [List.getElem?_set_ne (by omega)] at hc
      exact hbefore j c hlt hc
    · rw [List.getElem?_set_self hi] at hc
      cases hc
      exact hb
  have hback : ∀ k, (l.set i b)[i + 1 + k]? = (l.drop (i + 1))[k]? := by
    intro k
    rw [List.getElem?_set_ne (by omega), List.getElem?_drop]
  cases hrest : findFirst p (l.drop (i + 1)) with
  | none =>
    refine findFirst_eq_none.2 fun c hc => ?_
    obtain ⟨j, hj⟩ := List.mem_iff_getElem?.1 hc
    by_cases hji : j ≤ i
    · exact hfront j c hji hj
    · rw [show j = i + 1 + (j - (i + 1)) by omega, hback] at hj
      exact findFirst_eq_none.1 hrest c (List.mem_of_getElem? hj)
  | some q =>
    obtain ⟨hget, hq, hprev⟩ := findFirst_eq_some.1 hrest
    refine findFirst_eq_some.2 ⟨(hback q.1).trans hget, hq, fun j c hj hc => ?_⟩
    by_cases hji : j ≤ i
    · exact hfront j c hji hc
    · rw [show j = i + 1 + (j - (i + 1)) by omega, hback] at hc
      exact hprev (j - (i + 1)) c (by omega) hc

end FindFirst

section SetAll

variable {α : Type}

/-- Replace rows by position, one replacement after the other. -/
def setAll (l : List α) (changes : List (Nat × α)) : List α :=
  changes.foldl (fun l c => l.set c.1 c.2) l

@[simp] theorem setAll_nil (l : List α) : setAll l [] = l := rfl

@[simp] theorem setAll_cons (l : List α) (c : Nat × α) (changes : List (Nat × α)) :
    setAll l (c :: changes) = setAll (l.set c.1 c.2) changes := rfl

@[simp] theorem length_setAll (l : List α) (changes : List (Nat × α)) :
    (setAll l changes).length = l.length := by
  induction changes generalizing l with
  | nil => rfl
  | cons c changes ih => rw [setAll_cons, ih, List.length_set]

/-- A position is left alone, or holds one of its replacements. -/
theorem getElem?_setAll {l : List α} {changes : List (Nat × α)} {i : Nat} {a : α}
    (h : (setAll l changes)[i]? = some a) : l[i]? = some a ∨ (i, a) ∈ changes := by
  induction changes generalizing l with
  | nil => exact Or.inl h
  | cons c changes ih =>
    rcases ih h with hl | hmem
    · rw [List.getElem?_set] at hl
      by_cases hi : c.1 = i
      · rw [if_pos hi] at hl
        split at hl
        · cases hl
          exact Or.inr (by rw [← hi]; exact List.mem_cons_self ..)
        · cases hl
      · rw [if_neg hi] at hl
        exact Or.inl hl
    · exact Or.inr (List.mem_cons_of_mem c hmem)

theorem getElem?_setAll_of_forall_ne {l : List α} {changes : List (Nat × α)} {i : Nat}
    (h : ∀ a, (i, a) ∉ changes) : (setAll l changes)[i]? = l[i]? := by
  induction changes generalizing l with
  | nil => rfl
  | cons c changes ih =>
    have hi : c.1 ≠ i := by
      rintro rfl
      exact h c.2 (List.mem_cons_self ..)
    rw [setAll_cons, ih fun a ha => h a (List.mem_cons_of_mem c ha), List.getElem?_set_ne hi]

/-- A position all of whose replacements agree holds that one. -/
theorem getElem?_setAll_of_mem {l : List α} {changes : List (Nat × α)} {i : Nat} {a : α}
    (hmem : (i, a) ∈ changes) (hall : ∀ a', (i, a') ∈ changes → a' = a) (hi : i < l.length) :
    (setAll l changes)[i]? = some a := by
  induction changes generalizing l with
  | nil => exact absurd hmem List.not_mem_nil
  | cons c changes ih =>
    have hrest : ∀ a', (i, a') ∈ changes → a' = a := fun a' ha' =>
      hall a' (List.mem_cons_of_mem c ha')
    rw [setAll_cons]
    by_cases hlater : (i, a) ∈ changes
    · exact ih hlater hrest (by rwa [List.length_set])
    · have hc : c = (i, a) := by
        rcases List.mem_cons.1 hmem with h | h
        · exact h.symm
        · exact absurd h hlater
      subst hc
      rw [getElem?_setAll_of_forall_ne, List.getElem?_set_self hi]
      exact fun a' ha' => hlater (hrest a' ha' ▸ ha')

/-- **Frame rule.**  A relation that holds between a row and each of its replacements, and between
a row and itself, holds between the two lists. -/
theorem forall₂_setAll {R : α → α → Prop} (hrefl : ∀ a, R a a) {l : List α}
    {changes : List (Nat × α)} (h : ∀ i a, (i, a) ∈ changes → ∀ b, l[i]? = some b → R b a) :
    List.Forall₂ R l (setAll l changes) := by
  rw [List.forall₂_iff_get]
  refine ⟨(length_setAll l changes).symm, fun i hi hi' => ?_⟩
  rcases getElem?_setAll (List.getElem?_eq_getElem hi') with hl | hmem
  · rw [List.getElem?_eq_getElem hi] at hl
    rw [List.get_eq_getElem, List.get_eq_getElem, Option.some.inj hl]
    exact hrefl _
  · exact h i _ hmem _ (List.getElem?_eq_getElem hi)

theorem forall₂_trans {R : α → α → Prop} (htrans : ∀ {a b c}, R a b → R b c → R a c)
    {l l' l'' : List α} (h : List.Forall₂ R l l') (h' : List.Forall₂ R l' l'') :
    List.Forall₂ R l l'' := by
  induction h generalizing l'' with
  | nil => exact h'
  | cons hab _ ih =>
    cases h' with
    | cons hbc hrest => exact .cons (htrans hab hbc) (ih hrest)

/-- Lists related member by member have the same images when related members have. -/
theorem map_eq_of_forall₂ {α β γ : Type} {R : α → β → Prop} {f : α → γ} {g : β → γ} {xs : List α}
    {ys : List β} (h : List.Forall₂ R xs ys) (hf : ∀ x ∈ xs, ∀ y, R x y → f x = g y) :
    xs.map f = ys.map g := by
  induction h with
  | nil => rfl
  | cons hxy _ ih =>
    rw [List.map_cons, List.map_cons, hf _ (List.mem_cons_self ..) _ hxy,
      ih fun x hx => hf x (List.mem_cons_of_mem _ hx)]

theorem forall₂_mem_left {β : Type} {R : α → β → Prop} {l : List α} {m : List β}
    (h : List.Forall₂ R l m) : ∀ a ∈ l, ∃ b ∈ m, R a b := by
  induction h with
  | nil => exact fun a ha => absurd ha List.not_mem_nil
  | cons hfirst _ ih =>
    intro a ha
    rcases List.mem_cons.1 ha with rfl | ha
    · exact ⟨_, List.mem_cons_self, hfirst⟩
    · obtain ⟨b, hb, hab⟩ := ih a ha
      exact ⟨b, List.mem_cons_of_mem _ hb, hab⟩

theorem forall₂_mem_right {β : Type} {R : α → β → Prop} {l : List α} {m : List β}
    (h : List.Forall₂ R l m) : ∀ b ∈ m, ∃ a ∈ l, R a b := by
  intro b hb
  exact forall₂_mem_left h.flip b hb

theorem eq_of_length_le_one {α : Type} {l : List α} (h : l.length ≤ 1) {a b : α} (ha : a ∈ l)
    (hb : b ∈ l) : a = b := by
  match l with
  | [] => exact absurd ha List.not_mem_nil
  | [c] => rw [List.mem_singleton.1 ha, List.mem_singleton.1 hb]
  | _ :: _ :: _ => simp at h

/-- Elements in step, through those of a third list. -/
theorem forall₂_comp {β γ : Type} {R : α → β → Prop} {S : β → γ → Prop} {l : List α} {m : List β}
    {n : List γ} (h : List.Forall₂ R l m) (h' : List.Forall₂ S m n) :
    List.Forall₂ (fun a c => ∃ b, R a b ∧ S b c) l n := by
  induction h generalizing n with
  | nil =>
    cases h'
    exact .nil
  | cons hfirst _ ih =>
    cases h' with
    | cons hfirst' hrest' => exact .cons ⟨_, hfirst, hfirst'⟩ (ih hrest')

/-- The replacement of every position for which `f` gives one. -/
def positions (f : α → Option α) (l : List α) : List (Nat × α) :=
  l.zipIdx.filterMap fun p => (f p.1).map fun a => (p.2, a)

theorem mem_positions {f : α → Option α} {l : List α} {i : Nat} {a : α} :
    (i, a) ∈ positions f l ↔ ∃ b, l[i]? = some b ∧ f b = some a := by
  simp only [positions, List.mem_filterMap, Option.map_eq_some_iff, Prod.mk.injEq, Prod.exists,
    List.mem_zipIdx_iff_getElem?]
  constructor
  · rintro ⟨b, j, hb, a', hf, rfl, rfl⟩
    exact ⟨b, hb, hf⟩
  · rintro ⟨b, hb, hf⟩
    exact ⟨b, i, hb, a, hf, rfl, rfl⟩

/-- Replacements computed row by row map the rows, in whatever order they are made. -/
theorem setAll_eq_map {f : α → Option α} {l : List α} {changes : List (Nat × α)}
    (h : ∀ i a, (i, a) ∈ changes ↔ ∃ b, l[i]? = some b ∧ f b = some a) :
    setAll l changes = l.map fun a => (f a).getD a := by
  apply List.ext_getElem?
  intro i
  rw [List.getElem?_map]
  cases hb : l[i]? with
  | none =>
    rw [List.getElem?_eq_none_iff] at hb
    rw [Option.map_none, List.getElem?_eq_none_iff, length_setAll]
    exact hb
  | some b =>
    cases hf : f b with
    | none =>
      rw [getElem?_setAll_of_forall_ne, hb, Option.map_some, hf, Option.getD_none]
      intro a ha
      obtain ⟨b', hb', hf'⟩ := (h i a).1 ha
      rw [hb] at hb'
      cases hb'
      rw [hf] at hf'
      cases hf'
    | some a =>
      rw [Option.map_some, hf, Option.getD_some]
      refine getElem?_setAll_of_mem ((h i a).2 ⟨b, hb, hf⟩) (fun a' ha' => ?_)
        (List.getElem?_eq_some_iff.1 hb).1
      obtain ⟨b', hb', hf'⟩ := (h i a').1 ha'
      rw [hb] at hb'
      cases hb'
      rw [hf] at hf'
      exact (Option.some.inj hf').symm

theorem setAll_positions (f : α → Option α) (l : List α) :
    setAll l (positions f l) = l.map fun a => (f a).getD a :=
  setAll_eq_map fun _ _ => mem_positions

/-- No position is replaced twice. -/
theorem nodup_positions (f : α → Option α) (l : List α) :
    ((positions f l).map Prod.fst).Nodup := by
  have hsub : ((positions f l).map Prod.fst).Sublist (l.zipIdx.map Prod.snd) := by
    unfold positions
    induction l.zipIdx with
    | nil => exact .slnil
    | cons p rest ih =>
      rw [List.filterMap_cons, List.map_cons]
      cases hf : f p.1 with
      | none =>
        rw [Option.map_none]
        exact ih.cons _
      | some a =>
        rw [Option.map_some, List.map_cons]
        exact ih.cons_cons _
  exact hsub.nodup (by simpa [List.zipIdx_map_snd] using List.nodup_range')

end SetAll

end Purra
