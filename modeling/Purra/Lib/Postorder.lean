import Mathlib.Logic.Relation
import Purra.Lib.Sequence

/-!
# Insertion in postorder

Items with what they need, inserted into a sequence behind those that are there already:
every item once, and behind what it needs.

* `Postorder` — a list of items that may be inserted.
* `Reach` — what an item needs, directly or through others, of what is not there yet;
  `Reach.through` — a way after more has come.
* `Postorder.mem_of_reach` — an insertion that ends with what an item needs has inserted
  all it reaches.
* `Insertion` — several items one after the other: `Insertion.mem_iff` says what is there
  in the end, `Insertion.fresh_iff` when everything has come once.
-/

namespace Purra

section

variable {α : Type} {needs : α → List α} {done new more : List α} {a b : α}

/-- The items of `new` may be inserted behind `done`. -/
structure Postorder (needs : α → List α) (done new : List α) : Prop where
  nodup : new.Nodup
  fresh : ∀ a ∈ new, a ∉ done
  needed : ∀ front a back, new = front ++ a :: back → ∀ b ∈ needs a, b ∈ done ++ front

/-- What `a` needs, directly or through others, of what is not in `there`. -/
def Reach (needs : α → List α) (there : Set α) (a b : α) : Prop :=
  Relation.TransGen (fun a b => b ∈ needs a ∧ b ∉ there) a b

namespace Reach

variable {there there' : Set α}

theorem mono (hsub : there ⊆ there') (h : Reach needs there' a b) : Reach needs there a b :=
  Relation.TransGen.mono (fun _ _ hab => ⟨hab.1, fun hmem => hab.2 (hsub hmem)⟩) a b h

theorem not_mem (h : Reach needs there a b) : b ∉ there := by
  cases h with
  | single h => exact h.2
  | tail _ h => exact h.2

/-- What has come since includes all it needs. -/
def Closed (needs : α → List α) (there there' : Set α) : Prop :=
  ∀ a ∈ there', a ∉ there → ∀ b ∈ needs a, b ∈ there'

/-- Where what has come since is closed, it can only end a way, not carry one on. -/
theorem through (hclosed : Closed needs there there') (h : Reach needs there a b) :
    b ∈ there' ∨ Reach needs there' a b := by
  induction h with
  | @single b hb =>
    by_cases hmem : b ∈ there'
    · exact .inl hmem
    · exact .inr (.single ⟨hb.1, hmem⟩)
  | @tail b c hab hbc ih =>
    by_cases hmem : c ∈ there'
    · exact .inl hmem
    rcases ih with hb | hb
    · exact .inl (hclosed b hb (not_mem hab) c hbc.1)
    · exact .inr (hb.tail ⟨hbc.1, hmem⟩)

end Reach

namespace Postorder

theorem nil : Postorder needs done [] where
  nodup := List.nodup_nil
  fresh := fun a ha => absurd ha List.not_mem_nil
  needed := fun front a back h => by simp at h

/-- One insertion after the other. -/
theorem append (h : Postorder needs done new) (hmore : Postorder needs (done ++ new) more) :
    Postorder needs done (new ++ more) where
  nodup := by
    refine List.nodup_append.2 ⟨h.nodup, hmore.nodup, fun a ha b hb hab => ?_⟩
    exact hmore.fresh b hb (List.mem_append_right done (hab ▸ ha))
  fresh := by
    intro a ha
    rcases List.mem_append.1 ha with ha | ha
    · exact h.fresh a ha
    · exact fun hdone => hmore.fresh a ha (List.mem_append_left new hdone)
  needed := by
    intro front a back hsplit b hb
    rcases List.append_eq_append_iff.1 hsplit with ⟨mid, rfl, hrest⟩ | ⟨mid, hnew, hmid⟩
    · have hmem := hmore.needed mid a back hrest b hb
      rwa [List.append_assoc] at hmem
    · cases mid with
      | nil =>
        rw [List.append_nil] at hnew
        have hmem := hmore.needed [] a back hmid.symm b hb
        rwa [List.append_nil, hnew] at hmem
      | cons first mid =>
        obtain ⟨rfl, -⟩ := List.cons.inj hmid
        exact h.needed front _ mid hnew b hb

/-- One more item, behind all it needs. -/
theorem snoc (h : Postorder needs done new) (hfresh : a ∉ done ++ new)
    (hneeds : ∀ b ∈ needs a, b ∈ done ++ new) : Postorder needs done (new ++ [a]) := by
  refine h.append ⟨List.nodup_singleton a, ?_, ?_⟩
  · intro b hb
    rwa [List.mem_singleton.1 hb]
  · intro front b back hsplit c hc
    cases front with
    | nil =>
      obtain ⟨rfl, -⟩ := List.cons.inj hsplit
      rw [List.append_nil]
      exact hneeds c hc
    | cons first rest => simp at hsplit

/-- What an inserted item needs is there in the end. -/
theorem closed (h : Postorder needs done new) (ha : a ∈ new) : ∀ b ∈ needs a, b ∈ done ++ new := by
  obtain ⟨front, back, rfl⟩ := List.append_of_mem ha
  intro b hb
  have hmem := h.needed front a back rfl b hb
  rw [← List.append_assoc]
  exact List.mem_append_left _ hmem

/-- **All that is reached is inserted**, by an insertion that ends with what `a` needs. -/
theorem mem_of_reach (h : Postorder needs done new) (ha : ∀ b ∈ needs a, b ∈ done ++ new)
    (hreach : Reach needs {c | c ∈ done} a b) : b ∈ new := by
  have hstep : ∀ {c}, c ∈ done ++ new → c ∉ done → c ∈ new := fun hc hnot =>
    (List.mem_append.1 hc).resolve_left hnot
  induction hreach with
  | single hb => exact hstep (ha _ hb.1) hb.2
  | tail _ hbc ih => exact hstep (h.closed ih _ hbc.1) hbc.2

/-- Every item is behind what it needs. -/
theorem inOrder (h : Postorder needs done new) : InOrder done (new.map fun a => (a, needs a)) := by
  have hneeded := h.needed
  clear h
  induction new generalizing done with
  | nil => trivial
  | cons a rest ih =>
    refine ⟨fun b hb => ?_, ih fun front c back hsplit b hb => ?_⟩
    · have hmem := hneeded [] a rest rfl b hb
      rwa [List.append_nil] at hmem
    · have hmem := hneeded (a :: front) c back (congrArg (a :: ·) hsplit) b hb
      rwa [List.append_assoc]

end Postorder

/-! ## Several items, one after the other -/

/-- What an item needs is inserted before it. -/
structure Supplies (needs : α → List α) (done new : List α) (a : α) : Prop
    extends Postorder needs done new where
  apart : a ∉ new
  needed_mem : ∀ b ∈ needs a, b ∈ done ++ new
  reached : ∀ b ∈ new, Reach needs {c | c ∈ done} a b

namespace Supplies

theorem mem_new (h : Supplies needs done new a) : b ∈ new ↔ Reach needs {c | c ∈ done} a b :=
  ⟨h.reached b, h.mem_of_reach h.needed_mem⟩

/-- With the item, all that has come is closed. -/
theorem closed_with (h : Supplies needs done new a) :
    Reach.Closed needs {c | c ∈ done} {c | c ∈ done ++ (new ++ [a])} := by
  intro b hb hfresh c hc
  have hold : c ∈ done ++ new := by
    rcases List.mem_append.1 ((List.mem_append.1 hb).resolve_left hfresh) with hnew | hself
    · exact h.closed hnew c hc
    · rw [List.mem_singleton.1 hself] at hc
      exact h.needed_mem c hc
  show c ∈ done ++ (new ++ [a])
  rw [← List.append_assoc]
  exact List.mem_append_left [a] hold

theorem mem_with (h : Supplies needs done new a) :
    b ∈ done ++ (new ++ [a]) ↔ b ∈ done ∨ b = a ∨ Reach needs {c | c ∈ done} a b := by
  rw [List.mem_append, List.mem_append, List.mem_singleton, h.mem_new]
  exact or_congr_right or_comm

end Supplies

/-- `roots` are inserted one after the other, each behind what it needs, whether they are there
or not; `out` is all that comes. -/
inductive Insertion (needs : α → List α) : List α → List α → List α → Prop
  | nil {done : List α} : Insertion needs done [] []
  | cons {done new out roots : List α} {a : α} :
      Supplies needs done new a → Insertion needs (done ++ (new ++ [a])) roots out →
      Insertion needs done (a :: roots) ((new ++ [a]) ++ out)

namespace Insertion

variable {roots roots' out out' : List α}

theorem single (h : Supplies needs done new a) : Insertion needs done [a] (new ++ [a]) := by
  have hone := cons h .nil
  rwa [List.append_nil] at hone

theorem append (h : Insertion needs done roots out)
    (h' : Insertion needs (done ++ out) roots' out') :
    Insertion needs done (roots ++ roots') (out ++ out') := by
  induction h with
  | nil => rwa [List.append_nil] at h'
  | cons hsupplies _ ih =>
    rw [List.append_assoc]
    refine .cons hsupplies (ih ?_)
    rwa [List.append_assoc]

/-- A way to something that has not come with the first root is a way from then on. -/
theorem reach_iff (h : Supplies needs done new a) {c : α} (hc : c ∉ done ++ (new ++ [a])) :
    Reach needs {c | c ∈ done ++ (new ++ [a])} b c ↔ Reach needs {c | c ∈ done} b c := by
  constructor
  · exact Reach.mono fun x hx => List.mem_append_left _ hx
  · intro hreach
    exact (Reach.through h.closed_with hreach).resolve_left hc

/-- **What is there in the end**: what was there, the roots, and all they reach. -/
theorem mem_iff (h : Insertion needs done roots out) :
    b ∈ done ++ out ↔
      b ∈ done ∨ ∃ a ∈ roots, b = a ∨ Reach needs {c | c ∈ done} a b := by
  induction h with
  | nil => simp
  | @cons done new out roots a hsupplies hrest ih =>
    rw [← List.append_assoc, ih]
    by_cases hmem : b ∈ done ++ (new ++ [a])
    · refine iff_of_true (.inl hmem) ?_
      rcases hsupplies.mem_with.1 hmem with hb | hb
      · exact .inl hb
      · exact .inr ⟨a, List.mem_cons_self, hb⟩
    · have hnot := mt hsupplies.mem_with.2 hmem
      simp only [hmem, false_or, reach_iff hsupplies hmem, List.exists_mem_cons_iff]
      exact ⟨fun h => .inr (.inr h), fun h => (h.resolve_left fun hb => hnot (.inl hb)).resolve_left
        fun hb => hnot (.inr hb)⟩

/-- Everything comes behind what it needs. -/
theorem inOrder (h : Insertion needs done roots out) :
    InOrder done (out.map fun a => (a, needs a)) := by
  induction h with
  | nil => trivial
  | @cons done new out roots a hsupplies hrest ih =>
    have hmap : (new ++ [a]).map (fun a => (a, needs a)) =
        new.map (fun a => (a, needs a)) ++ [(a, needs a)] := by rw [List.map_append]; rfl
    have hfst : ∀ l : List α, (l.map fun a => (a, needs a)).map Prod.fst = l := fun l => by
      rw [List.map_map]
      exact List.map_id l
    rw [List.map_append, inOrder_append, hfst]
    refine ⟨?_, ih⟩
    rw [hmap, inOrder_append, hfst]
    exact ⟨hsupplies.inOrder, hsupplies.needed_mem, trivial⟩

/-- **Everything comes once** exactly when no root is there already and no root reaches a
later one. -/
theorem fresh_iff (h : Insertion needs done roots out) (hnodup : roots.Nodup) :
    (out.Nodup ∧ ∀ b ∈ out, b ∉ done) ↔
      (∀ a ∈ roots, a ∉ done) ∧ roots.Pairwise fun a b => ¬ Reach needs {c | c ∈ done} a b := by
  induction h with
  | nil => simp
  | @cons done new out roots a hsupplies hrest ih =>
    obtain ⟨hself, hrootsNodup⟩ := List.nodup_cons.1 hnodup
    have hnew : (new ++ [a]).Nodup :=
      List.nodup_append.2 ⟨hsupplies.nodup, List.nodup_singleton a, fun x hx y hy hxy =>
        hsupplies.apart (List.mem_singleton.1 hy ▸ hxy ▸ hx)⟩
    have hleft : ((new ++ [a]) ++ out).Nodup ∧ (∀ b ∈ (new ++ [a]) ++ out, b ∉ done) ↔
        a ∉ done ∧ out.Nodup ∧ ∀ b ∈ out, b ∉ done ++ (new ++ [a]) := by
      constructor
      · rintro ⟨hall, hdone⟩
        obtain ⟨-, hout, hapart⟩ := List.nodup_append.1 hall
        refine ⟨hdone a (by simp), hout, fun b hb hmem => ?_⟩
        rcases List.mem_append.1 hmem with hmem | hmem
        · exact hdone b (List.mem_append_right _ hb) hmem
        · exact hapart b hmem b hb rfl
      · rintro ⟨ha, hout, hdone⟩
        refine ⟨List.nodup_append.2 ⟨hnew, hout, fun x hx y hy hxy =>
          hdone y hy (List.mem_append_right done (hxy ▸ hx))⟩, fun b hb hmem => ?_⟩
        rcases List.mem_append.1 hb with hb | hb
        · rcases List.mem_append.1 hb with hb | hb
          · exact hsupplies.fresh b hb hmem
          · exact ha (List.mem_singleton.1 hb ▸ hmem)
        · exact hdone b hb (List.mem_append_left _ hmem)
    have hright : ((∀ b ∈ roots, b ∉ done ++ (new ++ [a])) ∧
          roots.Pairwise fun b c => ¬ Reach needs {c | c ∈ done ++ (new ++ [a])} b c) ↔
        (∀ b ∈ roots, b ∉ done) ∧ (∀ b ∈ roots, ¬ Reach needs {c | c ∈ done} a b) ∧
          roots.Pairwise fun b c => ¬ Reach needs {c | c ∈ done} b c := by
      have hroots : (∀ b ∈ roots, b ∉ done ++ (new ++ [a])) ↔
          (∀ b ∈ roots, b ∉ done) ∧ ∀ b ∈ roots, ¬ Reach needs {c | c ∈ done} a b := by
        rw [← forall₂_and]
        refine forall₂_congr fun b hb => ?_
        have hne : b ≠ a := fun heq => hself (heq ▸ hb)
        rw [hsupplies.mem_with, not_or, not_or]
        exact ⟨fun h => ⟨h.1, h.2.2⟩, fun h => ⟨h.1, hne, h.2⟩⟩
      rw [← and_assoc, ← hroots]
      refine and_congr_right fun hfresh => List.Pairwise.iff_of_mem fun _ hc => ?_
      rw [reach_iff hsupplies (hfresh _ hc)]
    rw [hleft, ih hrootsNodup, hright, List.forall_mem_cons, List.pairwise_cons, and_assoc]

end Insertion

end

end Purra
