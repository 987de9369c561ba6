import Purra.AgentTree.Skeleton

/-!
# Who is below whom

A Run is created after its parent, so the walk up the tree ends, and `_is_causal_descendant` decides
the relation it is named after.  `cancel_subtree` keeps a worklist instead and visits whatever is
below the Run it starts from.

* `Grown` — parents come first and have the same root; dependencies are siblings and acyclic.
* `Below` — the transitive closure of the parent relation.
* `isCausalDescendant_eq` — **the walk returns, with the right answer**, in every grown state.
* `subtree_closed` — a worklist that has run out has visited every child of what it visited.
-/

namespace Purra

open Purra.Action RunTree

/-- What the records of a Run say about each other. -/
structure Grown (s : AgentTreeState) : Prop where
  counted : ∀ {i}, s.HasRun i → i.createdSequence ≤ s.sequence
  parent : ∀ {i j}, s.HasRun i → s.HasRun j → i.parentRunId = some j.runId →
    j.rootRunId = i.rootRunId ∧ j.createdSequence < i.createdSequence
  sibling : ∀ {i j}, s.HasRun i → s.HasRun j → j.runId ∈ i.dependencyRunIds →
    i.parentRunId.isSome = true ∧ j.parentRunId = i.parentRunId ∧
      i.spawnBatchId.isSome = true ∧ j.spawnBatchId = i.spawnBatchId
  acyclic : Topology.Acyclic (s.runs.values.map fun r => (r.runId, r.dependencyRunIds))

section

variable {s s' : AgentTreeState}

/-- The rows of the dependency table are the records. -/
theorem depends_iff {a b : RequiredText} :
    Topology.Depends (s.runs.values.map fun r => (r.runId, r.dependencyRunIds)) a b ↔
      ∃ i, s.HasRun i ∧ i.runId = a ∧ b ∈ i.dependencyRunIds := by
  constructor
  · rintro ⟨row, hrow, rfl, hb⟩
    obtain ⟨r, hr, rfl⟩ := List.mem_map.1 hrow
    obtain ⟨k, hget⟩ := Dict.mem_values_iff.1 hr
    exact ⟨r.identity, ⟨k, r, hget, rfl⟩, rfl, hb⟩
  · rintro ⟨_, ⟨k, r, hget, rfl⟩, rfl, hb⟩
    exact ⟨_, List.mem_map.2 ⟨r, Dict.mem_values_of_get? hget, rfl⟩, rfl, hb⟩

theorem Updates.grown (h : Updates s s') (hs : Grown s) : Grown s' where
  counted hi := (hs.counted (h.run hi)).trans h.sequence
  parent hi hj := hs.parent (h.run hi) (h.run hj)
  sibling hi hj := hs.sibling (h.run hi) (h.run hj)
  acyclic := by
    refine hs.acyclic.mono fun a b hab => ?_
    obtain ⟨i, hi, ha, hb⟩ := depends_iff.1 hab
    exact depends_iff.2 ⟨i, h.run hi, ha, hb⟩

/-- New Runs come after their parents, and depend on each other only. -/
theorem Admission.grown {items : List SpawnedAgent} (h : Admission s s' items) (hf : Framed s)
    (hs : Grown s) : Grown s' where
  counted := by
    intro i hi
    rcases h.hasRun hi with hi | ⟨item, hitem, rfl⟩
    · exact (hs.counted hi).trans h.sequence_le
    · exact (h.admitted item hitem).counted
  parent := by
    intro i j hi hj heq
    rcases h.hasRun hi with ⟨k, r, hr, rfl⟩ | ⟨item, hitem, rfl⟩
    · exact hs.parent ⟨k, r, hr, rfl⟩
        (h.hasRun_of_key hf.free hj (hf.wired.parent hr heq)) heq
    · have hnew := h.admitted item hitem
      cases hnew.place with
      | root _ hparent => exact absurd (hparent.symm.trans heq) nofun
      | child parent _ _ _ _ hget _ hparent hroot =>
        have hid : j.runId = parent.identity.runId := Option.some.inj (heq.symm.trans hparent)
        have hold : s.HasRun j :=
          h.hasRun_of_key hf.free hj (hid ▸ Dict.mem_keys_iff.2 ⟨parent, hget⟩)
        have hsame : j = parent.identity :=
          hf.skeleton.run hold (AgentTreeState.hasRun_of_get? hget) hid
        subst hsame
        exact ⟨hroot.symm, lt_of_le_of_lt (hs.counted hold) hnew.created⟩
  sibling := by
    intro i j hi hj hdep
    rcases h.hasRun hi with ⟨k, r, hr, rfl⟩ | ⟨item, hitem, rfl⟩
    · exact hs.sibling ⟨k, r, hr, rfl⟩
        (h.hasRun_of_key hf.free hj (hf.wired.dependency hr hdep)) hdep
    · obtain ⟨sibling, hmem, hid, hparent, hparents, hbatch, hbatches⟩ :=
        (h.admitted item hitem).dependency _ hdep
      have hsibling : s'.HasRun sibling.run.identity :=
        AgentTreeState.hasRun_of_get? (h.get?_run_item hmem)
      have hsame : sibling.run.identity = j :=
        h.run_unique hf.wired hf.free hf.skeleton hsibling hj hid
      subst hsame
      exact ⟨hparent, hparents, hbatch, hbatches⟩
  acyclic := by
    refine Topology.Acyclic.union hs.acyclic h.acyclic (fun id => id.text ∈ s.runs.keys) ?_ ?_
    · intro a b hab ha
      obtain ⟨i, hi, rfl, hb⟩ := depends_iff.1 hab
      obtain ⟨k, r, hr, rfl⟩ := h.hasRun_of_key hf.free hi ha
      exact ⟨depends_iff.2 ⟨_, ⟨k, r, hr, rfl⟩, rfl, hb⟩, hf.wired.dependency hr hb⟩
    · intro a b hab ha
      obtain ⟨i, hi, rfl, hb⟩ := depends_iff.1 hab
      rcases h.hasRun hi with hi | ⟨item, hitem, rfl⟩
      · exact absurd (hf.wired.hasRun_key hi) ha
      · refine ⟨⟨_, List.mem_map.2 ⟨item, hitem, rfl⟩, rfl, hb⟩, ?_⟩
        obtain ⟨sibling, hmem, rfl, -⟩ := (h.admitted item hitem).dependency _ hb
        exact Dict.get?_eq_none_iff.1 (h.run_new hf.free hmem)

/-! ## The walk up -/

/-- The record of `x` names `p` as its parent. -/
def ChildOf (s : AgentTreeState) (x p : RequiredText) : Prop :=
  ∃ r, s.runs.get? x.text = some r ∧ r.parentRunId = some p

/-- `x` is a child of `p`, or below one. -/
def Below (s : AgentTreeState) (x p : RequiredText) : Prop := Relation.TransGen (ChildOf s) x p

theorem below_iff {r : AgentTreeRun} {x p : RequiredText} (hr : s.runs.get? x.text = some r) :
    Below s x p ↔ ∃ q, r.parentRunId = some q ∧ (q = p ∨ Below s q p) := by
  unfold Below
  rw [Relation.TransGen.head'_iff]
  constructor
  · rintro ⟨q, ⟨u, hu, hparent⟩, hq⟩
    rw [hr] at hu
    cases hu
    refine ⟨q, hparent, ?_⟩
    rcases Relation.reflTransGen_iff_eq_or_transGen.1 hq with heq | hq
    · exact Or.inl heq.symm
    · exact Or.inr hq
  · rintro ⟨q, hparent, hq⟩
    refine ⟨q, ⟨r, hr, hparent⟩, ?_⟩
    rcases hq with rfl | hq
    · exact .refl
    · exact hq.to_reflTransGen

/-- How many Runs were created before one. -/
def AgentTreeState.before (s : AgentTreeState) (r : AgentTreeRun) : Nat :=
  s.runs.values.countP fun u => u.createdSequence < r.createdSequence

/-- Fewer Runs were created before an older Run. -/
theorem before_lt {k : String} {u r : AgentTreeRun} (hu : s.runs.get? k = some u)
    (hlt : u.createdSequence < r.createdSequence) : s.before u < s.before r := by
  have hcount : ∀ {l : List AgentTreeRun}, u ∈ l →
      l.countP (fun w => w.createdSequence < u.createdSequence) <
        l.countP fun w => w.createdSequence < r.createdSequence := by
    intro l
    induction l with
    | nil => exact fun h => absurd h List.not_mem_nil
    | cons w l ih =>
      intro hmem
      have hle : l.countP (fun w => w.createdSequence < u.createdSequence) ≤
          l.countP fun w => w.createdSequence < r.createdSequence :=
        List.countP_mono_left fun x _ hx => by
          simp only [decide_eq_true_eq] at hx ⊢
          omega
      simp only [List.countP_cons, decide_eq_true_eq]
      rcases List.mem_cons.1 hmem with rfl | hmem
      · rw [if_neg (lt_irrefl _), if_pos hlt]
        omega
      · have := ih hmem
        split <;> split <;> omega
  exact hcount (Dict.mem_values_of_get? hu)

/-- The parent of a stored Run is stored, and was created before it. -/
theorem Grown.parentRun (hg : Grown s) (hw : Wired s) {k : String} {r : AgentTreeRun}
    {p : RequiredText} (hr : s.runs.get? k = some r) (hp : r.parentRunId = some p) :
    ∃ u, s.runs.get? p.text = some u ∧ u.runId = p ∧ u.rootRunId = r.rootRunId ∧
      u.createdSequence < r.createdSequence := by
  obtain ⟨u, hu⟩ := Dict.mem_keys_iff.1 (hw.parent hr hp)
  have hid : u.runId = p := by
    have hkey := hw.run_key hu
    rw [p.stripped] at hkey
    exact (RequiredText.ext hkey).symm
  have hnamed : r.identity.parentRunId = some u.identity.runId :=
    hp.trans (congrArg some hid.symm)
  obtain ⟨hroot, hlt⟩ := hg.parent (AgentTreeState.hasRun_of_get? hr)
    (AgentTreeState.hasRun_of_get? hu) hnamed
  exact ⟨u, hu, hid, hroot, hlt⟩

/-- The walk up from a stored Run returns, and finds `p` if and only if the Run is below it. -/
theorem isCausalDescendant_eq (hw : Wired s) (hg : Grown s) {p id : RequiredText}
    (hid : id.text ∈ s.runs.keys) :
    ∃ b, s.isCausalDescendant p id = .ok b ∧ (b = true ↔ Below s id p) := by
  obtain ⟨start, hstart⟩ := Dict.mem_keys_iff.1 hid
  have hwalk : s.isCausalDescendant p id =
      loop (s.descendantRound p) (s.runs.keys.length + 1) start := by
    unfold AgentTreeState.isCausalDescendant
    rw [AgentTreeState.requireRun_text.2 hstart]
    rfl
  -- one round stops at the top or at `p`, or goes on with the parent
  have hround : ∀ {cur : AgentTreeRun} {k : String}, s.runs.get? k = some cur →
      (cur.parentRunId = none ∧ s.descendantRound p cur = .ok (.inl false)) ∨
      (cur.parentRunId = some p ∧ s.descendantRound p cur = .ok (.inl true)) ∨
      ∃ q u, cur.parentRunId = some q ∧ q ≠ p ∧ s.runs.get? q.text = some u ∧ u.runId = q ∧
        u.createdSequence < cur.createdSequence ∧ s.descendantRound p cur = .ok (.inr u) := by
    intro cur k hcur
    cases hparent : cur.parentRunId with
    | none => exact Or.inl ⟨rfl, by simp [AgentTreeState.descendantRound, hparent]⟩
    | some q =>
      by_cases hq : q = p
      · subst hq
        exact Or.inr (Or.inl ⟨rfl, by simp [AgentTreeState.descendantRound, hparent]⟩)
      · obtain ⟨u, hu, hname, -, hlt⟩ := hg.parentRun hw hcur hparent
        refine Or.inr (Or.inr ⟨q, u, rfl, hq, hu, hname, hlt, ?_⟩)
        simp only [AgentTreeState.descendantRound, hparent, if_neg hq]
        rw [AgentTreeState.requireRun_text.2 hu]
        rfl
  have hlength : s.before start < s.runs.keys.length + 1 := by
    have hle : s.before start ≤ s.runs.values.length := List.countP_le_length
    have hlen : s.runs.values.length = s.runs.keys.length := by
      simp [Dict.values, Dict.keys]
    omega
  obtain ⟨b, hb⟩ := loop_returns (s.descendantRound p) s.before
    (I := fun cur => ∃ k, s.runs.get? k = some cur) (fun cur hstored => by
      obtain ⟨k, hcur⟩ := hstored
      rcases hround hcur with ⟨-, h⟩ | ⟨-, h⟩ | ⟨q, u, -, -, hu, -, hlt, h⟩
      · exact ⟨_, h, fun _ hr' => absurd hr' Sum.inl_ne_inr⟩
      · exact ⟨_, h, fun _ hr' => absurd hr' Sum.inl_ne_inr⟩
      · refine ⟨_, h, fun r' hr' => ?_⟩
        cases hr'
        exact ⟨⟨_, hu⟩, before_lt hu hlt⟩) ⟨_, hstart⟩ hlength
  refine ⟨b, hwalk.trans hb, ?_⟩
  obtain ⟨cur, ⟨x, hcur, hsame⟩, hlast⟩ := loop_rule (s.descendantRound p)
    (I := fun cur => ∃ x : RequiredText, s.runs.get? x.text = some cur ∧
      (Below s id p ↔ Below s x p)) (fun cur r' hreached h => by
      obtain ⟨x, hcur, hsame⟩ := hreached
      rcases hround hcur with ⟨-, h'⟩ | ⟨-, h'⟩ | ⟨q, u, hparent, hne, hu, -, -, h'⟩
      · rw [h'] at h
        cases h
      · rw [h'] at h
        cases h
      · rw [h'] at h
        cases h
        refine ⟨q, hu, hsame.trans ?_⟩
        rw [below_iff hcur, hparent]
        simp [hne]) ⟨id, hstart, Iff.rfl⟩ hb
  rw [hsame, below_iff hcur]
  rcases hround hcur with ⟨hparent, h⟩ | ⟨hparent, h⟩ | ⟨q, u, -, -, -, -, -, h⟩
  · rw [h] at hlast
    cases hlast
    simp [hparent]
  · rw [h] at hlast
    cases hlast
    simp [hparent]
  · rw [h] at hlast
    cases hlast

/-! ## The worklist down -/

/-- What `cancel_subtree` visits contains the Run it starts from, Runs of its root only, and every
child of a Run it contains. -/
theorem subtree_closed (he : Exact s) {root : AgentTreeRun}
    (hroot : s.runs.get? root.runId.text = some root) {ordered : List RequiredText}
    (h : s.subtree root = .ok ordered) :
    root.runId ∈ ordered ∧
      (∀ x ∈ ordered, ∃ r, s.runs.get? x.text = some r ∧ r.rootRunId = root.rootRunId) ∧
      ∀ x ∈ ordered, ∀ k c, s.runs.get? k = some c → c.rootRunId = root.rootRunId →
        c.parentRunId = some x → c.runId ∈ ordered := by
  have hmem : ∀ {x y : RequiredText}, y ∈ s.childrenOf root.rootRunId x ↔ ∃ k c,
      s.runs.get? k = some c ∧ c.rootRunId = root.rootRunId ∧ c.parentRunId = some x ∧
        c.runId = y := by
    intro x y
    unfold AgentTreeState.childrenOf
    rw [List.mem_map]
    constructor
    · rintro ⟨c, hc, rfl⟩
      obtain ⟨hvalue, hboth⟩ := List.mem_filter.1 hc
      obtain ⟨k, hget⟩ := Dict.mem_values_iff.1 hvalue
      simp only [Bool.and_eq_true, decide_eq_true_eq] at hboth
      exact ⟨k, c, hget, hboth.1, hboth.2, rfl⟩
    · rintro ⟨k, c, hget, hsame, hparent, rfl⟩
      refine ⟨c, List.mem_filter.2 ⟨Dict.mem_values_of_get? hget, ?_⟩, rfl⟩
      simp [hsame, hparent]
  obtain ⟨⟨pending, done⟩, ⟨hin, hstored, hclosed⟩, hlast⟩ := loop_rule
    (s.subtreeRound root.rootRunId)
    (I := fun work => root.runId ∈ work.1 ++ work.2 ∧
      (∀ x ∈ work.1 ++ work.2, ∃ r, s.runs.get? x.text = some r ∧
        r.rootRunId = root.rootRunId) ∧
      ∀ x ∈ work.2, ∀ y ∈ s.childrenOf root.rootRunId x, y ∈ work.1 ++ work.2)
    (fun work next ⟨hin, hstored, hclosed⟩ hround => by
      obtain ⟨pending, done⟩ := work
      cases pending with
      | nil => cases hround
      | cons current pending =>
        cases hround
        simp only [List.mem_append, List.mem_reverse, List.mem_cons, List.not_mem_nil,
          or_false] at hin hstored hclosed ⊢
        refine ⟨by tauto, ?_, ?_⟩
        · rintro x ((hx | hx) | hx | hx)
          · obtain ⟨k, c, hget, hsame, -, rfl⟩ := hmem.1 hx
            exact ⟨c, he k c hget ▸ hget, hsame⟩
          · exact hstored x (Or.inl (Or.inr hx))
          · exact hstored x (Or.inr hx)
          · exact hstored x (Or.inl (Or.inl hx))
        · rintro x (hx | rfl) y hy
          · have := hclosed x hx y hy
            tauto
          · exact Or.inl (Or.inl hy))
    ⟨List.mem_append_left _ (List.mem_singleton.2 rfl), by
      intro x hx
      simp only [List.append_nil, List.mem_singleton] at hx
      subst hx
      exact ⟨root, hroot, rfl⟩, fun x hx => absurd hx List.not_mem_nil⟩ h
  cases pending with
  | cons current pending => cases hlast
  | nil =>
    cases hlast
    refine ⟨hin, hstored, fun x hx k c hget hsame hparent => ?_⟩
    exact hclosed x hx c.runId (hmem.2 ⟨k, c, hget, hsame, hparent, rfl⟩)

end

end Purra
