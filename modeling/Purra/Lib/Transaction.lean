import Mathlib.Data.List.Forall2

/-!
# Transactions: state with rollback

A storage transaction reads and writes the rows and may raise on the way.  When it
raises it is rolled back: nothing it wrote is seen again.  `Transaction ε σ α` is
that computation — it maps the state it finds to a value and the state it commits,
or to the exception alone.

* `read`, `write`, `raise`, `ofExcept` — the primitive transactions.
* `left` — the state a transaction leaves, committed or rolled back.
* `bind_eq_ok` and its companions — **inversion**: what a committed transaction went
  through, step by step.
* `Keeps`, `ReadOnly` — a transaction never changes some part of the state, or any; both
  compose.
* `Frame`, `Within` — a transaction moves the state along a reflexive and transitive relation;
  `Within.bind` composes, `ReadOnly.within` takes in what only reads.
* `left_rel` — a relation that holds across every commit, and of a state and
  itself, holds across the transaction.
-/

namespace Purra

/-- A computation on the stored state `σ` that commits with an `α`, or raises an `ε` and is rolled
back. -/
def Transaction (ε σ α : Type) : Type := σ → Except ε (α × σ)

namespace Transaction

variable {ε σ α β : Type}

/-- Run `m`, then `f` on its value; an exception skips `f`. -/
protected def bind (m : Transaction ε σ α) (f : α → Transaction ε σ β) : Transaction ε σ β :=
  fun s => match m s with
    | .ok (a, s') => f a s'
    | .error e => .error e

instance : Monad (Transaction ε σ) where
  pure a := fun s => .ok (a, s)
  bind := Transaction.bind

instance : LawfulMonad (Transaction ε σ) := LawfulMonad.mk' (Transaction ε σ)
  (by
    intro α m
    funext s
    show Transaction.bind m _ s = _
    unfold Transaction.bind
    cases m s <;> rfl)
  (fun _ _ => rfl)
  (by
    intro α β γ m f g
    funext s
    show Transaction.bind (Transaction.bind m f) g s =
      Transaction.bind m (fun a => Transaction.bind (f a) g) s
    unfold Transaction.bind
    cases m s <;> rfl)

/-- The stored state. -/
def read : Transaction ε σ σ := fun s => .ok (s, s)

/-- Change the stored state. -/
def write (f : σ → σ) : Transaction ε σ Unit := fun s => .ok ((), f s)

/-- Raise an exception. -/
def raise (e : ε) : Transaction ε σ α := fun _ => .error e

/-- A computation that only validates. -/
def ofExcept (x : Except ε α) : Transaction ε σ α := fun s => x.map fun a => (a, s)

/-- The state a transaction leaves: what it committed, or what it found. -/
def left (m : Transaction ε σ α) (s : σ) : σ :=
  match m s with
  | .ok (_, s') => s'
  | .error _ => s

/-- What the caller of a transaction gets. -/
def reply (m : Transaction ε σ α) (s : σ) : Except ε α := (m s).map Prod.fst

/-! ## Inversion -/

section

variable {s s' : σ} {a : α} {b : β} {m : Transaction ε σ α} {f : α → Transaction ε σ β}

theorem pure_eq_ok {a' : α} :
    (pure a : Transaction ε σ α) s = .ok (a', s') ↔ a' = a ∧ s' = s := by
  constructor
  · intro h
    cases h
    exact ⟨rfl, rfl⟩
  · rintro ⟨rfl, rfl⟩
    rfl

theorem bind_eq_ok :
    (m >>= f) s = .ok (b, s') ↔ ∃ a s₁, m s = .ok (a, s₁) ∧ f a s₁ = .ok (b, s') := by
  show Transaction.bind m f s = _ ↔ _
  unfold Transaction.bind
  cases h : m s with
  | error e => simp
  | ok p =>
    obtain ⟨a, s₁⟩ := p
    constructor
    · exact fun hf => ⟨a, s₁, rfl, hf⟩
    · rintro ⟨_, _, heq, hf⟩
      cases heq
      exact hf

theorem bind_of_ok {s₁ : σ} (h : m s = .ok (a, s₁)) : (m >>= f) s = f a s₁ := by
  show Transaction.bind m f s = _
  unfold Transaction.bind
  rw [h]

theorem read_bind_eq_ok {f : σ → Transaction ε σ β} :
    (read >>= f) s = .ok (b, s') ↔ f s s = .ok (b, s') := Iff.rfl

theorem write_bind_eq_ok {g : σ → σ} {f : Unit → Transaction ε σ β} :
    (write g >>= f) s = .ok (b, s') ↔ f () (g s) = .ok (b, s') := Iff.rfl

theorem write_eq_ok {g : σ → σ} {u : Unit} :
    (write g : Transaction ε σ Unit) s = .ok (u, s') ↔ s' = g s := by
  constructor
  · intro h
    cases h
    rfl
  · rintro rfl
    rfl

variable {e : ε}

theorem not_raise_eq_ok : ¬ (raise e : Transaction ε σ α) s = .ok (a, s') := by
  intro h
  cases h

theorem ofExcept_eq_ok {x : Except ε α} :
    (ofExcept x : Transaction ε σ α) s = .ok (a, s') ↔ x = .ok a ∧ s' = s := by
  unfold ofExcept
  cases x with
  | error e => simp [Except.map]
  | ok a' => simp [Except.map, eq_comm]

theorem ofExcept_bind_eq_ok {x : Except ε α} :
    (ofExcept x >>= f) s = .ok (b, s') ↔ ∃ a, x = .ok a ∧ f a s = .ok (b, s') := by
  rw [bind_eq_ok]
  constructor
  · rintro ⟨a, s₁, hx, hf⟩
    obtain ⟨hxa, rfl⟩ := ofExcept_eq_ok.1 hx
    exact ⟨a, hxa, hf⟩
  · rintro ⟨a, hx, hf⟩
    exact ⟨a, s, ofExcept_eq_ok.2 ⟨hx, rfl⟩, hf⟩

theorem ite_eq_ok {c : Prop} [Decidable c] {m' : Transaction ε σ α} :
    (if c then m else m') s = .ok (a, s') ↔
      c ∧ m s = .ok (a, s') ∨ ¬ c ∧ m' s = .ok (a, s') := by
  by_cases hc : c
  · simp [hc]
  · simp [hc]

/-- A branch that raises is not taken. -/
theorem refuse_eq_ok {c : Prop} [Decidable c] :
    (if c then raise e else m) s = .ok (a, s') ↔ ¬ c ∧ m s = .ok (a, s') := by
  rw [ite_eq_ok]
  exact or_iff_right fun h => not_raise_eq_ok h.2

theorem map_eq_ok {g : α → β} :
    (g <$> m) s = .ok (b, s') ↔ ∃ a, m s = .ok (a, s') ∧ g a = b := by
  show (m >>= fun a => pure (g a)) s = _ ↔ _
  rw [bind_eq_ok]
  constructor
  · rintro ⟨a, s₁, hm, hf⟩
    obtain ⟨rfl, rfl⟩ := pure_eq_ok.1 hf
    exact ⟨a, hm, rfl⟩
  · rintro ⟨a, hm, rfl⟩
    exact ⟨a, s', hm, rfl⟩

theorem map_of_error {g : α → β} (h : m s = .error e) : (g <$> m) s = .error e := by
  show Transaction.bind m (fun a => pure (g a)) s = _
  rw [Transaction.bind, h]

theorem left_of_ok (h : m s = .ok (a, s')) : m.left s = s' := by
  unfold left
  rw [h]

theorem left_of_error (h : m s = .error e) : m.left s = s := by
  unfold left
  rw [h]

/-- A transaction leaves what it committed or what it found. -/
theorem left_cases (m : Transaction ε σ α) (s : σ) :
    (∃ a s', m s = .ok (a, s') ∧ m.left s = s') ∨ ((∃ e, m s = .error e) ∧ m.left s = s) := by
  cases h : m s with
  | ok p =>
    obtain ⟨a, s'⟩ := p
    exact Or.inl ⟨a, s', rfl, left_of_ok h⟩
  | error e => exact Or.inr ⟨⟨e, rfl⟩, left_of_error h⟩

theorem reply_eq_ok : m.reply s = .ok a ↔ ∃ s', m s = .ok (a, s') := by
  unfold reply
  cases m s with
  | error e => simp [Except.map]
  | ok p =>
    obtain ⟨a', s₁⟩ := p
    simp [Except.map]

theorem left_rel {R : σ → σ → Prop} (hrefl : ∀ s, R s s)
    (h : ∀ s a s', m s = .ok (a, s') → R s s') (s : σ) : R s (m.left s) := by
  rcases left_cases m s with ⟨a, s', hm, heq⟩ | ⟨-, heq⟩
  · rw [heq]
    exact h s a s' hm
  · rw [heq]
    exact hrefl s

theorem left_map (g : α → β) (m : Transaction ε σ α) (s : σ) : (g <$> m).left s = m.left s := by
  show (Transaction.bind m fun a => pure (g a)).left s = _
  unfold left Transaction.bind
  cases m s <;> rfl

end

/-! ## What a transaction leaves alone -/

section

variable {γ : Type} {f : σ → γ} {m m' : Transaction ε σ α} {g : α → Transaction ε σ β}

/-- Whatever `m` commits, what `f` reads off the state stays. -/
def Keeps (f : σ → γ) (m : Transaction ε σ α) : Prop := ∀ s a s', m s = .ok (a, s') → f s' = f s

theorem keeps_pure (a : α) : Keeps f (pure a : Transaction ε σ α) := by
  intro s b s' h
  rw [(pure_eq_ok.1 h).2]

theorem keeps_read : Keeps f (read : Transaction ε σ σ) := by
  intro s a s' h
  cases h
  rfl

theorem keeps_raise (e : ε) : Keeps f (raise e : Transaction ε σ α) :=
  fun _ _ _ h => absurd h not_raise_eq_ok

theorem keeps_ofExcept (x : Except ε α) : Keeps f (ofExcept x : Transaction ε σ α) := by
  intro s a s' h
  rw [(ofExcept_eq_ok.1 h).2]

theorem keeps_write {w : σ → σ} (h : ∀ s, f (w s) = f s) :
    Keeps f (write w : Transaction ε σ Unit) := by
  intro s u s' hw
  rw [write_eq_ok.1 hw]
  exact h s

theorem keeps_bind (hm : Keeps f m) (hg : ∀ a, Keeps f (g a)) : Keeps f (m >>= g) := by
  intro s b s' h
  obtain ⟨a, s₁, hma, hga⟩ := bind_eq_ok.1 h
  rw [hg a s₁ b s' hga, hm s a s₁ hma]

theorem keeps_read_bind {g : σ → Transaction ε σ β} (hg : ∀ s, Keeps f (g s)) :
    Keeps f (read >>= g) := keeps_bind keeps_read hg

theorem keeps_ofExcept_bind {x : Except ε α} (hg : ∀ a, Keeps f (g a)) :
    Keeps f (ofExcept x >>= g) := keeps_bind (keeps_ofExcept x) hg

theorem keeps_ite {c : Prop} [Decidable c] (hm : Keeps f m) (hm' : Keeps f m') :
    Keeps f (if c then m else m') := by
  by_cases hc : c
  · rw [if_pos hc]
    exact hm
  · rw [if_neg hc]
    exact hm'

theorem keeps_map (k : α → β) (hm : Keeps f m) : Keeps f (k <$> m) :=
  keeps_bind hm fun _ => keeps_pure _

variable {δ : Type}

theorem keeps_forM {k : δ → Transaction ε σ PUnit} (hk : ∀ x, Keeps f (k x))
    (l : List δ) : Keeps f (l.forM k) := by
  induction l with
  | nil => exact keeps_pure _
  | cons x l ih => exact keeps_bind (hk x) fun _ => ih

theorem keeps_mapM {k : δ → Transaction ε σ α} (hk : ∀ x, Keeps f (k x))
    (l : List δ) : Keeps f (l.mapM k) := by
  induction l with
  | nil => exact keeps_pure _
  | cons x l ih =>
    rw [List.mapM_cons]
    exact keeps_bind (hk x) fun _ => keeps_bind ih fun _ => keeps_pure _

theorem Keeps.left_eq (hm : Keeps f m) (s : σ) : f (m.left s) = f s := by
  rcases left_cases m s with ⟨a, s', h, heq⟩ | ⟨-, heq⟩
  · rw [heq]
    exact hm s a s' h
  · rw [heq]

/-- A coarser reading is kept with a finer one. -/
theorem Keeps.comp (hm : Keeps f m) (k : γ → δ) : Keeps (fun s => k (f s)) m :=
  fun s a s' h => congrArg k (hm s a s' h)

/-- The transaction commits the state it found. -/
abbrev ReadOnly (m : Transaction ε σ α) : Prop := Keeps (fun s => s) m

theorem ReadOnly.eq (hm : ReadOnly m) {s s' : σ} {a : α} (h : m s = .ok (a, s')) : s' = s :=
  hm s a s' h

/-- What a traversal that only reads returns, it reads off one state. -/
theorem mapM_eq_ok_of_readOnly {k : δ → Transaction ε σ α} (hk : ∀ x, ReadOnly (k x))
    {l : List δ} {as : List α} {s s' : σ} (h : l.mapM k s = .ok (as, s')) :
    List.Forall₂ (fun x a => k x s = .ok (a, s)) l as := by
  induction l generalizing as s' with
  | nil =>
    obtain ⟨rfl, -⟩ := pure_eq_ok.1 h
    exact .nil
  | cons x l ih =>
    rw [List.mapM_cons] at h
    obtain ⟨a, s₁, hx, h⟩ := bind_eq_ok.1 h
    obtain ⟨rest, s₂, hrest, h⟩ := bind_eq_ok.1 h
    obtain ⟨rfl, -⟩ := pure_eq_ok.1 h
    have hsame : s = s₁ := ((hk x).eq hx).symm
    subst hsame
    exact .cons hx (ih hrest)

theorem ReadOnly.keeps (hm : ReadOnly m) (f : σ → γ) : Keeps f m := Keeps.comp hm f

end

/-! ## What a transaction may do -/

/-- A relation between the state before and the state after that composes. -/
structure Frame (σ : Type) where
  rel : σ → σ → Prop
  refl : ∀ s, rel s s
  trans : ∀ {s s' s''}, rel s s' → rel s' s'' → rel s s''

section

variable {F : Frame σ} {m m' : Transaction ε σ α} {g : α → Transaction ε σ β}

/-- Whatever `m` commits, the state moves along the frame. -/
def Within (F : Frame σ) (m : Transaction ε σ α) : Prop :=
  ∀ s a s', m s = .ok (a, s') → F.rel s s'

theorem ReadOnly.within (hm : ReadOnly m) : Within F m := by
  intro s a s' h
  rw [hm.eq h]
  exact F.refl s

namespace Within

theorem pure (a : α) : Within F (Pure.pure a : Transaction ε σ α) :=
  ReadOnly.within (keeps_pure a)

theorem raise (e : ε) : Within F (Transaction.raise e : Transaction ε σ α) :=
  ReadOnly.within (keeps_raise e)

theorem write {w : σ → σ} (h : ∀ s, F.rel s (w s)) :
    Within F (Transaction.write w : Transaction ε σ Unit) := by
  intro s u s' hw
  rw [write_eq_ok.1 hw]
  exact h s

theorem bind (hm : Within F m) (hg : ∀ a, Within F (g a)) : Within F (m >>= g) := by
  intro s b s' h
  obtain ⟨a, s₁, hma, hga⟩ := bind_eq_ok.1 h
  exact F.trans (hm s a s₁ hma) (hg a s₁ b s' hga)

theorem read_bind {g : σ → Transaction ε σ β} (hg : ∀ s, Within F (g s)) :
    Within F (read >>= g) := bind (ReadOnly.within keeps_read) hg

theorem ite {c : Prop} [Decidable c] (hm : Within F m) (hm' : Within F m') :
    Within F (if c then m else m') := by
  by_cases hc : c
  · rw [if_pos hc]
    exact hm
  · rw [if_neg hc]
    exact hm'

/-- What the transaction leaves, committed or rolled back. -/
theorem left (hm : Within F m) (s : σ) : F.rel s (m.left s) :=
  left_rel F.refl (fun s a s' h => hm s a s' h) s

end Within

end

end Transaction

end Purra
