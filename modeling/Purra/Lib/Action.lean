import Mathlib.Logic.Function.Basic
import Mathlib.Logic.Relation

/-!
# Actions: mutable state with exceptions

A method of a mutable object reads and writes the object's fields and may raise
on the way.  Nothing is rolled back when it raises: whatever was written before
the exception stays written.  `Action σ ε α` is that computation — it maps the
state it finds to an outcome (a value, or the exception) *and* the state it
leaves, in both cases.

* `read`, `write`, `raise`, `ofExcept` — the primitive actions.
* `bind_apply` and its companions evaluate an action on a given state; they are
  the simp set a proof steps through a method with.
* `final` — the state an action leaves, whichever way it ends.
* `Keeps` — an action never changes some part of the state; it composes.
* `Preserves` — an action never leaves a set of states; it composes too.
* `MovesFrom` — the state an action leaves is reached by moves of a relation, whichever
  way it ends: the trace of its writes.
* `bind_eq_ok` and its companions — **inversion**: what an action that returned went
  through, step by step.
* `Atomic` — an action that raises has written nothing.  An action that checks first
  and writes last is atomic (`atomic_bind`), and for such an action `final_cases`
  leaves two cases.
-/

namespace Purra

/-- A computation on a mutable state `σ` that returns an `α` or raises an `ε`, and keeps what it
wrote either way. -/
def Action (σ ε α : Type) : Type := σ → Except ε α × σ

namespace Action

variable {σ ε α β : Type}

/-- Run `m`, then `f` on its value; an exception skips `f` and keeps the state. -/
protected def bind (m : Action σ ε α) (f : α → Action σ ε β) : Action σ ε β := fun s =>
  match m s with
  | (.ok a, s') => f a s'
  | (.error e, s') => (.error e, s')

instance : Monad (Action σ ε) where
  pure a := fun s => (.ok a, s)
  bind := Action.bind

/-- The current state. -/
def read : Action σ ε σ := fun s => (.ok s, s)

/-- Change the state. -/
def write (f : σ → σ) : Action σ ε Unit := fun s => (.ok (), f s)

/-- Raise an exception, leaving the state as it is. -/
def raise (e : ε) : Action σ ε α := fun s => (.error e, s)

/-- A computation that only validates: its value or its exception, the state untouched. -/
def ofExcept (x : Except ε α) : Action σ ε α := fun s => (x, s)

/-- The state an action leaves, whether it returns or raises. -/
def final (m : Action σ ε α) (s : σ) : σ := (m s).2

/-! ## Evaluating an action on a state -/

@[simp] theorem pure_apply (a : α) (s : σ) : (pure a : Action σ ε α) s = (.ok a, s) := rfl

theorem bind_apply (m : Action σ ε α) (f : α → Action σ ε β) (s : σ) :
    (m >>= f) s = match m s with
      | (.ok a, s') => f a s'
      | (.error e, s') => (.error e, s') := rfl

@[simp] theorem read_bind_apply (f : σ → Action σ ε β) (s : σ) :
    ((read : Action σ ε σ) >>= f) s = f s s := rfl

@[simp] theorem write_bind_apply (g : σ → σ) (f : Unit → Action σ ε β) (s : σ) :
    ((write g : Action σ ε Unit) >>= f) s = f () (g s) := rfl

@[simp] theorem raise_apply (e : ε) (s : σ) : (raise e : Action σ ε α) s = (.error e, s) := rfl

@[simp] theorem write_apply (g : σ → σ) (s : σ) :
    (write g : Action σ ε Unit) s = (.ok (), g s) := rfl

@[simp] theorem raise_bind_apply (e : ε) (f : α → Action σ ε β) (s : σ) :
    ((raise e : Action σ ε α) >>= f) s = (.error e, s) := rfl

@[simp] theorem ofExcept_ok_bind_apply (a : α) (f : α → Action σ ε β) (s : σ) :
    ((ofExcept (.ok a) : Action σ ε α) >>= f) s = f a s := rfl

@[simp] theorem ofExcept_error_bind_apply (e : ε) (f : α → Action σ ε β) (s : σ) :
    ((ofExcept (.error e) : Action σ ε α) >>= f) s = (.error e, s) := rfl

/-! ## The state an action leaves -/

@[simp] theorem final_pure (a : α) (s : σ) : (pure a : Action σ ε α).final s = s := rfl

@[simp] theorem final_raise (e : ε) (s : σ) : (raise e : Action σ ε α).final s = s := rfl

@[simp] theorem final_write (g : σ → σ) (s : σ) : (write g : Action σ ε Unit).final s = g s := rfl

@[simp] theorem final_read_bind (f : σ → Action σ ε β) (s : σ) :
    ((read : Action σ ε σ) >>= f).final s = (f s).final s := rfl

@[simp] theorem final_write_bind (g : σ → σ) (f : Unit → Action σ ε β) (s : σ) :
    ((write g : Action σ ε Unit) >>= f).final s = (f ()).final (g s) := rfl

@[simp] theorem final_raise_bind (e : ε) (f : α → Action σ ε β) (s : σ) :
    ((raise e : Action σ ε α) >>= f).final s = s := rfl

theorem final_ofExcept_bind (x : Except ε α) (f : α → Action σ ε β) (s : σ) :
    ((ofExcept x : Action σ ε α) >>= f).final s =
      match x with
      | .ok a => (f a).final s
      | .error _ => s := by
  cases x <;> rfl

theorem final_ite {c : Prop} [Decidable c] (m n : Action σ ε α) (s : σ) :
    (if c then m else n).final s = if c then m.final s else n.final s := by
  split <;> rfl

/-- A continuation that writes nothing does not show in the state left. -/
theorem final_bind_of_silent (m : Action σ ε α) {f : α → Action σ ε β}
    (hf : ∀ a s, (f a).final s = s) (s : σ) : (m >>= f).final s = m.final s := by
  unfold final
  rw [bind_apply]
  rcases h : m s with ⟨r, s'⟩
  cases r with
  | ok a => exact hf a s'
  | error e => rfl

@[simp] theorem final_map (g : α → β) (m : Action σ ε α) (s : σ) :
    (g <$> m).final s = m.final s :=
  final_bind_of_silent m (fun _ _ => rfl) s

theorem fst_map (g : α → β) (m : Action σ ε α) (s : σ) :
    ((g <$> m) s).1 = (m s).1.map g := by
  show (Action.bind m (fun a => pure (g a)) s).1 = _
  unfold Action.bind
  rcases m s with ⟨r, s'⟩
  cases r <;> rfl

/-! ## What an action leaves alone -/

section Keeps

variable {γ : Type} {f : σ → γ}

/-- Whatever `m` does, what `f` reads off the state stays. -/
def Keeps (f : σ → γ) (m : Action σ ε α) : Prop := ∀ s, f (m.final s) = f s

theorem keeps_pure (a : α) : Keeps f (pure a : Action σ ε α) := fun _ => rfl

theorem keeps_raise (e : ε) : Keeps f (raise e : Action σ ε α) := fun _ => rfl

theorem keeps_read : Keeps f (read : Action σ ε σ) := fun _ => rfl

theorem keeps_ofExcept (x : Except ε α) : Keeps f (ofExcept x : Action σ ε α) := fun _ => rfl

theorem keeps_write {g : σ → σ} (h : ∀ s, f (g s) = f s) :
    Keeps f (write g : Action σ ε Unit) := h

theorem keeps_bind {m : Action σ ε α} {g : α → Action σ ε β} (hm : Keeps f m)
    (hg : ∀ a, Keeps f (g a)) : Keeps f (m >>= g) := by
  intro s
  have hs := hm s
  unfold final at hs ⊢
  rw [bind_apply]
  rcases hms : m s with ⟨r, s'⟩
  rw [hms] at hs
  cases r with
  | ok a => exact (hg a s').trans hs
  | error e => exact hs

theorem keeps_read_bind {g : σ → Action σ ε β} (hg : ∀ s, Keeps f (g s)) :
    Keeps f ((read : Action σ ε σ) >>= g) := keeps_bind keeps_read hg

theorem keeps_ofExcept_bind {x : Except ε α} {g : α → Action σ ε β} (hg : ∀ a, Keeps f (g a)) :
    Keeps f ((ofExcept x : Action σ ε α) >>= g) := keeps_bind (keeps_ofExcept x) hg

theorem keeps_map (g : α → β) {m : Action σ ε α} (hm : Keeps f m) : Keeps f (g <$> m) :=
  keeps_bind hm fun _ => keeps_pure _

theorem keeps_ite {c : Prop} [Decidable c] {m n : Action σ ε α} (hm : Keeps f m)
    (hn : Keeps f n) : Keeps f (if c then m else n) := by
  split
  · exact hm
  · exact hn

end Keeps

/-! ## What an action preserves -/

section Preserves

variable {I : σ → Prop}

/-- An action that starts in `I` ends in `I`, whichever way it ends. -/
def Preserves (I : σ → Prop) (m : Action σ ε α) : Prop := ∀ s, I s → I (m.final s)

theorem preserves_pure (a : α) : Preserves I (pure a : Action σ ε α) := fun _ h => h

theorem preserves_raise (e : ε) : Preserves I (raise e : Action σ ε α) := fun _ h => h

theorem preserves_read : Preserves I (read : Action σ ε σ) := fun _ h => h

theorem preserves_ofExcept (x : Except ε α) : Preserves I (ofExcept x : Action σ ε α) :=
  fun _ h => h

theorem preserves_write {g : σ → σ} (h : ∀ s, I s → I (g s)) :
    Preserves I (write g : Action σ ε Unit) := h

theorem preserves_bind {m : Action σ ε α} {g : α → Action σ ε β} (hm : Preserves I m)
    (hg : ∀ a, Preserves I (g a)) : Preserves I (m >>= g) := by
  intro s hs
  have hm' := hm s hs
  unfold final at hm' ⊢
  rw [bind_apply]
  rcases hms : m s with ⟨r, s'⟩
  rw [hms] at hm'
  cases r with
  | ok a => exact hg a s' hm'
  | error e => exact hm'

theorem preserves_read_bind {g : σ → Action σ ε β} (hg : ∀ s, Preserves I (g s)) :
    Preserves I ((read : Action σ ε σ) >>= g) := preserves_bind preserves_read hg

theorem preserves_ofExcept_bind {x : Except ε α} {g : α → Action σ ε β}
    (hg : ∀ a, x = .ok a → Preserves I (g a)) :
    Preserves I ((ofExcept x : Action σ ε α) >>= g) := by
  cases x with
  | ok a => exact hg a rfl
  | error e => exact fun _ h => h

theorem preserves_ite {c : Prop} [Decidable c] {m n : Action σ ε α} (hm : c → Preserves I m)
    (hn : ¬ c → Preserves I n) : Preserves I (if c then m else n) := by
  by_cases hc : c
  · rw [if_pos hc]
    exact hm hc
  · rw [if_neg hc]
    exact hn hc

/-- A loop preserves what each of its turns preserves. -/
theorem preserves_forM {f : α → Action σ ε Unit} {l : List α} (h : ∀ a ∈ l, Preserves I (f a)) :
    Preserves I (l.forM f) := by
  induction l with
  | nil => exact preserves_pure ()
  | cons a l ih =>
    exact preserves_bind (h a (List.mem_cons_self ..)) fun _ =>
      ih fun b hb => h b (List.mem_cons_of_mem a hb)

end Preserves

/-! ## The moves an action makes -/

section Moves

variable {R : σ → σ → Prop} {s : σ}

/-- From `s`, the action ends in a state that moves of `R` lead to. -/
def MovesFrom (R : σ → σ → Prop) (s : σ) (m : Action σ ε α) : Prop :=
  Relation.ReflTransGen R s (m.final s)

theorem movesFrom_pure (a : α) : MovesFrom R s (pure a : Action σ ε α) := .refl

theorem movesFrom_raise (e : ε) : MovesFrom R s (raise e : Action σ ε α) := .refl

theorem movesFrom_ofExcept (x : Except ε α) : MovesFrom R s (ofExcept x : Action σ ε α) := .refl

theorem movesFrom_write {g : σ → σ} (h : R s (g s)) :
    MovesFrom R s (write g : Action σ ε Unit) := .single h

theorem movesFrom_bind {m : Action σ ε α} {f : α → Action σ ε β} (hm : MovesFrom R s m)
    (hf : ∀ a s', m s = (.ok a, s') → MovesFrom R s' (f a)) : MovesFrom R s (m >>= f) := by
  unfold MovesFrom final at hm ⊢
  rw [bind_apply]
  rcases hms : m s with ⟨r, s'⟩
  rw [hms] at hm
  cases r with
  | ok a => exact hm.trans (hf a s' hms)
  | error e => exact hm

theorem movesFrom_read_bind {f : σ → Action σ ε β} (h : MovesFrom R s (f s)) :
    MovesFrom R s ((read : Action σ ε σ) >>= f) := h

theorem movesFrom_ofExcept_bind {x : Except ε α} {f : α → Action σ ε β}
    (h : ∀ a, x = .ok a → MovesFrom R s (f a)) : MovesFrom R s (ofExcept x >>= f) := by
  cases x with
  | ok a => exact h a rfl
  | error e => exact .refl

theorem movesFrom_write_bind {g : σ → σ} {f : Unit → Action σ ε β} (h : R s (g s))
    (hf : MovesFrom R (g s) (f ())) : MovesFrom R s (write g >>= f) :=
  Relation.ReflTransGen.head h hf

theorem movesFrom_ite {c : Prop} [Decidable c] {m n : Action σ ε α} (hm : c → MovesFrom R s m)
    (hn : ¬ c → MovesFrom R s n) : MovesFrom R s (if c then m else n) := by
  by_cases hc : c
  · rw [if_pos hc]
    exact hm hc
  · rw [if_neg hc]
    exact hn hc

/-- A loop moves as each of its turns does, from any state the turns before it leave. -/
theorem movesFrom_forM {f : α → Action σ ε Unit} {l : List α}
    (h : ∀ a ∈ l, ∀ s', Relation.ReflTransGen R s s' → MovesFrom R s' (f a)) :
    MovesFrom R s (l.forM f) := by
  induction l generalizing s with
  | nil => exact .refl
  | cons a l ih =>
    have ha := h a (List.mem_cons_self ..) s .refl
    refine movesFrom_bind ha fun b s' hb => ih fun c hc s'' hs'' => ?_
    have hs' : Relation.ReflTransGen R s s' := by
      unfold MovesFrom final at ha
      rwa [hb] at ha
    exact h c (List.mem_cons_of_mem a hc) s'' (hs'.trans hs'')

end Moves

/-! ## Inversion -/

section Inversion

variable {s s' : σ} {a : α} {b : β} {m : Action σ ε α} {f : α → Action σ ε β}

theorem pure_eq_ok {a' : α} :
    (pure a : Action σ ε α) s = (.ok a', s') ↔ a' = a ∧ s' = s := by
  rw [pure_apply, Prod.mk.injEq, Except.ok.injEq, eq_comm, eq_comm (a := s)]

theorem bind_eq_ok :
    (m >>= f) s = (.ok b, s') ↔ ∃ a s₁, m s = (.ok a, s₁) ∧ f a s₁ = (.ok b, s') := by
  rw [bind_apply]
  rcases hm : m s with ⟨r, s₁⟩
  cases r with
  | ok a =>
    constructor
    · exact fun h => ⟨a, s₁, rfl, h⟩
    · rintro ⟨_, _, heq, h⟩
      cases heq
      exact h
  | error e =>
    constructor
    · intro h
      cases h
    · rintro ⟨_, _, heq, _⟩
      cases heq

theorem read_bind_eq_ok {f : σ → Action σ ε β} :
    (read >>= f) s = (.ok b, s') ↔ f s s = (.ok b, s') := Iff.rfl

theorem write_bind_eq_ok {g : σ → σ} {f : Unit → Action σ ε β} :
    (write g >>= f) s = (.ok b, s') ↔ f () (g s) = (.ok b, s') := Iff.rfl

theorem ofExcept_bind_eq_ok {x : Except ε α} :
    (ofExcept x >>= f) s = (.ok b, s') ↔ ∃ a, x = .ok a ∧ f a s = (.ok b, s') := by
  cases x with
  | ok a =>
    constructor
    · intro h
      exact ⟨a, rfl, h⟩
    · rintro ⟨_, heq, h⟩
      cases heq
      exact h
  | error e =>
    constructor
    · intro h
      cases h
    · rintro ⟨_, heq, _⟩
      cases heq

/-- A refusal skips the rest. -/
theorem refuse_bind_eq_ok {c : Prop} [Decidable c] {e : ε} {f : Unit → Action σ ε β} :
    ((if c then raise e else pure ()) >>= f) s = (.ok b, s') ↔ ¬ c ∧ f () s = (.ok b, s') := by
  by_cases hc : c
  · rw [if_pos hc]
    exact iff_of_false (fun h => by cases h) fun h => h.1 hc
  · rw [if_neg hc]
    exact Iff.intro (fun h => And.intro hc h) And.right

theorem not_raise_eq_ok {e : ε} : ¬ (raise e : Action σ ε α) s = (.ok a, s') := by
  intro h
  cases h

theorem ite_eq_ok {c : Prop} [Decidable c] {m' : Action σ ε α} :
    (if c then m else m') s = (.ok a, s') ↔
      c ∧ m s = (.ok a, s') ∨ ¬ c ∧ m' s = (.ok a, s') := by
  by_cases hc : c
  · simp [hc]
  · simp [hc]

end Inversion

/-! ## Actions that check first and write last -/

section Atomic

variable {m : Action σ ε α} {f : α → Action σ ε β}

/-- When `m` raises, it has written nothing. -/
def Atomic (m : Action σ ε α) : Prop := ∀ s e s', m s = (.error e, s') → s' = s

/-- The action never writes. -/
abbrev ReadOnly (m : Action σ ε α) : Prop := Keeps (fun s => s) m

theorem ReadOnly.atomic (hm : ReadOnly m) : Atomic m := by
  intro s e s' h
  have := hm s
  unfold final at this
  rw [h] at this
  exact this

/-- Checks that write nothing, before an atomic action, leave it atomic. -/
theorem atomic_bind (hm : ReadOnly m) (hf : ∀ a, Atomic (f a)) : Atomic (m >>= f) := by
  intro s e s' h
  have hs := hm s
  unfold final at hs
  rw [bind_apply] at h
  rcases hms : m s with ⟨r, s₁⟩
  rw [hms] at h hs
  subst hs
  cases r with
  | ok a => exact hf a _ e s' h
  | error e' =>
    cases h
    rfl

theorem atomic_read_bind {f : σ → Action σ ε β} (hf : ∀ s, Atomic (f s)) :
    Atomic ((read : Action σ ε σ) >>= f) := atomic_bind keeps_read hf

theorem atomic_ofExcept_bind {x : Except ε α} (hf : ∀ a, Atomic (f a)) :
    Atomic (ofExcept x >>= f) := atomic_bind (keeps_ofExcept x) hf

theorem atomic_refuse_bind {c : Prop} [Decidable c] {e : ε} {f : Unit → Action σ ε β}
    (hf : Atomic (f ())) : Atomic ((if c then raise e else pure ()) >>= f) :=
  atomic_bind (keeps_ite (keeps_raise e) (keeps_pure ())) fun _ => hf

theorem atomic_pure (a : α) : Atomic (pure a : Action σ ε α) :=
  ReadOnly.atomic (keeps_pure a)

/-- A write that returns at once cannot raise. -/
theorem atomic_write_bind_pure (g : σ → σ) (a : α) :
    Atomic ((write g : Action σ ε Unit) >>= fun _ => pure a) := by
  intro s e s' h
  cases h

/-- What is made of the result cannot raise. -/
theorem atomic_bind_pure {g : α → β} (hm : Atomic m) : Atomic (m >>= fun a => pure (g a)) := by
  intro s e s' h
  rw [bind_apply] at h
  rcases hms : m s with ⟨r, s₁⟩
  rw [hms] at h
  cases r with
  | ok a => cases h
  | error e' =>
    cases h
    exact hm _ _ _ hms

theorem atomic_map {g : α → β} (hm : Atomic m) : Atomic (g <$> m) := atomic_bind_pure hm

theorem atomic_ite {c : Prop} [Decidable c] {m' : Action σ ε α} (hm : Atomic m)
    (hm' : Atomic m') : Atomic (if c then m else m') := by
  by_cases hc : c
  · rw [if_pos hc]
    exact hm
  · rw [if_neg hc]
    exact hm'

/-- A check in front of an action ends it, or lets it go on from the same state. -/
theorem final_ofExcept_bind_cases {x : Except ε α} (s : σ) :
    (ofExcept x >>= f).final s = s ∨
      ∃ a, x = .ok a ∧ (ofExcept x >>= f).final s = (f a).final s := by
  cases x with
  | ok a => exact Or.inr ⟨a, rfl, rfl⟩
  | error e => exact Or.inl rfl

/-- A refusal in front of an action ends it, or lets it go on from the same state. -/
theorem final_refuse_bind_cases {c : Prop} [Decidable c] {e : ε} {f : Unit → Action σ ε β}
    (s : σ) :
    ((if c then raise e else pure ()) >>= f).final s = s ∨
      ¬ c ∧ ((if c then raise e else pure ()) >>= f).final s = (f ()).final s := by
  by_cases hc : c
  · rw [if_pos hc]
    exact Or.inl rfl
  · rw [if_neg hc]
    exact Or.inr (And.intro hc rfl)

/-- An atomic action returned, or left the state as it was. -/
theorem Atomic.final_cases (hm : Atomic m) (s : σ) :
    (∃ a, m s = (.ok a, m.final s)) ∨ ((∃ e, (m s).1 = .error e) ∧ m.final s = s) := by
  unfold final
  rcases h : m s with ⟨r, s'⟩
  cases r with
  | ok a => exact Or.inl ⟨a, rfl⟩
  | error e => exact Or.inr ⟨⟨e, rfl⟩, hm s e s' h⟩

end Atomic

end Action

end Purra
