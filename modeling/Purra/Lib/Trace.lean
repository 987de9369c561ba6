import Purra.Lib.Action

/-!
# Traces of writes

What an action writes, as a sequence of moves that each log something.

* `Trace R s log s'` — moves of `R` lead from `s` to `s'` and log `log`; `Trace.induction` is the
  invariant rule, for a property of the state together with what has been logged.
* `Traces R s m` — the action `m` ends, from `s`, in a state that such moves lead to, whichever way
  it ends.  `traces_bind` composes; the rest of an action starts where the trace of its first part
  ended.
-/

namespace Purra

variable {σ ℓ : Type}

/-- Moves of `R`, one after the other. -/
inductive Trace (R : σ → List ℓ → σ → Prop) : σ → List ℓ → σ → Prop
  | refl (s : σ) : Trace R s [] s
  | tail {s s' s'' : σ} {log new : List ℓ} (h : Trace R s log s') (hmove : R s' new s'') :
    Trace R s (log ++ new) s''

section

variable {R : σ → List ℓ → σ → Prop} {s s' s'' : σ} {log new : List ℓ}

theorem Trace.single (h : R s log s') : Trace R s log s' := .tail (.refl s) h

theorem Trace.trans (h : Trace R s log s') (h' : Trace R s' new s'') :
    Trace R s (log ++ new) s'' := by
  induction h' with
  | refl => rwa [List.append_nil]
  | tail _ hmove ih =>
    rw [← List.append_assoc]
    exact ih.tail hmove

/-- **The invariant rule.** -/
theorem Trace.induction {I : List ℓ → σ → Prop} (h : Trace R s log s') {before : List ℓ}
    (hs : I before s) (hstep : ∀ past s new s', I past s → R s new s' → I (past ++ new) s') :
    I (before ++ log) s' := by
  induction h with
  | refl => rwa [List.append_nil]
  | tail _ hmove ih =>
    rw [← List.append_assoc]
    exact hstep _ _ _ _ ih hmove

/-- The invariant rule, for a property of the state alone. -/
theorem Trace.preserves {I : σ → Prop} (h : Trace R s log s') (hs : I s)
    (hstep : ∀ s new s', I s → R s new s' → I s') : I s' := by
  induction h with
  | refl => exact hs
  | tail _ hmove ih => exact hstep _ _ _ ih hmove

end

namespace Action

variable {ε α β : Type} {R : σ → List ℓ → σ → Prop} {s : σ}

/-- From `s`, the action ends in a state that moves of `R` lead to. -/
def Traces (R : σ → List ℓ → σ → Prop) (s : σ) (m : Action σ ε α) : Prop :=
  ∃ log, Trace R s log (m.final s)

theorem traces_of_final_eq {m : Action σ ε α} (h : m.final s = s) : Traces R s m :=
  ⟨[], h.symm ▸ .refl s⟩

theorem traces_pure (a : α) : Traces R s (pure a : Action σ ε α) := ⟨[], .refl s⟩

theorem traces_raise (e : ε) : Traces R s (raise e : Action σ ε α) := ⟨[], .refl s⟩

theorem traces_bind {m : Action σ ε α} {f : α → Action σ ε β} (hm : Traces R s m)
    (hf : ∀ a s' log, m s = (.ok a, s') → Trace R s log s' → Traces R s' (f a)) :
    Traces R s (m >>= f) := by
  obtain ⟨log, hlog⟩ := hm
  unfold Traces
  unfold final at hlog ⊢
  rw [bind_apply]
  rcases hms : m s with ⟨r, s'⟩
  rw [hms] at hlog
  cases r with
  | ok a =>
    obtain ⟨new, hnew⟩ := hf a s' log hms hlog
    exact ⟨log ++ new, hlog.trans hnew⟩
  | error e => exact ⟨log, hlog⟩

theorem traces_read_bind {f : σ → Action σ ε β} (h : Traces R s (f s)) :
    Traces R s (read >>= f) := h

theorem traces_ite {c : Prop} [Decidable c] {m m' : Action σ ε α} (hm : c → Traces R s m)
    (hm' : ¬ c → Traces R s m') : Traces R s (if c then m else m') := by
  by_cases hc : c
  · rw [if_pos hc]
    exact hm hc
  · rw [if_neg hc]
    exact hm' hc

theorem traces_ofExcept_bind {x : Except ε α} {f : α → Action σ ε β}
    (h : ∀ a, x = .ok a → Traces R s (f a)) : Traces R s (ofExcept x >>= f) := by
  cases x with
  | ok a => exact h a rfl
  | error e => exact ⟨[], .refl s⟩

end Action

end Purra
