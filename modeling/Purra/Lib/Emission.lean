import Purra.Lib.Action

/-!
# Actions against an environment

Code that calls out, to a model, a validator or a store, may be answered in any way at any time.  An
`Action` whose state is the log of its calls and their answers models that: the environment answers
from the whole log, and the action can only append to it.

* `Action.ask` — one call, answered and logged.
* `Action.attempt` — `try` … `except`: the exception as a value.
* `Emits` — from every log, what an action appends and how it ends meet a condition; the rules below
  follow the code of the action.
-/

namespace Purra

namespace Action

variable {η ε α β ρ : Type}

/-- A call: the environment answers, and both are logged. -/
def ask (answer : List η → ρ) (event : ρ → η) : Action (List η) ε ρ := fun log =>
  (.ok (answer log), log ++ [event (answer log)])

/-- The exception of an action as a value. -/
def attempt {σ : Type} (m : Action σ ε α) : Action σ ε (Except ε α) := fun s =>
  (.ok (m s).1, (m s).2)

end Action

/-- What an action appends, and how it ends, meets `P` whatever the log is. -/
def Emits {η ε α : Type} (m : Action (List η) ε α) (P : Except ε α → List η → Prop) : Prop :=
  ∀ log, ∃ new, (m log).2 = log ++ new ∧ P (m log).1 new

namespace Emits

variable {η ε α β ρ : Type} {m : Action (List η) ε α} {P P' : Except ε α → List η → Prop}
  {f : α → Action (List η) ε β} {Q : Except ε β → List η → Prop}

theorem mono (h : Emits m P) (himp : ∀ r new, P r new → P' r new) : Emits m P' := by
  intro log
  obtain ⟨new, hlog, hP⟩ := h log
  exact ⟨new, hlog, himp _ _ hP⟩

theorem pure {a : α} (h : P (.ok a) []) : Emits (Pure.pure a : Action (List η) ε α) P :=
  fun log => ⟨[], (List.append_nil log).symm, h⟩

theorem raise {e : ε} (h : P (.error e) []) : Emits (Action.raise e : Action (List η) ε α) P :=
  fun log => ⟨[], (List.append_nil log).symm, h⟩

theorem ask {answer : List η → ρ} {event : ρ → η} {R : Except ε ρ → List η → Prop}
    (h : ∀ r, R (.ok r) [event r]) : Emits (Action.ask answer event : Action (List η) ε ρ) R :=
  fun log => ⟨[event (answer log)], rfl, h (answer log)⟩

/-- The rule for `m >>= f`: `f` goes on from what `m` appended. -/
theorem bind (hm : Emits m P) (herror : ∀ e new, P (.error e) new → Q (.error e) new)
    (hok : ∀ a new, P (.ok a) new → Emits (f a) fun r more => Q r (new ++ more)) :
    Emits (m >>= f) Q := by
  intro log
  obtain ⟨new, hlog, hP⟩ := hm log
  rw [Action.bind_apply]
  generalize m log = result at hlog hP
  obtain ⟨result, log'⟩ := result
  dsimp only at hlog hP
  subst hlog
  cases result with
  | error e => exact ⟨new, rfl, herror e new hP⟩
  | ok a =>
    obtain ⟨more, hmore, hQ⟩ := hok a new hP (log ++ new)
    exact ⟨new ++ more, by rw [hmore, List.append_assoc], hQ⟩

theorem attempt (h : Emits m P) :
    Emits m.attempt fun r new => ∃ result, r = .ok result ∧ P result new := by
  intro log
  obtain ⟨new, hlog, hP⟩ := h log
  exact ⟨new, hlog, _, rfl, hP⟩

theorem ite {c : Prop} [Decidable c] {m' : Action (List η) ε α} (hthen : c → Emits m P)
    (helse : ¬ c → Emits m' P) : Emits (if c then m else m') P := by
  by_cases h : c
  · rw [if_pos h]
    exact hthen h
  · rw [if_neg h]
    exact helse h

/-- What an action does from an empty log. -/
theorem run (h : Emits m P) : P (m []).1 (m []).2 := by
  obtain ⟨new, hlog, hP⟩ := h []
  rw [List.nil_append] at hlog
  rw [hlog]
  exact hP

end Emits

end Purra
