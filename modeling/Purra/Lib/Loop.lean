import Mathlib.Data.List.Basic

/-!
# Loops that may fail or never end

A `while` loop looks at its variables, and returns, raises, or goes round again.
`loop body fuel` runs at most `fuel` rounds of it and reports a loop still running
then as `diverges`, which keeps the function total without promising an answer.

* `loop_rule` — **the rule for what a loop returns**: an invariant of the rounds
  holds where the loop stops.
* `loop_returns` — **the rule for total correctness**: when no round raises and a
  rank falls in every round, a fuel above the rank is enough and the loop returns.
-/

namespace Purra

/-- Why a computation has no value: it raised an exception, or it never ends. -/
inductive Fault (ε : Type) where
  | raised (e : ε)
  | diverges
  deriving DecidableEq, Repr

variable {ρ ε α : Type}

/-- Run `body` until it returns (`inl`); `inr` gives the variables of the next round. -/
def loop (body : ρ → Except ε (α ⊕ ρ)) : Nat → ρ → Except (Fault ε) α
  | 0, _ => .error .diverges
  | fuel + 1, r =>
    match body r with
    | .error e => .error (.raised e)
    | .ok (.inl a) => .ok a
    | .ok (.inr r') => loop body fuel r'

theorem loop_rule (body : ρ → Except ε (α ⊕ ρ)) {I : ρ → Prop}
    (hround : ∀ r r', I r → body r = .ok (.inr r') → I r') :
    ∀ {fuel : Nat} {r : ρ} {a : α}, I r → loop body fuel r = .ok a →
      ∃ r', I r' ∧ body r' = .ok (.inl a) := by
  intro fuel
  induction fuel with
  | zero =>
    intro r a _ h
    cases h
  | succ fuel ih =>
    intro r a hr h
    rw [loop] at h
    cases hbody : body r with
    | error e =>
      simp only [hbody] at h
      cases h
    | ok next =>
      cases next with
      | inl b =>
        simp only [hbody] at h
        cases h
        exact ⟨r, hr, hbody⟩
      | inr r' =>
        simp only [hbody] at h
        exact ih (hround r r' hr hbody) h

theorem loop_returns (body : ρ → Except ε (α ⊕ ρ)) (rank : ρ → Nat) {I : ρ → Prop}
    (hround : ∀ r, I r → ∃ next, body r = .ok next ∧
      ∀ r', next = .inr r' → I r' ∧ rank r' < rank r) :
    ∀ {fuel : Nat} {r : ρ}, I r → rank r < fuel → ∃ a, loop body fuel r = .ok a := by
  intro fuel
  induction fuel with
  | zero =>
    intro r _ hrank
    omega
  | succ fuel ih =>
    intro r hr hrank
    obtain ⟨next, hbody, hnext⟩ := hround r hr
    cases next with
    | inl a => exact ⟨a, by simp [loop, hbody]⟩
    | inr r' =>
      obtain ⟨hr', hlt⟩ := hnext r' rfl
      obtain ⟨a, ha⟩ := ih hr' (by omega)
      exact ⟨a, by simpa [loop, hbody] using ha⟩

end Purra
