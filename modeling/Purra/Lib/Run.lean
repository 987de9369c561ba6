import Mathlib.Order.Basic

/-!
# Runs of a labelled machine

A machine is a function `step : σ → ℓ → σ`: what one labelled event does to the
state.  A run is a list of labels.  A claim about *every run* is proved by saying
what one step keeps and inducting once; this file does that induction.

* `exec` — the state a run reaches; `exec_append` cuts a run in two.
* `Along` — every step of a run meets a condition on the state it finds and its
  label (the arguments were admissible, the clock did not go back).
* `exec_induction` — the invariant rule: what admissible steps keep, admissible
  runs keep.  `exec_rel` is its two-state form, for what may not change between
  any two points of a run.
-/

namespace Purra

section

variable {σ ℓ : Type} (step : σ → ℓ → σ)

/-- The state a run reaches from `s`. -/
def exec (s : σ) (run : List ℓ) : σ := run.foldl step s

/-- Every step of the run, taken from the state it finds, meets `C`. -/
def Along (C : σ → ℓ → Prop) : σ → List ℓ → Prop
  | _, [] => True
  | s, l :: run => C s l ∧ Along C (step s l) run

instance decidableAlong (C : σ → ℓ → Prop) [∀ s l, Decidable (C s l)] :
    (s : σ) → (run : List ℓ) → Decidable (Along step C s run)
  | _, [] => isTrue trivial
  | s, l :: run =>
    have := decidableAlong C (step s l) run
    inferInstanceAs (Decidable (C s l ∧ Along step C (step s l) run))

variable {step} {C : σ → ℓ → Prop}

@[simp] theorem exec_nil (s : σ) : exec step s [] = s := rfl

@[simp] theorem exec_cons (s : σ) (l : ℓ) (run : List ℓ) :
    exec step s (l :: run) = exec step (step s l) run := rfl

theorem exec_append (s : σ) (run run' : List ℓ) :
    exec step s (run ++ run') = exec step (exec step s run) run' := by
  simp [exec, List.foldl_append]

variable {s : σ} {run : List ℓ}

theorem along_append {run' : List ℓ} :
    Along step C s (run ++ run') ↔ Along step C s run ∧ Along step C (exec step s run) run' := by
  induction run generalizing s with
  | nil => simp [Along]
  | cons l run ih => simp [Along, ih, and_assoc]

/-- **The invariant rule.**  What every admissible step keeps holds at the end of every
admissible run. -/
theorem exec_induction {I : σ → Prop} (hstep : ∀ s l, C s l → I s → I (step s l))
    (hrun : Along step C s run) (hs : I s) : I (exec step s run) := by
  induction run generalizing s with
  | nil => exact hs
  | cons l run ih => exact ih hrun.2 (hstep s l hrun.1 hs)

/-- The invariant rule when every step is admissible. -/
theorem exec_induction_of_all {I : σ → Prop} (hstep : ∀ s l, I s → I (step s l))
    (run : List ℓ) (hs : I s) : I (exec step s run) := by
  induction run generalizing s with
  | nil => exact hs
  | cons l run ih => exact ih (hstep s l hs)

/-- A reflexive and transitive relation that every admissible step respects relates the two ends
of every admissible run. -/
theorem exec_rel {R : σ → σ → Prop} (hrefl : ∀ s, R s s)
    (htrans : ∀ {a b c}, R a b → R b c → R a c) (hstep : ∀ s l, C s l → R s (step s l))
    (hrun : Along step C s run) : R s (exec step s run) := by
  induction run generalizing s with
  | nil => exact hrefl s
  | cons l run ih => exact htrans (hstep s l hrun.1) (ih hrun.2)

/-- A condition on the labels alone. -/
theorem along_of_forall {P : ℓ → Prop} (h : ∀ l ∈ run, P l) :
    Along step (fun _ l => P l) s run := by
  induction run generalizing s with
  | nil => trivial
  | cons l run ih =>
    exact ⟨h l (List.mem_cons_self ..), ih fun l' hl' => h l' (List.mem_cons_of_mem l hl')⟩

theorem Along.mono {D : σ → ℓ → Prop} (h : ∀ s l, C s l → D s l)
    (hrun : Along step C s run) : Along step D s run := by
  induction run generalizing s with
  | nil => trivial
  | cons l run ih => exact ⟨h s l hrun.1, ih hrun.2⟩

end

end Purra
