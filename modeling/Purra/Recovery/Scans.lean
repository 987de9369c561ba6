import Purra.Recovery.Worker
import Purra.Lib.Run

/-!
# Bounded scans starve nobody

A scan visits the first members of its queue, each once, however it ends (`visits_eq_take`).  So an
element that every discovery finds moves forward by the number of visits until it is visited
itself.

* `Turns` — what a scan does to the queue of a worker that does not acknowledge.
* `visitingScans` — how many scans of a run visit anybody.
* `recovery_scans_starve_nobody` — the queue after every discovery, and the turn of every member.
-/

namespace Purra

open Rotation

namespace RecoveryWorker

/-! ## The visits of a scan -/

/-- The loop visits the candidates of its batch in order, and stops somewhere. -/
theorem visitBatch_visits (worker : RecoveryWorker) (candidates : Nat → CandidateAnswers)
    (batch : List String) (progress : ScanProgress) :
    ∃ n, (worker.visitBatch candidates batch progress).1.visits =
      progress.visits ++ batch.take n := by
  induction batch generalizing progress with
  | nil => exact ⟨0, by simp [visitBatch]⟩
  | cons runId batch ih =>
    have hhere : ∃ n, progress.visits ++ [runId] = progress.visits ++ (runId :: batch).take n :=
      ⟨1, rfl⟩
    have hgoes : ∀ progress' : ScanProgress, progress'.visits = progress.visits ++ [runId] →
        ∃ n, (worker.visitBatch candidates batch progress').1.visits =
          progress.visits ++ (runId :: batch).take n := by
      intro progress' hvisits
      obtain ⟨n, hn⟩ := ih progress'
      exact ⟨n + 1, by rw [hn, hvisits, List.append_assoc, List.take_succ_cons]; rfl⟩
    unfold visitBatch
    dsimp only
    by_cases hstop : (candidates progress.visits.length).stopBefore = true
    · rw [if_pos hstop]
      exact ⟨0, by simp⟩
    · rw [if_neg hstop]
      cases worker.eligibility (candidates progress.visits.length) with
      | error r => exact hhere
      | ok p =>
        obtain ⟨revision, reason⟩ := p
        cases revision with
        | none => exact hgoes _ rfl
        | some revision =>
          dsimp only
          cases attempt runId (candidates progress.visits.length) with
          | raised r => exact hhere
          | stopped => exact hhere
          | result result =>
            dsimp only
            cases worker.settle (candidates progress.visits.length) with
            | error r => exact hhere
            | ok u => exact hgoes _ rfl

/-- The queue a scan visits: the worker's own when nothing was discovered. -/
def scanned (worker : RecoveryWorker) (input : ScanInput) : List String :=
  (worker.visitAll input).1

/-- A scan visits the first members of its queue. -/
theorem visits_eq_take (worker : RecoveryWorker) (input : ScanInput) :
    worker.visits input = (worker.scanned input).take (worker.visits input).length := by
  have hfirst : ∃ n, worker.visits input = (worker.scanned input).take n := by
    unfold visits scanned visitAll
    cases input.discover with
    | error r => exact ⟨0, rfl⟩
    | ok found =>
      dsimp only
      obtain ⟨n, hn⟩ := visitBatch_visits worker input.candidates
        (worker.batch (worker.discovered found)) {}
      rw [hn]
      unfold batch
      cases worker.limit with
      | none => exact ⟨n, rfl⟩
      | some limit =>
        dsimp only
        exact ⟨min n limit, by rw [List.take_take]; rfl⟩
  obtain ⟨n, hn⟩ := hfirst
  rw [hn, List.length_take, ← List.take_eq_take_min]

/-- The queue after a scan. -/
theorem queue_next (worker : RecoveryWorker) (input : ScanInput) :
    (worker.next input).queue = rotate (worker.visits input).length (worker.scanned input) := by
  unfold next scan
  dsimp only
  cases worker.acknowledgement input <;> rfl

theorem acknowledges_next (worker : RecoveryWorker) (input : ScanInput) :
    (worker.next input).acknowledges = worker.acknowledges := by
  unfold next scan
  dsimp only
  cases worker.acknowledgement input <;> rfl

variable {worker : RecoveryWorker} {input : ScanInput}

theorem scanned_of_discover {found : List String}
    (hfree : worker.acknowledges = false) (h : input.discover = .ok found) :
    worker.scanned input = refill worker.queue (Dict.fromKeys found) := by
  simp [scanned, visitAll, h, discovered, hfree]

theorem scanned_of_raised {r : Raised}
    (h : input.discover = .error r) : worker.scanned input = worker.queue := by
  simp [scanned, visitAll, h]

/-! ## Runs -/

/-- Whatever a scan discovers, the candidate is among it. -/
def Found (id : String) (input : ScanInput) : Prop :=
  ∀ found, input.discover = .ok found → id ∈ found

/-- Whether a scan visits at least one candidate, as a number. -/
def visiting (worker : RecoveryWorker) (input : ScanInput) : Nat :=
  if worker.visits input = [] then 0 else 1

/-- The scans of a run that visit at least one candidate. -/
def visitingScans : RecoveryWorker → List ScanInput → Nat
  | _, [] => 0
  | worker, input :: inputs => worker.visiting input + visitingScans (worker.next input) inputs

/-- The candidate is visited in the run, after at most `p` visiting scans. -/
def VisitedWithin (p : Nat) (id : String) (worker : RecoveryWorker) (inputs : List ScanInput) :
    Prop :=
  ∃ earlier input later, inputs = earlier ++ input :: later ∧ visitingScans worker earlier ≤ p ∧
    id ∈ (exec next worker earlier).visits input

/-- Nobody stands twice in the queue of a worker that does not acknowledge. -/
structure Turns (worker : RecoveryWorker) : Prop where
  free : worker.acknowledges = false
  nodup : worker.queue.Nodup

theorem Turns.scanned (h : Turns worker) (input : ScanInput) :
    (worker.scanned input).Nodup := by
  cases hdiscover : input.discover with
  | error r =>
    rw [scanned_of_raised hdiscover]
    exact h.nodup
  | ok found =>
    rw [scanned_of_discover h.free hdiscover]
    exact nodup_refill h.nodup (Dict.nodup_fromKeys found)

theorem Turns.next (h : Turns worker) (input : ScanInput) :
    Turns (worker.next input) where
  free := (acknowledges_next worker input).trans h.free
  nodup := by
    rw [queue_next]
    exact nodup_rotate (h.scanned input)

theorem turns_exec (h : Turns worker) (inputs : List ScanInput) :
    Turns (exec RecoveryWorker.next worker inputs) :=
  exec_induction_of_all (fun _ input h => h.next input) inputs h

variable {p : Nat} {id : String}

/-- A discovery brings nobody in before a member that it finds. -/
theorem Turns.within_scanned (h : Turns worker)
    (hfound : Found id input) (hwithin : Within p id worker.queue) :
    Within p id (worker.scanned input) := by
  cases hdiscover : input.discover with
  | error r =>
    rw [scanned_of_raised hdiscover]
    exact hwithin
  | ok found =>
    rw [scanned_of_discover h.free hdiscover]
    exact hwithin.refill (Dict.mem_fromKeys.2 (hfound found hdiscover))

/-- A scan that visits anybody visits a member of its queue or brings it forward. -/
theorem within_next
    (hwithin : Within p id (worker.scanned input)) (hnot : id ∉ worker.visits input) :
    ∃ q, p = worker.visiting input + q ∧ Within q id (worker.next input).queue := by
  rw [visits_eq_take] at hnot
  obtain ⟨hle, hforward⟩ := hwithin.rotate hnot
  rw [← queue_next] at hforward
  have hvisiting : worker.visiting input ≤ (worker.visits input).length := by
    unfold visiting
    split
    · exact Nat.zero_le _
    · rename_i hsome
      exact List.length_pos_iff.2 hsome
  refine ⟨p - worker.visiting input, by omega, hforward.mono ?_⟩
  omega

theorem VisitedWithin.later {q : Nat}
    {inputs : List ScanInput} (h : VisitedWithin q id (worker.next input) inputs) :
    VisitedWithin (worker.visiting input + q) id worker (input :: inputs) := by
  obtain ⟨earlier, at_, later, rfl, hcount, hvisits⟩ := h
  exact ⟨input :: earlier, at_, later, rfl, Nat.add_le_add_left hcount _, hvisits⟩

/-- The turn of a waiting member, by induction on the scans: each visits it, or visits nobody, or
brings it forward. -/
theorem Turns.waits (h : Turns worker)
    {inputs : List ScanInput} (hwithin : Within p id worker.queue)
    (hfound : ∀ input ∈ inputs, Found id input) (hcount : p < visitingScans worker inputs) :
    VisitedWithin p id worker inputs := by
  induction inputs generalizing worker p with
  | nil => exact absurd hcount (Nat.not_lt_zero p)
  | cons input inputs ih =>
    have hscanned := h.within_scanned (hfound input List.mem_cons_self) hwithin
    by_cases hvisited : id ∈ worker.visits input
    · exact ⟨[], input, inputs, rfl, Nat.zero_le p, hvisited⟩
    · obtain ⟨q, rfl, hnext⟩ := within_next hscanned hvisited
      refine (ih (h.next input) hnext (fun i hi => hfound i (List.mem_cons_of_mem _ hi)) ?_).later
      unfold visitingScans at hcount
      omega

/-- The turn of a member of the queue that a scan visits. -/
theorem Turns.turn (h : Turns worker)
    {inputs : List ScanInput} (hwithin : Within p id (worker.scanned input))
    (hfound : ∀ later ∈ inputs, Found id later)
    (hcount : p < visitingScans worker (input :: inputs)) :
    VisitedWithin p id worker (input :: inputs) := by
  by_cases hvisited : id ∈ worker.visits input
  · exact ⟨[], input, inputs, rfl, Nat.zero_le p, hvisited⟩
  · obtain ⟨q, rfl, hnext⟩ := within_next hwithin hvisited
    refine ((h.next input).waits hnext hfound ?_).later
    unfold visitingScans at hcount
    omega

/-- **Bounded scans.**  For a worker without an acknowledgement, after any scans: a discovery leaves
every found candidate in the queue once, those that were there before the new ones and in their
order; no scan visits a candidate twice; and a candidate at position `p` that every discovery
finds is visited after at most `p` scans that visit anybody, in the queue between two scans
and in the queue after a discovery. -/
theorem recovery_scans_starve_nobody (limit : Option Nat) (schedule : ScheduleKind)
    (worker : RecoveryWorker) (hnew : new limit schedule false = .ok worker)
    (before : List ScanInput) :
    let current := exec next worker before
    (∀ found, (current.discovered found).Nodup ∧
      (∀ id, id ∈ current.discovered found ↔ id ∈ found) ∧
      current.queue.filter (· ∈ found) <+: current.discovered found) ∧
    (∀ input, (current.visits input).Nodup) ∧
    (∀ inputs p id, current.queue[p]? = some id → (∀ input ∈ inputs, Found id input) →
      p < visitingScans current inputs → VisitedWithin p id current inputs) ∧
    ∀ input found inputs p id, input.discover = .ok found →
      (current.discovered found)[p]? = some id → (∀ later ∈ inputs, Found id later) →
      p < visitingScans current (input :: inputs) →
        VisitedWithin p id current (input :: inputs) := by
  intro current
  have hworker : Turns worker := by
    unfold new at hnew
    split at hnew
    · cases hnew
    · cases hnew
      exact ⟨rfl, List.nodup_nil⟩
  have hturns : Turns current := turns_exec hworker before
  have hdiscovered : ∀ found,
      current.discovered found = refill current.queue (Dict.fromKeys found) := by
    intro found
    simp [discovered, hturns.free]
  refine ⟨fun found => ⟨?_, ?_, ?_⟩, fun input => ?_, fun inputs p id hget hfound hcount => ?_,
    fun input found inputs p id hdiscover hget hfound hcount => ?_⟩
  · rw [hdiscovered]
    exact nodup_refill hturns.nodup (Dict.nodup_fromKeys found)
  · intro id
    rw [hdiscovered, mem_refill, Dict.mem_fromKeys]
  · rw [hdiscovered]
    have hkept := filter_prefix_refill current.queue (Dict.fromKeys found)
    simpa only [Dict.mem_fromKeys] using hkept
  · rw [visits_eq_take]
    exact (hturns.scanned input).sublist (List.take_sublist _ _)
  · exact hturns.waits (within_of_getElem? hget) hfound hcount
  · refine hturns.turn ?_ hfound hcount
    rw [scanned_of_discover hturns.free hdiscover, ← hdiscovered]
    exact within_of_getElem? hget

/-- A scan that finds two Runs and resumes what it visits. -/
def pairScan : ScanInput where
  discover := .ok ["a", "b"]
  candidates _ := ⟨false, .ok (some 0, none), .ok [], false, .ok (), .ok ()⟩
  stopAtEnd := false
  acknowledge := .ok ()

/-- A worker that visits one Run in a scan. -/
def singleWorker : RecoveryWorker := ⟨some 1, .absent, false, [], none⟩

theorem recovery_scans_starve_nobody_pair :
    VisitedWithin 1 "a" (exec next singleWorker [pairScan]) [pairScan, pairScan] := by
  have h := recovery_scans_starve_nobody (some 1) .absent singleWorker (by decide) [pairScan]
  have hfound : ∀ input ∈ [pairScan, pairScan], Found "a" input := by
    intro input hinput found hdiscover
    have hpair : input = pairScan := by simpa using hinput
    rw [hpair] at hdiscover
    cases hdiscover
    decide
  exact h.2.2.1 [pairScan, pairScan] 1 "a" (by decide) hfound (by decide)

end RecoveryWorker

end Purra
