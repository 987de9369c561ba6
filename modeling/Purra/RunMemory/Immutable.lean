import Purra.RunMemory.Steps

/-!
# What has ended stays as it ended

`terminal_runs_kept`: from any reachable state on, whatever methods are called in whatever
order, a Run that is terminal keeps its status, steps, plan, results, error and
checkpoint; the round of a checkpoint never goes back; a stream that is committed or
aborted is never touched again, and a stream that appears is open.
-/

namespace Purra.RunMemory

open Contracts Output

/-- What a later state keeps of an earlier one. -/
structure Kept (s s' : RunState) : Prop where
  outcomes : ∀ runId record, s.runs.get? runId = some record → record.status.terminal = true →
    ∃ record', s'.runs.get? runId = some record' ∧ record'.outcome = record.outcome
  rounds : ∀ runId record checkpoint, s.runs.get? runId = some record →
    record.executionCheckpoint = some checkpoint →
    ∃ record' checkpoint', s'.runs.get? runId = some record' ∧
      record'.executionCheckpoint = some checkpoint' ∧
      checkpoint.fields.nextRound ≤ checkpoint'.fields.nextRound
  streams : ∀ id stream, s.streams.get? id = some stream →
    ∃ stream', s'.streams.get? id = some stream' ∧ stream'.spec = stream.spec ∧
      (stream.status ≠ .opened → stream' = stream)

theorem kept_of_persist {s s' : RunState} (hruns : RunsPersist s s') (hstreams : StreamsStay s s') :
    Kept s s' where
  outcomes := by
    intro runId record hget hterminal
    obtain ⟨record', hget', hpersists⟩ := hruns runId record hget
    refine ⟨record', hget', hpersists.settled fun hrunning => ?_⟩
    rw [hrunning] at hterminal
    cases hterminal
  rounds := by
    intro runId record checkpoint hget hcheckpoint
    obtain ⟨record', hget', hpersists⟩ := hruns runId record hget
    obtain ⟨checkpoint', hmem, hle⟩ := hpersists.advances checkpoint hcheckpoint
    exact ⟨record', checkpoint', hget', hmem, hle⟩
  streams := by
    intro id stream hget
    obtain ⟨stream', hget', hstays⟩ := hstreams id stream hget
    exact ⟨stream', hget', hstays.spec, hstays.closed⟩

section

variable (host : Host)

theorem step_persists {s : RunState} (hkeyed : s.Keyed) (call : Writer × Operation) :
    RunsPersist s (step host s call) ∧ StreamsStay s (step host s call) := by
  have hstep := step_writes host hkeyed call
  generalize step host s call = s' at hstep ⊢
  cases hstep with
  | writes h => exact ⟨runsPersist_of_moves h, streamsStay_of_moves h⟩
  | opened spec hnew =>
    refine ⟨.refl s, fun id stream hget => ⟨stream, ?_, .refl stream⟩⟩
    unfold RunState.withStream
    rw [Dict.get?_set_of_ne]
    · exact hget
    · rintro rfl
      rw [hnew] at hget
      cases hget

/-- A stream that appears is open. -/
theorem step_opens {s : RunState} (hkeyed : s.Keyed) (call : Writer × Operation) {id : String}
    {stream : StoredStream} (hnone : s.streams.get? id = none)
    (hget : (step host s call).streams.get? id = some stream) : stream.status = .opened := by
  have hstep := step_writes host hkeyed call
  generalize step host s call = s' at hstep hget
  cases hstep with
  | writes h =>
    rw [get?_stream_none_of_moves h hnone] at hget
    cases hget
  | opened spec hnew =>
    unfold RunState.withStream at hget
    rw [Dict.get?_set] at hget
    split at hget
    · cases hget
      rfl
    · rw [hnone] at hget
      cases hget

theorem run_persists {s : RunState} (hkeyed : s.Keyed) (run : List (Writer × Operation)) :
    RunsPersist s (exec (step host) s run) ∧ StreamsStay s (exec (step host) s run) := by
  induction run generalizing s with
  | nil => exact ⟨.refl s, .refl s⟩
  | cons call run ih =>
    have hstep := step_persists host hkeyed call
    have hrest := ih (keyed_step host hkeyed call)
    exact ⟨hstep.1.trans hrest.1, hstep.2.trans hrest.2⟩

/-- **Terminal runs are immutable.** -/
theorem terminal_runs_kept (run : List (Writer × Operation)) :
    let s := exec (step host) {} run
    (∀ later, Kept s (exec (step host) s later)) ∧
      ∀ call id stream, s.streams.get? id = none →
        (step host s call).streams.get? id = some stream → stream.status = .opened := by
  intro s
  have hkeyed : s.Keyed := RunState.Reachable.keyed host ⟨run, rfl⟩
  constructor
  · intro later
    obtain ⟨hruns, hstreams⟩ := run_persists host hkeyed later
    exact kept_of_persist hruns hstreams
  · intro call id stream
    exact step_opens host hkeyed call

end

end Purra.RunMemory
