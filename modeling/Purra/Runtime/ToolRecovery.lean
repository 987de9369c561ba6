import Mathlib.Data.String.Basic
import Purra.Checkpoints.Messages
import Purra.Recovery.Ledger
import Purra.Approvals.Session

/-!
# Recovering from a tool batch

`purra/runtime/tool_recovery.py`: what a Run does after the result of a tool batch is known.  The
effect of a failed batch goes into the request for its recovery, so that the ledger denies one that
may repeat an effect.

* `resolveToolRecovery` — the resolution, and the ledger behind it.
* `resolve_of_started` — a failed batch that may have had an effect is not tried again.
* `decisions_survive_restarts` — the same, with what the ledger allows over a run with restarts.
-/

namespace Purra.Runtime

open Purra.Contracts Purra.Recovery

/-! ## Batches -/

/-- `ToolPlanningDisposition`. -/
inductive ToolPlanningDisposition where
  | keepPlan | replan
  deriving DecidableEq, Repr

/-- `ToolCallResult`, the fields the resolution reads. -/
structure ToolRoundResult where
  toolName : RequiredText
  planningDisposition : ToolPlanningDisposition := .keepPlan

/-- `ToolBatchResult`, the fields the resolution reads. -/
structure ToolBatchResult where
  results : List ToolRoundResult
  outcome : ToolBatchOutcome
  error : Option RequiredText := none
  effectState : ToolEffectState := .unknown

/-- `replan_requested`. -/
def ToolBatchResult.replanRequested (batch : ToolBatchResult) : Bool :=
  batch.results.any (·.planningDisposition = .replan)

/-- `ToolBatchOutcome.value`. -/
def batchOutcomeValue : ToolBatchOutcome → String
  | .progressed => "progressed"
  | .completed => "completed"
  | .declined => "declined"
  | .canceled => "canceled"
  | .rejected => "rejected"
  | .failed => "failed"

/-- `RecoveryEffectState(batch_result.effect_state.value)`. -/
def recoveryEffectState : ToolEffectState → RecoveryEffectState
  | .notStarted => .notStarted
  | .committed => .committed
  | .unknown => .unknown

/-- `TraceRecord`. -/
structure TraceRecord where
  stage : String
  outcome : String
  details : Json.Object

/-! ## The resolution -/

/-- `_RECOVERABLE_TOOL_INPUT_ERROR_CODES`. -/
def recoverableToolInputErrorCodes : List String := [
  "duplicate_tool_call_id", "invalid_tool_arguments_json", "invalid_tool_arguments_schema",
  "invalid_tool_arguments_shape", "invalid_tool_arguments_type", "invalid_tool_arguments_value",
  "invalid_tool_call_id", "invalid_tool_name", "multi_call_batch_requires_read_only_tools",
  "too_many_tool_calls", "tool_arguments_too_large", "tool_input_invalid"]

/-- `TOOL_INPUT_RETRY_GUIDANCE`. -/
def toolInputRetryGuidance : String :=
  "The preceding tool call was rejected because its input did not satisfy " ++
  "the tool contract. The tool did not complete and produced no successful " ++
  "evidence. Correct the arguments from the structured error result and retry " ++
  "the same currently exposed tool exactly once. Return a real structured " ++
  "tool call, not a textual imitation, and do not invent a successful result."

/-- The message of an input retry. -/
def toolInputRetryMessage : AgentMessage where
  role := .developer
  content := .str toolInputRetryGuidance
  valid := ⟨Or.inl rfl, nofun⟩

/-- `ToolRecoveryDisposition`. -/
inductive ToolRecoveryDisposition where
  | continue_ | retryModel | replan | reject
  deriving DecidableEq, Repr

/-- `ToolRecoveryResolution`. -/
structure ToolRecoveryResolution where
  disposition : ToolRecoveryDisposition
  nextInputRecoveryEpoch : Nat
  messages : List AgentMessage := []
  traces : List TraceRecord := []
  errorCode : Option String := none

/-- `_is_recoverable_tool_input_error`. -/
def isRecoverableToolInputError (errorCode : Option RequiredText) : Bool :=
  strip ((errorCode.map RequiredText.text).getD "") ∈ recoverableToolInputErrorCodes

/-- The source's error code of a trace. -/
def errorJson (error : Option RequiredText) : Json :=
  match error with
  | none => .null
  | some code => .str code.text

/-- `_recovery_trace`. -/
def recoveryTrace (decision : RecoveryDecision) (roundNumber : Nat) (details : Json.Object) :
    TraceRecord where
  stage := "recovery_decision"
  outcome := if decision.allowed then "allowed" else "denied"
  details := ("round", .int roundNumber) :: decision.toTraceDetails ++ details

/-- The scope of the input retries of one epoch. -/
def inputScope (epoch : Nat) : RequiredText :=
  .numbered "tool-input-sequence:" (by simp [isSpace]) epoch

/-- The scope of the replans after one round. -/
def roundScope (roundNumber : Nat) : RequiredText :=
  .numbered "tool-round:" (by simp [isSpace]) roundNumber

/-- What the resolution is given beside the batch and the ledger. -/
structure ToolRound where
  requestedNames : List String
  planningAvailable : Bool
  inputRecoveryEpoch : Nat
  remainingModelRounds : Int
  roundNumber : Nat
  cancellationRequested : Bool

namespace ToolRound

/-- The request to recover from a batch. -/
def request (round : ToolRound) (batch : ToolBatchResult) (cause : RecoveryCause)
    (action : Recovery.RecoveryAction) (scope : RequiredText) : RecoveryRequest where
  cause := cause
  action := action
  scope := scope
  remainingModelRounds := round.remainingModelRounds.toNat
  cancellationRequested := round.cancellationRequested
  effectState := recoveryEffectState batch.effectState
  mayRepeatSideEffect := true

/-- The request to send the tool's input again. -/
def inputRequest (round : ToolRound) (batch : ToolBatchResult) : RecoveryRequest :=
  round.request batch .toolInputInvalid .retryModel (inputScope round.inputRecoveryEpoch)

/-- The request to plan again. -/
def replanRequest (round : ToolRound) (batch : ToolBatchResult) : RecoveryRequest :=
  round.request batch .toolExecutionFailedReplan .replan (roundScope round.roundNumber)

/-- `next_epoch`. -/
def nextEpoch (round : ToolRound) (batch : ToolBatchResult) : Nat :=
  round.inputRecoveryEpoch + if batch.outcome = .failed then 0 else 1

/-- The trace of a decision about a batch. -/
def trace (round : ToolRound) (batch : ToolBatchResult) (decision : RecoveryDecision) : TraceRecord :=
  recoveryTrace decision round.roundNumber [("sourceErrorCode", errorJson batch.error)]

/-- The resolution that sends the tool's input again. -/
def inputRetry (round : ToolRound) (batch : ToolBatchResult) (decision : RecoveryDecision) :
    ToolRecoveryResolution where
  disposition := .retryModel
  nextInputRecoveryEpoch := round.nextEpoch batch
  messages := [toolInputRetryMessage]
  traces := [round.trace batch decision, {
    stage := "tool_recovery"
    outcome := "input_retry_scheduled"
    details := [
      ("round", .int round.roundNumber),
      ("errorCode", errorJson batch.error),
      ("retryAttempt", .int decision.attempt),
      ("requestedTools", .arr ((round.requestedNames.insertionSort (· ≤ ·)).map .str)),
      ("effectState", .str (recoveryEffectState batch.effectState).value)] }]

/-- What is left for a failed batch whose input is not sent again. -/
def resolveFailed (round : ToolRound) (batch : ToolBatchResult) (traces : List TraceRecord)
    (ledger : RecoveryLedger) : ToolRecoveryResolution × RecoveryLedger :=
  let errorCode := (batch.error.map RequiredText.text).getD "tool_execution_failed"
  if round.planningAvailable = false then
    ({ disposition := .reject
       nextInputRecoveryEpoch := round.nextEpoch batch
       traces := traces
       errorCode := some errorCode }, ledger)
  else
    let decided := ledger.decide_ (round.replanRequest batch)
    ({ disposition := if decided.1.allowed then .replan else .reject
       nextInputRecoveryEpoch := round.nextEpoch batch
       traces := traces ++ [round.trace batch decided.1]
       errorCode := some errorCode }, decided.2)

/-- The tools that ask for a new plan. -/
def requestedBy (batch : ToolBatchResult) : List String :=
  ((batch.results.filter (·.planningDisposition = .replan)).map (·.toolName.text)).dedup.insertionSort
    (· ≤ ·)

/-- The resolution of a batch that did not fail. -/
def resolveSettled (round : ToolRound) (batch : ToolBatchResult) : ToolRecoveryResolution :=
  if round.planningAvailable = true ∧ (batch.outcome = .progressed ∨ batch.outcome = .completed) ∧
      batch.replanRequested = true then
    { disposition := .replan
      nextInputRecoveryEpoch := round.nextEpoch batch
      traces := [{
        stage := "planning"
        outcome := "replan_requested"
        details := [
          ("round", .int round.roundNumber),
          ("outcome", .str (batchOutcomeValue batch.outcome)),
          ("requestedByTools", .arr ((requestedBy batch).map .str))] }] }
  else
    { disposition := .continue_
      nextInputRecoveryEpoch := round.nextEpoch batch }

end ToolRound

/-- `resolve_tool_recovery`. -/
def resolveToolRecovery (batch : ToolBatchResult) (round : ToolRound) (ledger : RecoveryLedger) :
    ToolRecoveryResolution × RecoveryLedger :=
  if batch.outcome = .failed then
    if isRecoverableToolInputError batch.error then
      let decided := ledger.decide_ (round.inputRequest batch)
      if decided.1.allowed then (round.inputRetry batch decided.1, decided.2)
      else round.resolveFailed batch [round.trace batch decided.1] decided.2
    else round.resolveFailed batch [] ledger
  else (round.resolveSettled batch, ledger)

/-! ## Effects are not repeated -/

namespace ToolRound

variable {round : ToolRound} {batch : ToolBatchResult}

/-- A batch that may have had an effect is not recovered from. -/
theorem not_allowed_of_started (hstarted : batch.effectState ≠ .notStarted)
    (ledger : RecoveryLedger) (cause : RecoveryCause) (action : Recovery.RecoveryAction)
    (scope : RequiredText) :
    (ledger.decide_ (round.request batch cause action scope)).1.allowed ≠ true := by
  intro hallowed
  have hpermitted := (ledger.decide_answers _).permitted hallowed
  have heffect : recoveryEffectState batch.effectState = .notStarted := hpermitted.repeatable rfl
  cases hstate : batch.effectState with
  | notStarted => exact hstarted hstate
  | committed => rw [hstate] at heffect; cases heffect
  | unknown => rw [hstate] at heffect; cases heffect

theorem resolveFailed_of_started (hstarted : batch.effectState ≠ .notStarted)
    (traces : List TraceRecord) (ledger : RecoveryLedger) :
    (round.resolveFailed batch traces ledger).1.disposition = .reject := by
  unfold resolveFailed
  split
  · rfl
  · exact if_neg (not_allowed_of_started hstarted ledger _ _ _)

end ToolRound

/-- A failed batch that may have had an effect is rejected. -/
theorem resolve_of_started {batch : ToolBatchResult} (hfailed : batch.outcome = .failed)
    (hstarted : batch.effectState ≠ .notStarted) (round : ToolRound) (ledger : RecoveryLedger) :
    (resolveToolRecovery batch round ledger).1.disposition = .reject := by
  unfold resolveToolRecovery
  rw [if_pos hfailed]
  split
  · dsimp only
    have hdenied : ¬ (ledger.decide_ (round.inputRequest batch)).1.allowed = true :=
      ToolRound.not_allowed_of_started hstarted ledger _ _ _
    rw [if_neg hdenied]
    exact ToolRound.resolveFailed_of_started hstarted _ _
  · exact ToolRound.resolveFailed_of_started hstarted _ _

open RecoveryLedger in
/-- **Decisions survive restarts**, stay within the policy and within what was asked for, and never
repeat the effect of a failed batch. -/
theorem decisions_survive_restarts :
    (∀ (policy : RecoveryPolicy) (events : List RecoveryLedger.Event),
      let decisions := (fresh policy).decisions (requestsOf events)
      (fresh policy).run events = .ok decisions ∧
        (∀ cause scope, allowedCount cause scope decisions ≤ policy.maxAttempts cause) ∧
        List.Forall₂ Answers (requestsOf events) decisions) ∧
    ∀ (batch : ToolBatchResult) (round : ToolRound) (ledger : RecoveryLedger),
      batch.outcome = .failed → batch.effectState ≠ .notStarted →
      (resolveToolRecovery batch round ledger).1.disposition ≠ .retryModel ∧
        (resolveToolRecovery batch round ledger).1.disposition ≠ .replan := by
  constructor
  · intro policy events
    exact ⟨run_eq_decisions (fresh policy) events, allowed_le_max policy _, decisions_answer _ _⟩
  · intro batch round ledger hfailed hstarted
    rw [resolve_of_started hfailed hstarted]
    exact ⟨nofun, nofun⟩

/-- A batch that failed, with an error the model may mend. -/
def failedBatch (effectState : ToolEffectState) : ToolBatchResult where
  results := []
  outcome := .failed
  error := some (.lit "tool_input_invalid")
  effectState := effectState

/-- A round that leaves room for another attempt. -/
def openRound : ToolRound where
  requestedNames := []
  planningAvailable := true
  inputRecoveryEpoch := 0
  remainingModelRounds := 3
  roundNumber := 1
  cancellationRequested := false

/-- A batch whose effect is not known is not tried again; one without an effect would be. -/
theorem decisions_survive_restarts_unknown :
    (resolveToolRecovery (failedBatch .notStarted) openRound (.fresh .standard)).1.disposition =
      .retryModel ∧
    (resolveToolRecovery (failedBatch .unknown) openRound (.fresh .standard)).1.disposition ≠
      .retryModel ∧
    (resolveToolRecovery (failedBatch .unknown) openRound (.fresh .standard)).1.disposition ≠
      .replan := by
  refine ⟨by decide +kernel, ?_⟩
  exact decisions_survive_restarts.2 (failedBatch .unknown) openRound (.fresh .standard) rfl nofun

end Purra.Runtime
