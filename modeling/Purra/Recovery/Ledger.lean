import Purra.Core.Text
import Purra.LongTask.Contracts

/-!
# The recovery ledger

`purra/recovery/policy.py` and `purra/recovery/ledger.py`: a Run asks whether it may recover from a
failure, and the ledger counts the attempts that it has allowed for every cause and scope.  The
counts survive the process in a checkpoint, as rows of texts.

* `RecoveryPolicy` — how many attempts a cause has.
* `RecoveryLedger.decide` — a decision, and the ledger behind it.
* `snapshot`, `restore` — the counts as rows, and back.
* `run_eq_decisions` — **a restart between two decisions does not show.**
* `allowed_le_max` — no cause is allowed more attempts in one scope than its policy has.
-/

namespace Purra.Recovery

/-- `RecoveryAction`. -/
inductive RecoveryAction where
  | retryModel | fallbackProviderMode | replan
  deriving DecidableEq, Repr

/-- `RecoveryAction.value`. -/
def RecoveryAction.value : RecoveryAction → String
  | .retryModel => "retry_model"
  | .fallbackProviderMode => "fallback_provider_mode"
  | .replan => "replan"

/-- `RecoveryCause`. -/
inductive RecoveryCause where
  | providerRequiredToolChoiceUnsupported
  | providerStreamInterrupted
  | malformedToolCallBatch
  | missingRequiredToolCall
  | missingRequiredToolCallReplan
  | unstructuredToolProtocol
  | emptyModelResponse
  | structuredOutputInvalid
  | responseConstraintDeterministic
  | responseConstraintSemantic
  | futureToolStep
  | unauthorizedTool
  | unauthorizedToolReplan
  | toolInputInvalid
  | toolExecutionFailedReplan
  deriving DecidableEq, Repr

namespace RecoveryCause

/-- `RecoveryCause.value`. -/
def value : RecoveryCause → String
  | providerRequiredToolChoiceUnsupported => "provider_required_tool_choice_unsupported"
  | providerStreamInterrupted => "provider_stream_interrupted"
  | malformedToolCallBatch => "malformed_tool_call_batch"
  | missingRequiredToolCall => "missing_required_tool_call"
  | missingRequiredToolCallReplan => "missing_required_tool_call_replan"
  | unstructuredToolProtocol => "unstructured_tool_protocol"
  | emptyModelResponse => "empty_model_response"
  | structuredOutputInvalid => "structured_output_invalid"
  | responseConstraintDeterministic => "response_constraint_deterministic"
  | responseConstraintSemantic => "response_constraint_semantic"
  | futureToolStep => "future_tool_step"
  | unauthorizedTool => "unauthorized_tool"
  | unauthorizedToolReplan => "unauthorized_tool_replan"
  | toolInputInvalid => "tool_input_invalid"
  | toolExecutionFailedReplan => "tool_execution_failed_replan"

/-- The causes, in the order of the source. -/
def all : List RecoveryCause := [
  providerRequiredToolChoiceUnsupported, providerStreamInterrupted, malformedToolCallBatch,
  missingRequiredToolCall, missingRequiredToolCallReplan, unstructuredToolProtocol,
  emptyModelResponse, structuredOutputInvalid, responseConstraintDeterministic,
  responseConstraintSemantic, futureToolStep, unauthorizedTool, unauthorizedToolReplan,
  toolInputInvalid, toolExecutionFailedReplan]

/-- `RecoveryCause(text)`. -/
def of (text : String) : Except PyError RecoveryCause :=
  match all.find? (·.value = text) with
  | some cause => .ok cause
  | none => .error (.valueError (text ++ " is not a valid RecoveryCause"))

theorem of_value (cause : RecoveryCause) : of cause.value = .ok cause := by
  cases cause <;> decide +kernel

end RecoveryCause

/-- `RecoveryReason`. -/
inductive RecoveryReason where
  | allowed | attemptBudgetExhausted | causeNotRetryable | policyDisabled | requestCanceled
  | roundBudgetExhausted | sideEffectCommitted | sideEffectStateUnknown | visibleOutputAlreadyEmitted
  deriving DecidableEq, Repr

/-- `RecoveryReason.value`. -/
def RecoveryReason.value : RecoveryReason → String
  | .allowed => "allowed"
  | .attemptBudgetExhausted => "attempt_budget_exhausted"
  | .causeNotRetryable => "cause_not_retryable"
  | .policyDisabled => "policy_disabled"
  | .requestCanceled => "request_canceled"
  | .roundBudgetExhausted => "round_budget_exhausted"
  | .sideEffectCommitted => "side_effect_committed"
  | .sideEffectStateUnknown => "side_effect_state_unknown"
  | .visibleOutputAlreadyEmitted => "visible_output_already_emitted"

/-- `RecoveryRequest`. -/
structure RecoveryRequest where
  cause : RecoveryCause
  action : RecoveryAction
  scope : RequiredText
  remainingModelRounds : Nat := 0
  minimumRemainingRounds : Nat := 1
  retryable : Bool := true
  cancellationRequested : Bool := false
  visibleOutputEmitted : Bool := false
  effectState : RecoveryEffectState := .notStarted
  mayRepeatSideEffect : Bool := false
  deriving DecidableEq

/-- `RecoveryDecision`. -/
structure RecoveryDecision where
  cause : RecoveryCause
  action : RecoveryAction
  scope : RequiredText
  allowed : Bool
  reasonCode : RecoveryReason
  attempt : Nat
  maxAttempts : Nat
  remainingModelRounds : Nat
  minimumRemainingRounds : Nat
  effectState : RecoveryEffectState
  mayRepeatSideEffect : Bool
  deriving DecidableEq

/-- `to_trace_details`. -/
def RecoveryDecision.toTraceDetails (decision : RecoveryDecision) : Json.Object := [
  ("cause", .str decision.cause.value),
  ("action", .str decision.action.value),
  ("scope", .str decision.scope.text),
  ("allowed", .bool decision.allowed),
  ("reasonCode", .str decision.reasonCode.value),
  ("attempt", .int decision.attempt),
  ("maxAttempts", .int decision.maxAttempts),
  ("remainingModelRounds", .int decision.remainingModelRounds),
  ("minimumRemainingRounds", .int decision.minimumRemainingRounds),
  ("effectState", .str decision.effectState.value),
  ("mayRepeatSideEffect", .bool decision.mayRepeatSideEffect)]

/-! ## The policy -/

/-- `RecoveryPolicy`. -/
structure RecoveryPolicy where
  attemptLimits : Dict RecoveryCause Nat

namespace RecoveryPolicy

/-- The constructor. -/
def of (limits : List (RecoveryCause × Int)) : Except PyError RecoveryPolicy :=
  if limits.any (·.2 < 0) then .error (.valueError "recovery max attempts must be non-negative")
  else .ok ⟨Dict.empty.extend (limits.map fun row => (row.1, row.2.toNat))⟩

/-- `_STANDARD_LIMITS`. -/
def standard : RecoveryPolicy where
  attemptLimits := Dict.empty.extend [
    (.providerRequiredToolChoiceUnsupported, 1), (.providerStreamInterrupted, 1),
    (.malformedToolCallBatch, 1), (.missingRequiredToolCall, 1),
    (.missingRequiredToolCallReplan, 1), (.unstructuredToolProtocol, 1), (.emptyModelResponse, 2),
    (.structuredOutputInvalid, 0), (.responseConstraintDeterministic, 1),
    (.responseConstraintSemantic, 1), (.futureToolStep, 1), (.unauthorizedTool, 1),
    (.unauthorizedToolReplan, 1), (.toolInputInvalid, 1), (.toolExecutionFailedReplan, 1)]

/-- `max_attempts`. -/
def maxAttempts (policy : RecoveryPolicy) (cause : RecoveryCause) : Nat :=
  (policy.attemptLimits.get? cause).getD 0

end RecoveryPolicy

/-! ## The ledger -/

/-- `RecoveryLedger`. -/
structure RecoveryLedger where
  policy : RecoveryPolicy
  attempts : Dict (RecoveryCause × String) Nat

/-- A row of a snapshot. -/
abbrev AttemptRow : Type := String × String × Int

/-- The order of tuples. -/
def AttemptRow.le (a b : AttemptRow) : Prop :=
  a.1 < b.1 ∨ a.1 = b.1 ∧ (a.2.1 < b.2.1 ∨ a.2.1 = b.2.1 ∧ a.2.2 ≤ b.2.2)

instance : DecidableRel AttemptRow.le := fun _ _ => inferInstanceAs (Decidable (_ ∨ _))

namespace RecoveryLedger

/-- The constructor. -/
def fresh (policy : RecoveryPolicy) : RecoveryLedger := ⟨policy, Dict.empty⟩

/-- The attempts that have been used. -/
def used (ledger : RecoveryLedger) (cause : RecoveryCause) (scope : String) : Nat :=
  (ledger.attempts.get? (cause, scope)).getD 0

/-- The row of a count. -/
def row (entry : (RecoveryCause × String) × Nat) : AttemptRow :=
  (entry.1.1.value, entry.1.2, entry.2)

/-- `snapshot`. -/
def snapshot (ledger : RecoveryLedger) : List AttemptRow :=
  (ledger.attempts.entries.map row).insertionSort AttemptRow.le

/-- The count of a row. -/
def ofRow (row : AttemptRow) : Except PyError ((RecoveryCause × String) × Nat) := do
  let cause ← RecoveryCause.of row.1
  if row.2.2 < 0 then .error (.valueError "recovery attempt count must be non-negative")
  else .ok ((cause, row.2.1), row.2.2.toNat)

/-- `restore`. -/
def restore (ledger : RecoveryLedger) (snapshot : List AttemptRow) :
    Except PyError RecoveryLedger := do
  if ledger.attempts.entries ≠ [] then
    .error (.runtimeError "recovery ledger has already been used")
  else do
    let restored ← snapshot.mapM ofRow
    return { ledger with attempts := Dict.empty.extend restored }

/-- `_denial_reason`. -/
def denialReason (request : RecoveryRequest) (used maxAttempts : Nat) : Option RecoveryReason :=
  if request.cancellationRequested then some .requestCanceled
  else if request.retryable = false then some .causeNotRetryable
  else if request.visibleOutputEmitted then some .visibleOutputAlreadyEmitted
  else if request.mayRepeatSideEffect = true ∧ request.effectState = .committed then
    some .sideEffectCommitted
  else if request.mayRepeatSideEffect = true ∧ request.effectState = .unknown then
    some .sideEffectStateUnknown
  else if request.remainingModelRounds < request.minimumRemainingRounds then
    some .roundBudgetExhausted
  else if maxAttempts = 0 then some .policyDisabled
  else if maxAttempts ≤ used then some .attemptBudgetExhausted
  else none

/-- The decision that a request gets. -/
def decisionFor (request : RecoveryRequest) (used maxAttempts : Nat) : RecoveryDecision :=
  let reason := denialReason request used maxAttempts
  { cause := request.cause
    action := request.action
    scope := request.scope
    allowed := reason.isNone
    reasonCode := reason.getD .allowed
    attempt := if reason.isNone then used + 1 else used
    maxAttempts := maxAttempts
    remainingModelRounds := request.remainingModelRounds
    minimumRemainingRounds := request.minimumRemainingRounds
    effectState := request.effectState
    mayRepeatSideEffect := request.mayRepeatSideEffect }

/-- `decide`. -/
def decide_ (ledger : RecoveryLedger) (request : RecoveryRequest) :
    RecoveryDecision × RecoveryLedger :=
  let decision := decisionFor request (ledger.used request.cause request.scope.text)
    (ledger.policy.maxAttempts request.cause)
  (decision,
    if decision.allowed then
      { ledger with
        attempts := ledger.attempts.set (request.cause, request.scope.text) decision.attempt }
    else ledger)

/-- The decisions of a ledger that is not interrupted. -/
def decisions (ledger : RecoveryLedger) : List RecoveryRequest → List RecoveryDecision
  | [] => []
  | request :: requests =>
    (ledger.decide_ request).1 :: decisions (ledger.decide_ request).2 requests

/-- A fresh ledger of the same policy, with the counts of a snapshot. -/
def restart (ledger : RecoveryLedger) : Except PyError RecoveryLedger :=
  (fresh ledger.policy).restore ledger.snapshot

/-- A request, or a restart of the process. -/
inductive Event where
  | request (request : RecoveryRequest)
  | restart

/-- The requests among some events. -/
def requestsOf (events : List Event) : List RecoveryRequest :=
  events.filterMap fun event => match event with
    | .request request => some request
    | .restart => none

/-- The decisions of a ledger that is restarted. -/
def run (ledger : RecoveryLedger) : List Event → Except PyError (List RecoveryDecision)
  | [] => .ok []
  | .request request :: events =>
    (run (ledger.decide_ request).2 events).map ((ledger.decide_ request).1 :: ·)
  | .restart :: events => ledger.restart >>= fun restarted => run restarted events

/-! ## Restarts -/

/-- The same policy and the same counts. -/
structure Same (ledger ledger' : RecoveryLedger) : Prop where
  policy : ledger.policy = ledger'.policy
  attempts : ∀ key, ledger.attempts.get? key = ledger'.attempts.get? key

theorem ofRow_row (entry : (RecoveryCause × String) × Nat) : ofRow (row entry) = .ok entry := by
  obtain ⟨⟨cause, scope⟩, n⟩ := entry
  unfold ofRow row
  rw [RecoveryCause.of_value, ok_bind]
  have hpos : ¬ ((n : Int) < 0) := by omega
  rw [if_neg hpos]
  rfl

/-- A fresh ledger takes the counts of a snapshot back. -/
theorem restart_same (ledger : RecoveryLedger) :
    ∃ restarted, ledger.restart = .ok restarted ∧ Same ledger restarted := by
  have hsnapshot : ledger.snapshot =
      (ledger.attempts.entries.insertionSort fun a b => AttemptRow.le (row a) (row b)).map row :=
    (List.map_insertionSort (fun a b => AttemptRow.le (row a) (row b)) AttemptRow.le row
      ledger.attempts.entries fun _ _ _ _ => Iff.rfl).symm
  have hperm := List.perm_insertionSort (fun a b => AttemptRow.le (row a) (row b))
    ledger.attempts.entries
  generalize ledger.attempts.entries.insertionSort (fun a b => AttemptRow.le (row a) (row b)) =
    entries at hsnapshot hperm
  refine ⟨⟨ledger.policy, Dict.empty.extend entries⟩, ?_, rfl, ?_⟩
  · unfold restart restore
    rw [hsnapshot, mapM_map_eq ofRow_row]
    rfl
  · intro key
    have hnodup : (entries.map Prod.fst).Nodup :=
      (hperm.map Prod.fst).nodup_iff.2 ledger.attempts.nodup
    refine Option.ext fun n => ?_
    show _ ↔ (Dict.empty.extend entries).get? key = some n
    rw [Dict.get?_extend_eq_some hnodup, hperm.mem_iff, Dict.mem_entries_iff]
    refine ⟨Or.inl, ?_⟩
    rintro (h | ⟨-, h⟩)
    · exact h
    · cases h

/-- Ledgers with the same counts decide alike. -/
theorem Same.decide {ledger ledger' : RecoveryLedger} (h : Same ledger ledger')
    (request : RecoveryRequest) :
    (ledger.decide_ request).1 = (ledger'.decide_ request).1 ∧
      Same (ledger.decide_ request).2 (ledger'.decide_ request).2 := by
  have hused : ledger.used request.cause request.scope.text =
      ledger'.used request.cause request.scope.text := by
    rw [used, used, h.attempts]
  unfold decide_
  dsimp only
  rw [hused, h.policy]
  refine ⟨rfl, ?_⟩
  split
  · refine ⟨rfl, fun key => ?_⟩
    show (ledger.attempts.set _ _).get? key = (ledger'.attempts.set _ _).get? key
    rw [Dict.get?_set, Dict.get?_set, h.attempts]
  · exact h

theorem Same.decisions {ledger ledger' : RecoveryLedger} (h : Same ledger ledger')
    (requests : List RecoveryRequest) : ledger.decisions requests = ledger'.decisions requests := by
  induction requests generalizing ledger ledger' with
  | nil => rfl
  | cons request requests ih =>
    obtain ⟨hdecision, hsame⟩ := h.decide request
    rw [RecoveryLedger.decisions, RecoveryLedger.decisions, hdecision, ih hsame]

/-- **A restart between two decisions does not show.** -/
theorem run_eq_decisions (ledger : RecoveryLedger) (events : List Event) :
    ledger.run events = .ok (ledger.decisions (requestsOf events)) := by
  induction events generalizing ledger with
  | nil => rfl
  | cons event events ih =>
    cases event with
    | request request =>
      rw [run, ih]
      rfl
    | restart =>
      obtain ⟨restarted, hrestart, hsame⟩ := ledger.restart_same
      rw [run, hrestart, ok_bind, ih, ← hsame.decisions]
      rfl

/-! ## What is allowed -/

/-- The attempts that have been allowed for a cause in a scope. -/
def allowedCount (cause : RecoveryCause) (scope : String) (decisions : List RecoveryDecision) : Nat :=
  decisions.countP fun decision =>
    decision.allowed ∧ decision.cause = cause ∧ decision.scope.text = scope

/-- Nothing stood against a request. -/
structure Permitted (request : RecoveryRequest) : Prop where
  running : request.cancellationRequested = false
  retryable : request.retryable = true
  unseen : request.visibleOutputEmitted = false
  repeatable : request.mayRepeatSideEffect = true → request.effectState = .notStarted

/-- What lets a request through, beside the attempts that are left. -/
theorem of_not_denied {request : RecoveryRequest} {used maxAttempts : Nat}
    (h : denialReason request used maxAttempts = none) :
    Permitted request ∧ used < maxAttempts := by
  unfold denialReason at h
  split_ifs at h with hcanceled hretryable hvisible hcommitted hunknown hrounds hmax hused
  refine ⟨⟨?_, ?_, ?_, ?_⟩, by omega⟩
  · exact Bool.eq_false_iff.2 hcanceled
  · exact Bool.eq_true_of_not_eq_false hretryable
  · exact Bool.eq_false_iff.2 hvisible
  · intro hrepeat
    cases heffect : request.effectState with
    | notStarted => rfl
    | committed => exact absurd ⟨hrepeat, heffect⟩ hcommitted
    | unknown => exact absurd ⟨hrepeat, heffect⟩ hunknown

theorem of_allowed {request : RecoveryRequest} {used maxAttempts : Nat}
    (h : (decisionFor request used maxAttempts).allowed = true) :
    Permitted request ∧ used < maxAttempts :=
  of_not_denied (Option.isNone_iff_eq_none.1 h)

/-- A decision answers its own request. -/
structure Answers (request : RecoveryRequest) (decision : RecoveryDecision) : Prop where
  cause : decision.cause = request.cause
  action : decision.action = request.action
  scope : decision.scope = request.scope
  permitted : decision.allowed = true → Permitted request

theorem decide_answers (ledger : RecoveryLedger) (request : RecoveryRequest) :
    Answers request (ledger.decide_ request).1 where
  cause := rfl
  action := rfl
  scope := rfl
  permitted h := (of_allowed h).1

theorem decisions_answer (ledger : RecoveryLedger) (requests : List RecoveryRequest) :
    List.Forall₂ Answers requests (ledger.decisions requests) := by
  induction requests generalizing ledger with
  | nil => exact .nil
  | cons request requests ih => exact .cons (ledger.decide_answers request) (ih _)

@[simp] theorem decide_policy (ledger : RecoveryLedger) (request : RecoveryRequest) :
    (ledger.decide_ request).2.policy = ledger.policy := by
  unfold decide_
  dsimp only
  split <;> rfl

/-- What a decision adds to the counts. -/
theorem decide_used (ledger : RecoveryLedger) (request : RecoveryRequest) (cause : RecoveryCause)
    (scope : String) :
    (ledger.decide_ request).2.used cause scope =
      ledger.used cause scope + allowedCount cause scope [(ledger.decide_ request).1] := by
  have hcount : allowedCount cause scope [(ledger.decide_ request).1] =
      if (ledger.decide_ request).1.allowed = true ∧ request.cause = cause ∧
        request.scope.text = scope then 1 else 0 := by
    unfold allowedCount
    rw [List.countP_singleton]
    simp only [decide_eq_true_eq]
    rfl
  rw [hcount]
  unfold decide_
  dsimp only
  generalize hdecision : decisionFor request (ledger.used request.cause request.scope.text)
    (ledger.policy.maxAttempts request.cause) = decision
  by_cases hallowed : decision.allowed = true
  · have hattempt : decision.attempt = ledger.used request.cause request.scope.text + 1 := by
      subst hdecision
      exact if_pos hallowed
    rw [if_pos hallowed]
    by_cases hkey : request.cause = cause ∧ request.scope.text = scope
    · obtain ⟨rfl, rfl⟩ := hkey
      rw [if_pos ⟨hallowed, rfl, rfl⟩, used, Dict.get?_set, if_pos rfl, hattempt]
      rfl
    · rw [if_neg fun h => hkey h.2, used, Dict.get?_set, if_neg]
      · rfl
      · intro h
        cases h
        exact hkey ⟨rfl, rfl⟩
  · rw [if_neg hallowed, if_neg fun h => hallowed h.1]
    rfl

/-- A decision never takes a count past its maximum. -/
theorem decide_used_le (ledger : RecoveryLedger) (request : RecoveryRequest)
    {cause : RecoveryCause} {scope : String}
    (h : ledger.used cause scope ≤ ledger.policy.maxAttempts cause) :
    (ledger.decide_ request).2.used cause scope ≤ ledger.policy.maxAttempts cause := by
  rw [decide_used]
  unfold allowedCount
  rw [List.countP_singleton]
  split
  · rename_i hcount
    obtain ⟨hallowed, rfl, rfl⟩ := of_decide_eq_true hcount
    exact (of_allowed hallowed).2
  · exact h

/-- **The attempts that have been used, and those that a run is allowed, stay within the policy.** -/
theorem used_add_allowed_le (ledger : RecoveryLedger) (requests : List RecoveryRequest)
    {cause : RecoveryCause} {scope : String}
    (h : ledger.used cause scope ≤ ledger.policy.maxAttempts cause) :
    ledger.used cause scope + allowedCount cause scope (ledger.decisions requests) ≤
      ledger.policy.maxAttempts cause := by
  induction requests generalizing ledger with
  | nil => exact h
  | cons request requests ih =>
    have hnext := ih (ledger.decide_ request).2 (by
      rw [decide_policy]
      exact ledger.decide_used_le request h)
    have hsplit : allowedCount cause scope (ledger.decisions (request :: requests)) =
        allowedCount cause scope [(ledger.decide_ request).1] +
          allowedCount cause scope ((ledger.decide_ request).2.decisions requests) := by
      unfold allowedCount
      rw [← List.countP_append]
      rfl
    rw [decide_policy, decide_used] at hnext
    omega

/-- A fresh ledger allows no cause more attempts in a scope than its policy has. -/
theorem allowed_le_max (policy : RecoveryPolicy) (requests : List RecoveryRequest)
    (cause : RecoveryCause) (scope : String) :
    allowedCount cause scope ((fresh policy).decisions requests) ≤ policy.maxAttempts cause := by
  have hused : (fresh policy).used cause scope = 0 := rfl
  have hle := (fresh policy).used_add_allowed_le requests
    (show (fresh policy).used cause scope ≤ policy.maxAttempts cause from Nat.zero_le _)
  rw [hused, Nat.zero_add] at hle
  exact hle

end RecoveryLedger

end Purra.Recovery
