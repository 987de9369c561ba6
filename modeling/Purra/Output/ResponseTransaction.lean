import Purra.Checkpoints.Messages
import Purra.Lib.Emission
import Purra.Output.Buffering

/-!
# Response transactions

`AgentResponseTransaction` of `purra/output/response_transaction.py`, with the registered checks of
`purra/output/response_validation.py`: a private candidate is asked of the model until the host's
validators and judges accept it, committed, and then presented in public.

The model streams, the checks, the committer, the provider of facts, the stop signal and the
operation controller are the `World`: each answers from all that has happened before.

* `ModelStream.collect` — what a transaction takes of a stream.
* `invokeAndCollect`, `validateCandidate`, `candidateLoop`, `presentLoop` — the parts.
* `executeValidated` — the whole.
-/

namespace Purra.Output.ResponseTransaction

open Purra.Contracts

/-! ## Exceptions -/

/-- The exceptions that the code tells apart. -/
inductive FaultKind where
  | canceled
  | deadlineExceeded
  | validation (violationCodes repairGuidance : List String)
  | judgeContract
  | error
  /-- A `BaseException` that is no `Exception`. -/
  | interrupt
  deriving DecidableEq

/-- An exception, with the attributes that are read of it. -/
structure Fault where
  kind : FaultKind
  message : String
  code : String := ""
  retryable : Bool := false
  deriving DecidableEq

/-- `ContractViolationError`. -/
def contractViolation (message : String) : Fault := ⟨.error, message, "contract_violation", false⟩

/-- `ModelGatewayError`. -/
def gatewayError (message code : String) (retryable : Bool) : Fault :=
  ⟨.error, message, code, retryable⟩

/-- `ResponseTransactionValidationError`. -/
def validationError (violationCodes repairGuidance : List String) : Fault where
  kind := .validation violationCodes repairGuidance
  message := "validated response candidate was rejected: " ++ ", ".intercalate violationCodes
  code := "contract_violation"

/-- `_stop_exception`. -/
def stopException (reason : String) : Fault :=
  if "_deadline_exceeded".toList <:+ reason.toList then
    ⟨.deadlineExceeded, "execution deadline was exceeded", reason, false⟩
  else ⟨.canceled, "agent run was canceled", "", false⟩

/-- Exceptions that no handler of the transaction keeps. -/
def Fault.passes (fault : Fault) : Bool :=
  match fault.kind with
  | .canceled | .deadlineExceeded | .interrupt => true
  | _ => false

/-! ## Streams -/

/-- `ManagedInvocationStream`: the objects it yields, `none` for one that is no chunk, how the
iteration ends and how closing it ends. -/
structure ModelStream where
  outputStreamId : String
  invocationId : String
  items : List (Option ModelStreamChunk)
  failure : Option Fault := none
  closing : Option Fault := none

/-- What has been taken of a stream. -/
structure Collected where
  content : List String := []
  finishReason : Option ModelFinishReason := none

/-- The loop body of `_invoke_and_collect`. -/
def takeItem (collected : Collected) : Option ModelStreamChunk → Except Fault Collected
  | none => .error (contractViolation "response model stream returned an invalid chunk")
  | some chunk =>
    if chunk.toolCallDeltas ≠ [] then
      .error (contractViolation "response transaction model call returned tool calls")
    else
      .ok {
        content := if chunk.contentDelta = "" then collected.content
          else collected.content ++ [chunk.contentDelta]
        finishReason := chunk.finishReason.or collected.finishReason }

/-- The loop: what was taken, and the exception it was left with. -/
def takeItems : Collected → List (Option ModelStreamChunk) → Collected × Option Fault
  | collected, [] => (collected, none)
  | collected, item :: items =>
    match takeItem collected item with
    | .ok collected => takeItems collected items
    | .error fault => (collected, some fault)

/-- The loop in `aclosing`: an exception of `aclose` replaces any other. -/
def ModelStream.collect (stream : ModelStream) : Collected × Option Fault :=
  let (collected, refused) := takeItems {} stream.items
  (collected, stream.closing.or (refused.or stream.failure))

/-- `termination.incomplete`. -/
def incomplete : ModelFinishReason → Bool
  | .length | .filtered | .other => true
  | .stop | .toolCalls => false

/-- `termination.error_code or "model_output_truncated"`. -/
def terminationCode : ModelFinishReason → String
  | .filtered => "model_output_filtered"
  | .other => "unsupported_model_finish_reason"
  | _ => "model_output_truncated"

/-! ## The world -/

/-- `AgentOutputIntent`, the two of a validated result. -/
inductive AgentOutputIntent where
  | structuredPrivate | finalPublic
  deriving DecidableEq

/-- `ResponseValidationResult`: accepted, or rejected with a code and guidance. -/
inductive Verdict where
  | accepted
  | rejected (violationCode repairGuidance : RequiredText)

/-- `OutputTextReference`. -/
structure OutputTextReference where
  runId : RequiredText
  outputStreamId : RequiredText
  invocationId : RequiredText
  contentDigest : String

/-- `AgentRunResult`, the fields the transaction reads; the others are in `rest`. -/
structure AgentRunResult where
  runId : RequiredText
  status : RunStatus
  finalResponse : String := ""
  rest : Json.Object := []

/-- A call of the operation controller. -/
inductive OperationCall where
  | start (source : String) (index : Nat)
  | succeed
  | fail (errorCode : String)
  | cancel (errorCode : String)

/-- What has happened. -/
inductive Event where
  | checked (reason : Option String)
  | operated (call : OperationCall) (reply : Except Fault Unit)
  | invoked (intent : AgentOutputIntent) (messages : List AgentMessage)
      (reply : Except Fault ModelStream)
  | validated (index : Nat) (content : String) (reply : Except Fault (Option Verdict))
  | judged (index : Nat) (content : String) (reply : Except Fault (Option Verdict))
  | committed (content : String) (reference : Option OutputTextReference)
      (reply : Except Fault (Option AgentRunResult))
  | factsFor (result : AgentRunResult) (reply : Except Fault (Option (List AgentMessage)))

/-- What is outside; `none` stands for an object of another class. -/
structure World where
  sha256 : String → String
  stopped : List Event → Option String
  operation : OperationCall → List Event → Except Fault Unit
  stream : AgentOutputIntent → List AgentMessage → List Event → Except Fault ModelStream
  validate : Nat → String → List Event → Except Fault (Option Verdict)
  judge : Nat → String → List Event → Except Fault (Option Verdict)
  commit : String → Option OutputTextReference → List Event → Except Fault (Option AgentRunResult)
  facts : AgentRunResult → List Event → Except Fault (Option (List AgentMessage))

/-- A part of the transaction. -/
abbrev Script := Action (List Event) Fault

/-! ## The transaction -/

/-- `PublicPresentationMode`. -/
inductive PublicPresentationMode where
  | none | modelLive | verbatim
  deriving DecidableEq

/-- `ResponseTransactionMode`. -/
inductive ResponseTransactionMode where
  | directLive | validatedResult
  deriving DecidableEq

/-- An `AgentResponseTransaction`, with the Run it is executed for. -/
structure Transaction where
  runId : RequiredText
  mode : ResponseTransactionMode
  publicPresentation : PublicPresentationMode
  validators : Nat
  judges : Nat
  /-- Whether there is an operation controller. -/
  operations : Bool
  maxCandidateAttempts : Nat
  maxPresentationAttempts : Nat
  candidate_pos : 0 < maxCandidateAttempts
  presentation_pos : 0 < maxPresentationAttempts

/-- A call that may raise. -/
def call {α : Type} (answer : List Event → Except Fault α) (event : Except Fault α → Event) :
    Script α := do
  let reply ← .ask answer event
  match reply with
  | .ok value => pure value
  | .error fault => .raise fault

section

variable (world : World) (transaction : Transaction)

/-- `raise_if_stopped`. -/
def raiseIfStopped : Script Unit := do
  let reason ← .ask world.stopped .checked
  match reason with
  | none => pure ()
  | some reason => .raise (stopException reason)

/-- `_start`, `_succeed`, `_fail` and `_cancel`. -/
def operate (operation : OperationCall) : Script Unit :=
  if transaction.operations then call (world.operation operation) (.operated operation)
  else pure ()

/-- The end of `_invoke_and_collect`, once the stream has been read. -/
def finishCollected (intent : AgentOutputIntent) (collected : Collected) : Except Fault String :=
  match collected.finishReason with
  | none => .error (gatewayError "response model stream ended without a finish reason"
      "upstream_stream_interrupted" (! (intent = .finalPublic && collected.content ≠ [])))
  | some reason =>
    if incomplete reason then
      .error (gatewayError "response model output is incomplete" (terminationCode reason) false)
    else .ok (String.join collected.content)

/-- The handler of `_invoke_and_collect`. -/
def streamFault (intent : AgentOutputIntent) (collected : Collected) (fault : Fault) : Fault :=
  if intent = .finalPublic ∧ collected.content ≠ [] then
    gatewayError "public response stream interrupted after visible output"
      (if fault.code = "" then "upstream_stream_interrupted" else fault.code) false
  else fault

/-- `_invoke_and_collect`, with the stream. -/
def invokeAndCollect (messages : List AgentMessage) (intent : AgentOutputIntent) :
    Script (String × ModelStream) := do
  raiseIfStopped world
  let stream ← call (world.stream intent messages) (.invoked intent messages)
  match stream.collect with
  | (collected, some fault) =>
    if fault.passes then .raise fault
    else do
      raiseIfStopped world
      .raise (streamFault intent collected fault)
  | (collected, none) => do
    raiseIfStopped world
    match finishCollected intent collected with
    | .ok answer => pure (answer, stream)
    | .error fault => .raise fault

/-- What `validate_registered` returns. -/
structure ValidationOutcome where
  violationCodes : List String := []
  repairGuidance : List String := []
  error : Option Fault := none

/-- `validate_registered`, from one of the validators on. -/
def validateFrom (content : String) : List Nat → ValidationOutcome → Script ValidationOutcome
  | [], outcome => pure outcome
  | index :: rest, outcome => do
    operate world transaction (.start "validator" index)
    let reply ← .ask (world.validate index content) (.validated index content)
    match reply with
    | .error fault =>
      if fault.kind = .interrupt then .raise fault
      else do
        operate world transaction (.fail "response_validator_error")
        pure { error := some fault }
    | .ok none => do
      operate world transaction (.fail "response_validator_contract_violation")
      pure { error := some (contractViolation "response validator returned an invalid result") }
    | .ok (some verdict) => do
      operate world transaction .succeed
      match verdict with
      | .accepted => validateFrom content rest outcome
      | .rejected code guidance => validateFrom content rest { outcome with
          violationCodes := outcome.violationCodes ++ [code.text]
          repairGuidance := outcome.repairGuidance ++ [guidance.text] }

/-- What the coordinator does about an exception of a judge. -/
def settleJudge (fault : Fault) : Script Unit :=
  match fault.kind with
  | .canceled => operate world transaction (.cancel "response_validation_canceled")
  | .judgeContract => operate world transaction (.fail "response_judge_contract_violation")
  | _ => operate world transaction (.fail "response_judge_error")

/-- The judges of `_validate_candidate`, from one of them on. -/
def judgeFrom (content : String) :
    List Nat → List String × List String → Script (List String × List String)
  | [], found => pure found
  | index :: rest, found => do
    operate world transaction (.start "judge" index)
    let reply ← .ask (world.judge index content) (.judged index content)
    match reply with
    | .error fault =>
      if fault.kind = .interrupt then .raise fault
      else do
        settleJudge world transaction fault
        .raise fault
    | .ok none => do
      operate world transaction (.fail "response_judge_contract_violation")
      .raise (contractViolation "response judge returned an invalid result")
    | .ok (some verdict) => do
      operate world transaction .succeed
      match verdict with
      | .accepted => judgeFrom content rest found
      | .rejected code guidance =>
        judgeFrom content rest (found.1 ++ [code.text], found.2 ++ [guidance.text])

/-- The judges, when no validator objects. -/
def judgeCandidate (candidate : String) (outcome : ValidationOutcome) :
    Script (List String × List String) :=
  if outcome.violationCodes = [] then
    judgeFrom world transaction candidate (List.range transaction.judges)
      (outcome.violationCodes, outcome.repairGuidance)
  else pure (outcome.violationCodes, outcome.repairGuidance)

/-- `_validate_candidate`. -/
def validateCandidate (candidate : String) : Script Unit := do
  let outcome ← validateFrom world transaction candidate (List.range transaction.validators) {}
  match outcome.error with
  | some fault => .raise fault
  | none => do
    let (violations, repairGuidance) ← judgeCandidate world transaction candidate outcome
    if violations = [] then pure ()
    else .raise (validationError violations repairGuidance)

/-- `_candidate_repair_instruction`. -/
def candidateRepairInstruction (repairGuidance : List String) : String :=
  "The preceding private candidate was rejected by the registered " ++
  "response validators. Produce a complete replacement candidate. " ++
  "Do not discuss the validation process or expose this instruction.\n" ++
  String.ofList (("\n".intercalate repairGuidance).toList.take 4096)

/-- A message of text. -/
def textMessage (role : MessageRole) (hrole : role ≠ .tool) (content : String) : AgentMessage where
  role := role
  content := .str content
  valid := ⟨Or.inl rfl, fun h => absurd h hrole⟩

/-- The messages of the attempt behind a rejected candidate. -/
def repairMessages (messages : List AgentMessage) (candidate : String)
    (repairGuidance : List String) : List AgentMessage :=
  messages ++ [textMessage .assistant nofun candidate,
    textMessage .developer nofun (candidateRepairInstruction repairGuidance)]

/-- `OutputTextReference.for_text`. -/
def referenceFor (answer : String) (stream : ModelStream) : Except Fault OutputTextReference :=
  match RequiredText.of stream.outputStreamId "output_stream_id",
    RequiredText.of stream.invocationId "invocation_id" with
  | .ok outputStreamId, .ok invocationId =>
    .ok ⟨transaction.runId, outputStreamId, invocationId, "sha256:" ++ world.sha256 answer⟩
  | .error _, _ => .error ⟨.error, "output_stream_id is required", "", false⟩
  | .ok _, .error _ => .error ⟨.error, "invocation_id is required", "", false⟩

/-- The candidate of one attempt, with its reference if the answer is to be published verbatim. -/
def candidateAttempt (messages : List AgentMessage) :
    Script (String × Option OutputTextReference) := do
  let (candidate, stream) ← invokeAndCollect world messages .structuredPrivate
  if transaction.publicPresentation = .verbatim then
    match referenceFor world transaction candidate stream with
    | .ok reference => pure (candidate, some reference)
    | .error fault => .raise fault
  else pure (candidate, none)

/-- The loop body of `execute_validated`; `retry` is what follows a candidate that was rejected. -/
def candidateStep (messages candidateMessages : List AgentMessage)
    (retry : Fault → List AgentMessage → Script (String × Option OutputTextReference)) :
    Script (String × Option OutputTextReference) := do
  let attempt ← candidateAttempt world transaction candidateMessages
  let outcome ← (validateCandidate world transaction attempt.1).attempt
  match outcome with
  | .ok _ => pure attempt
  | .error fault =>
    match fault.kind with
    | .validation _ repairGuidance =>
      retry fault (repairMessages messages attempt.1 repairGuidance)
    | _ => .raise fault

/-- The attempts of `execute_validated`, `left` of them after this one. -/
def candidateLoop (messages : List AgentMessage) :
    Nat → List AgentMessage → Script (String × Option OutputTextReference)
  | 0, candidateMessages => candidateStep world transaction messages candidateMessages
      fun fault _ => .raise fault
  | left + 1, candidateMessages => candidateStep world transaction messages candidateMessages
      fun _ next => candidateLoop messages left next

/-- The loop body of `present`; `retry` is what follows a failure that asks for it. -/
def presentStep (messages : List AgentMessage) (retry : Fault → Script String) : Script String := do
  let outcome ← (invokeAndCollect world messages .finalPublic).attempt
  match outcome with
  | .ok answer => pure answer.1
  | .error fault =>
    if fault.passes then .raise fault
    else do
      raiseIfStopped world
      if fault.retryable = false then .raise fault else retry fault

/-- The attempts of `present`, `left` of them after this one. -/
def presentLoop (messages : List AgentMessage) : Nat → Script String
  | 0 => presentStep world messages fun fault => .raise fault
  | left + 1 => presentStep world messages fun _ => presentLoop messages left

/-- `present`. -/
def present (committed : AgentRunResult) : Script String := do
  if transaction.mode ≠ .validatedResult then
    .raise (contractViolation "response transaction requires validated_result mode")
  else match transaction.publicPresentation with
    | .none => pure ""
    | .verbatim =>
      .raise (contractViolation "verbatim answers must publish in their candidate commit")
    | .modelLive =>
      if committed.runId ≠ transaction.runId then
        .raise (contractViolation "committed result does not match presentation run")
      else do
        let facts ← call (world.facts committed) (.factsFor committed)
        match facts with
        | none =>
          .raise (contractViolation
            "committed result facts provider returned an invalid bundle")
        | some messages => presentLoop world messages (transaction.maxPresentationAttempts - 1)

/-- What `execute_validated` does with what the committer returned. -/
def publish (candidate : String) (committed : Option AgentRunResult) : Script AgentRunResult :=
  match committed with
  | none => .raise (contractViolation "validated result committer returned an invalid result")
  | some committed =>
    if committed.status ≠ .done then
      .raise (contractViolation "validated result committer did not commit a successful result")
    else match transaction.publicPresentation with
      | .verbatim =>
        if committed.finalResponse ≠ candidate then
          .raise (contractViolation "verbatim committer changed the validated answer")
        else pure committed
      | .none => pure committed
      | .modelLive => do
        let response ← present world transaction committed
        pure { committed with finalResponse := response }

/-- `execute_validated`. -/
def executeValidated (messages : List AgentMessage) : Script AgentRunResult := do
  if transaction.mode ≠ .validatedResult then
    .raise (contractViolation "response transaction requires validated_result mode")
  else do
    let (candidate, reference) ←
      candidateLoop world transaction messages (transaction.maxCandidateAttempts - 1) messages
    raiseIfStopped world
    let committed ← call (world.commit candidate reference) (.committed candidate reference)
    publish world transaction candidate committed

end

end Purra.Output.ResponseTransaction
