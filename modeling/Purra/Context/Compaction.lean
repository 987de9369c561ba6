import Purra.Context.Trimming

/-!
# Default compaction of a conversation

What the context compression coordinator does without an application hook
(`purra/context_orchestration/compaction.py`): it trims the conversation by turns when that is
required, and then holds the result against the contract it holds a hook's result against — the
privileged instructions and the last message of the caller are still there, nothing was brought
in, and every tool call is followed by its results.

* `validateToolProtocol`, `validateResultContract`, `defaultTrim`, `prepareResult` — the code.
* `privileged_kept`, `nothing_introduced` — what the trimmer keeps of the contract for any input.
* `protocol_abreast` — the tool protocol holds of what stays when no exchange is torn.
* `prepareResult_accepted` — **the default result is accepted, or an overflow is reported**, when
  the last caller message is in reach and no exchange is torn, and only then if no two calls have
  one id.
-/

namespace Purra.Context

open Contracts

variable (py : Builtins)

/-! ## The contract -/

/-- `ContractViolationError` with a message alone. -/
def violation (message : String) : PyError :=
  .contractViolation message "contract_violation" []

/-- `==` on messages. -/
def messageEq (a b : AgentMessage) : Bool :=
  a.role = b.role && Json.pyEq a.content b.content && a.reasoning = b.reasoning &&
    a.toolCalls = b.toolCalls && a.toolCallId = b.toolCallId && a.origin = b.origin &&
    Json.objectEq a.attributes b.attributes && Json.objectEq a.hostMetadata b.hostMetadata &&
    Json.objectEq a.providerData b.providerData

/-- `is` or `==`: rows of one position are the same object. -/
def sameMessage (a b : Row) : Bool := a.2 = b.2 || messageEq a.1 b.1

/-- `message in messages`. -/
def isIn (row : Row) (rows : List Row) : Bool := rows.any (sameMessage row)

/-- `==` on tuples of messages. -/
def sameMessages : List Row → List Row → Bool
  | [], [] => true
  | a :: as, b :: bs => sameMessage a b && sameMessages as bs
  | _, _ => false

/-- A system or developer message. -/
def isPrivileged (message : AgentMessage) : Bool :=
  message.role = .system || message.role = .developer

/-- A user message of the caller. -/
def isCaller (message : AgentMessage) : Bool := message.role = .user && message.origin = .caller

/-- `_last_caller_user_message`. -/
def lastCallerUserMessage (rows : List Row) : Option Row := rows.reverse.find? (isCaller ·.1)

/-- `_conversation_turn_count`. -/
def conversationTurnCount (rows : List Row) : Nat := rows.countP (isCaller ·.1)

/-- The loop body of `_validate_tool_protocol`. -/
def protocolStep (pending : List RequiredText) (message : AgentMessage) :
    Except PyError (List RequiredText) :=
  if pending ≠ [] ∧ message.role ≠ .tool then
    .error (violation "tool calls must be followed by their complete tool results")
  else if message.role = .tool then
    match message.toolCallId with
    | some id =>
      if id ∈ pending then .ok (pending.erase id)
      else .error (violation "context compression produced an orphan tool result")
    | none => .error (violation "context compression produced an orphan tool result")
  else
    let ids := message.toolCalls.map (·.id)
    if ids.Nodup then .ok (pending ++ ids)
    else .error (violation "context compression produced duplicate tool call ids")

/-- `_validate_tool_protocol`. -/
def validateToolProtocol (messages : List AgentMessage) : Except PyError Unit := do
  let pending ← messages.foldlM protocolStep []
  rejectIf (pending ≠ []) (violation "context compression produced tool calls without results")

/-- `_validate_result_contract`, for a result that keeps the immutable fields of the request. -/
def validateResultContract (source candidate : List Row) : Except PyError Unit := do
  let sourcePrivileged := source.filter (isPrivileged ·.1)
  let candidatePrivileged := candidate.filter (isPrivileged ·.1)
  rejectIf (sameMessages candidatePrivileged sourcePrivileged = false)
    (violation "context compression hook changed privileged instructions")
  rejectIf ((lastCallerUserMessage source).any (fun current => !isIn current candidate) = true)
    (violation "context compression hook removed the current user request")
  rejectIf (candidate.any (fun row => !isIn row source && row.1.origin ≠ .hostContext &&
      row.1.origin ≠ .hostToolResult) = true)
    (violation "context compression hook introduced untrusted caller content")
  validateToolProtocol (candidate.map Prod.fst)

/-! ## The default result -/

/-- `ConversationCompactionResult`, as far as the contract and the turn counts go.  Its messages
stand with their positions in the request. -/
structure CompactionResult where
  rows : List Row
  outcome : String
  retainedRawTurnCount : Nat

/-- `_default_trim`. -/
def defaultTrim (messages : List AgentMessage) (availableMessageTokens : Nat)
    (keepRecentMessages : Nat) : Except PyError CompactionResult :=
  let trimmed := trimAgentMessagesByTurn py messages availableMessageTokens
    (some (keepRecentMessages : Int))
  if trimmed.overflowTokens ≠ 0 then
    .error (.contextOverflow "protected messages exceed the default compression budget"
      "protected_messages_exceed_compression_budget"
      [("availableMessageTokens", availableMessageTokens),
        ("estimatedInputTokens", trimmed.tokenEstimate),
        ("overflowTokens", trimmed.overflowTokens)])
  else
    let rows := messages.zipIdx.filter
      (·.2 ∈ selectedIndices py messages availableMessageTokens (some (keepRecentMessages : Int)))
    .ok ⟨rows, "compacted_default_trim", conversationTurnCount rows⟩

/-- `prepare` and `_prepare_result` without a hook, for a conversation of which some tokens are
available; `thresholdReached` is the outcome of the comparison of the pressure ratio. -/
def prepareResult (messages : List AgentMessage) (availableMessageTokens : Nat)
    (thresholdReached : Bool) (keepRecentMessages : Nat) (phase : String) :
    Except PyError CompactionResult := do
  let messageTokens := estimateAgentMessagesTokens py messages
  let compressionRequired := availableMessageTokens < messageTokens || thresholdReached
  let result ←
    if compressionRequired then defaultTrim py messages availableMessageTokens keepRecentMessages
    else .ok ⟨messages.zipIdx, "below_threshold", conversationTurnCount messages.zipIdx⟩
  validateResultContract messages.zipIdx result.rows
  let candidateTokens := estimateAgentMessagesTokens py (result.rows.map Prod.fst)
  if candidateTokens - availableMessageTokens ≠ 0 then
    .error (.contextOverflow "context compression result exceeds the message budget"
      "context_compression_result_exceeds_budget"
      [("availableMessageTokens", availableMessageTokens),
        ("compressedMessageTokens", candidateTokens),
        ("overflowTokens", (candidateTokens - availableMessageTokens : Nat))]
      [("phase", phase), ("strategy", "recent_messages"), ("compressionOutcome", result.outcome)])
  else .ok result

/-! ## The contract, for what stays -/

section
variable (messages : List AgentMessage) (tokenBudget : Int) (maxRecentMessages : Option Int)

omit py in
theorem sameMessages_refl (rows : List Row) : sameMessages rows rows = true := by
  induction rows with
  | nil => rfl
  | cons row rows ih => simp [sameMessages, sameMessage, ih]

omit py in
theorem isIn_of_mem {row : Row} {rows : List Row} (h : row ∈ rows) : isIn row rows = true :=
  List.any_eq_true.2 ⟨row, h, by simp [sameMessage]⟩

/-- **Privileged instructions** stay, in their order. -/
theorem privileged_kept : (stayingRows py messages tokenBudget maxRecentMessages).filter
    (isPrivileged ·.1) = messages.zipIdx.filter (isPrivileged ·.1) := by
  unfold stayingRows
  rw [List.filter_filter]
  refine List.filter_congr ?_
  intro row hrow
  by_cases hprivileged : isPrivileged row.1 = true
  · have hprotected : isProtected row.1 = true := by
      unfold isProtected
      rw [show (row.1.role = .system || row.1.role = .developer) = true from hprivileged]
      rfl
    have hstays : row.2 ∈ selectedIndices py messages tokenBudget maxRecentMessages :=
      (selected_iff hrow).2 (Or.inl hprotected)
    simp [hprivileged, hstays]
  · simp [hprivileged]

/-- **Nothing is brought in.** -/
theorem nothing_introduced {row : Row}
    (h : row ∈ stayingRows py messages tokenBudget maxRecentMessages) :
    isIn row messages.zipIdx = true :=
  isIn_of_mem (List.mem_filter.1 h).1

omit py in
theorem messageEq_caller {a b : AgentMessage} (h : messageEq a b = true)
    (ha : isCaller a = true) : isCaller b = true := by
  simp only [messageEq, isCaller, Bool.and_eq_true, decide_eq_true_eq] at *
  obtain ⟨⟨⟨⟨⟨⟨⟨⟨hrole, -⟩, -⟩, -⟩, -⟩, horigin⟩, -⟩, -⟩, -⟩ := h
  exact ⟨hrole ▸ ha.1, horigin ▸ ha.2⟩

omit py in
theorem isProtected_of_caller {message : AgentMessage} (h : isCaller message = true) :
    isProtected message = false := by
  simp only [isCaller, Bool.and_eq_true, decide_eq_true_eq] at h
  simp [isProtected, h.1, h.2]

omit py in
/-- The last message of the caller is one, and no later one is. -/
theorem lastCallerUserMessage_eq_some {current : Row}
    (h : lastCallerUserMessage messages.zipIdx = some current) :
    current ∈ messages.zipIdx ∧ isCaller current.1 = true ∧
      ∀ row ∈ messages.zipIdx, isCaller row.1 = true → row.2 ≤ current.2 := by
  unfold lastCallerUserMessage at h
  obtain ⟨hcaller, before, after, hsplit, hnone⟩ := List.find?_eq_some_iff_append.1 h
  have hmem : current ∈ messages.zipIdx.reverse := by simp [hsplit]
  have hpositions : (messages.zipIdx.reverse.map Prod.snd).Pairwise (· > ·) := by
    rw [List.map_reverse, List.zipIdx_map_snd, List.pairwise_reverse]
    exact List.pairwise_lt_range'
  have hsorted := List.pairwise_map.1 hpositions
  rw [hsplit, List.pairwise_append] at hsorted
  refine ⟨List.mem_reverse.1 hmem, hcaller, ?_⟩
  intro row hrow hisCaller
  rw [← List.mem_reverse, hsplit, List.mem_append, List.mem_cons] at hrow
  rcases hrow with hbefore | rfl | hafter
  · have hnot := hnone row hbefore
    simp [hisCaller] at hnot
  · exact Nat.le_refl _
  · exact Nat.le_of_lt ((List.pairwise_cons.1 hsorted.2.1).1 row hafter)

/-- The result has the last message of the caller exactly when that message is in reach. -/
theorem isIn_stayingRows_iff {current : Row}
    (h : lastCallerUserMessage messages.zipIdx = some current) :
    isIn current (stayingRows py messages tokenBudget maxRecentMessages) = true ↔
      InReach py messages tokenBudget maxRecentMessages current.2 := by
  obtain ⟨hmem, hcaller, hlast⟩ := lastCallerUserMessage_eq_some messages h
  have hreach : ∀ row ∈ messages.zipIdx, isCaller row.1 = true →
      (row.2 ∈ selectedIndices py messages tokenBudget maxRecentMessages ↔
        InReach py messages tokenBudget maxRecentMessages row.2) := by
    intro row hrow hrowCaller
    rw [selected_iff hrow, isProtected_of_caller hrowCaller]
    exact or_iff_right Bool.noConfusion
  constructor
  · intro hin
    obtain ⟨row, hrow, hsame⟩ := List.any_eq_true.1 hin
    obtain ⟨hzip, hstays⟩ := List.mem_filter.1 hrow
    have hstays := of_decide_eq_true hstays
    unfold sameMessage at hsame
    rcases Bool.or_eq_true_iff.1 hsame with hposition | heq
    · rw [← of_decide_eq_true hposition] at hstays
      exact (hreach current hmem hcaller).1 hstays
    · have hrowCaller := messageEq_caller heq hcaller
      exact ((hreach row hzip hrowCaller).1 hstays).mono (hlast row hzip hrowCaller)
  · intro hcurrent
    exact isIn_of_mem (List.mem_filter.2
      ⟨hmem, decide_eq_true ((hreach current hmem hcaller).2 hcurrent)⟩)

/-- What is left of the contract once the rows that stay are the result: the last message of the
caller, and the tool protocol. -/
theorem validateResultContract_stayingRows :
    validateResultContract messages.zipIdx
        (stayingRows py messages tokenBudget maxRecentMessages) =
      if (lastCallerUserMessage messages.zipIdx).all fun current =>
          isIn current (stayingRows py messages tokenBudget maxRecentMessages)
      then validateToolProtocol
        ((stayingRows py messages tokenBudget maxRecentMessages).map Prod.fst)
      else .error (violation "context compression hook removed the current user request") := by
  have hprivileged : ¬ sameMessages
      ((stayingRows py messages tokenBudget maxRecentMessages).filter (isPrivileged ·.1))
      (messages.zipIdx.filter (isPrivileged ·.1)) = false := by
    rw [privileged_kept, sameMessages_refl]
    decide
  have hintroduced : ¬ (stayingRows py messages tokenBudget maxRecentMessages).any
      (fun row => !isIn row messages.zipIdx && row.1.origin ≠ .hostContext &&
        row.1.origin ≠ .hostToolResult) = true := by
    intro hany
    obtain ⟨row, hrow, hnew⟩ := List.any_eq_true.1 hany
    rw [nothing_introduced py messages tokenBudget maxRecentMessages hrow] at hnew
    cases hnew
  have hcurrent : (lastCallerUserMessage messages.zipIdx).any (fun current =>
      !isIn current (stayingRows py messages tokenBudget maxRecentMessages)) =
      !(lastCallerUserMessage messages.zipIdx).all fun current =>
        isIn current (stayingRows py messages tokenBudget maxRecentMessages) := by
    cases lastCallerUserMessage messages.zipIdx <;> rfl
  unfold validateResultContract
  dsimp only
  rw [rejectIf_of_not hprivileged, ok_bind, hcurrent]
  split
  · rename_i hall
    rw [hall, rejectIf_of_not (by decide), ok_bind, rejectIf_of_not hintroduced, ok_bind]
  · rename_i hnot
    rw [Bool.eq_false_iff.2 hnot]
    rfl

end

/-! ## When the default is accepted -/

section
variable (messages : List AgentMessage) (available keepRecent : Nat) (thresholdReached : Bool)
variable (phase : String)

/-- What the default does with a conversation that satisfies the contract itself: it is left alone;
or the protected messages, with all from some position in reach on, cost more than is available; or
the last message of the caller is in reach and no tool exchange is torn. -/
def Compactable : Prop :=
  (estimateAgentMessagesTokens py messages ≤ available ∧ thresholdReached = false) ∨
    (∃ i, (messages.length ≤ i ∨ InReach py messages available (some keepRecent) i) ∧
      available < rowsEstimate py (rowsFrom messages i)) ∨
    (∀ current, lastCallerUserMessage messages.zipIdx = some current →
        InReach py messages available (some keepRecent) current.2) ∧
      ∀ i j, Answers messages i j → ¬ Torn py messages available (some keepRecent) i j

/-- An accepted result, or a reported overflow. -/
def acceptedOrOverflow (result : Except PyError CompactionResult) : Bool :=
  match result with
  | .ok _ => true
  | .error (.contextOverflow ..) => true
  | .error _ => false

/-- What stays is too large. -/
theorem overflow_iff :
    available < rowsEstimate py (stayingRows py messages available (some keepRecent)) ↔
      ∃ i, (messages.length ≤ i ∨ InReach py messages available (some keepRecent) i) ∧
        available < rowsEstimate py (rowsFrom messages i) := by
  constructor
  · intro hover
    classical
    have hsome : ∃ i, messages.length ≤ i ∨ InReach py messages available (some keepRecent) i :=
      ⟨_, Or.inl (Nat.le_refl _)⟩
    refine ⟨Nat.find hsome, Nat.find_spec hsome, Nat.lt_of_lt_of_le hover (rowsEstimate_mono py ?_)⟩
    exact sublist_rowsFrom fun j hj _ => Nat.find_min' hsome (Or.inr hj)
  · rintro ⟨i, hi, hover⟩
    exact Nat.lt_of_lt_of_le hover (rowsEstimate_mono py (rowsFrom_sublist hi))

theorem defaultTrim_of_overflow
    (h : available < rowsEstimate py (stayingRows py messages available (some keepRecent))) :
    ∃ message reasonCode details texts, defaultTrim py messages available keepRecent =
      .error (.contextOverflow message reasonCode details texts) := by
  have hover : (trimAgentMessagesByTurn py messages available
      (some (keepRecent : Int))).overflowTokens ≠ 0 := Nat.sub_ne_zero_of_lt h
  unfold defaultTrim
  dsimp only
  rw [if_pos hover]
  exact ⟨_, _, _, _, rfl⟩

theorem defaultTrim_of_fits
    (h : rowsEstimate py (stayingRows py messages available (some keepRecent)) ≤ available) :
    defaultTrim py messages available keepRecent =
      .ok ⟨stayingRows py messages available (some keepRecent), "compacted_default_trim",
        conversationTurnCount (stayingRows py messages available (some keepRecent))⟩ := by
  have hover : ¬ (trimAgentMessagesByTurn py messages available
      (some (keepRecent : Int))).overflowTokens ≠ 0 := not_not.2 (Nat.sub_eq_zero_of_le h)
  unfold defaultTrim
  dsimp only
  rw [if_neg hover]
  rfl

end

/-! ## Violations -/

theorem protocolStep_error {pending : List RequiredText} {message : AgentMessage} {e : PyError}
    (h : protocolStep pending message = .error e) : ∃ text, e = violation text := by
  unfold protocolStep at h
  split at h
  · cases h
    exact ⟨_, rfl⟩
  · split at h
    · split at h
      · split at h
        · cases h
        · cases h
          exact ⟨_, rfl⟩
      · cases h
        exact ⟨_, rfl⟩
    · dsimp only at h
      split at h
      · cases h
      · cases h
        exact ⟨_, rfl⟩

theorem protocolFold_error {messages : List AgentMessage} {pending : List RequiredText}
    {e : PyError} (h : messages.foldlM protocolStep pending = .error e) :
    ∃ text, e = violation text := by
  induction messages generalizing pending with
  | nil => cases h
  | cons message messages ih =>
    rw [List.foldlM_cons] at h
    cases hfirst : protocolStep pending message with
    | error e' =>
      rw [hfirst] at h
      cases h
      exact protocolStep_error hfirst
    | ok next =>
      rw [hfirst] at h
      exact ih h

/-- What the tool protocol raises is a contract violation. -/
theorem validateToolProtocol_error {messages : List AgentMessage} {e : PyError}
    (h : validateToolProtocol messages = .error e) : ∃ text, e = violation text := by
  unfold validateToolProtocol at h
  cases hfold : messages.foldlM protocolStep [] with
  | error e' =>
    rw [hfold] at h
    cases h
    exact protocolFold_error hfold
  | ok pending =>
    rw [hfold, ok_bind] at h
    unfold rejectIf at h
    split at h
    · cases h
      exact ⟨_, rfl⟩
    · cases h

/-- A conversation is accepted as its own result when it satisfies the tool protocol. -/
theorem validateResultContract_self (messages : List AgentMessage) :
    validateResultContract messages.zipIdx messages.zipIdx = validateToolProtocol messages := by
  have hprivileged : ¬ sameMessages (messages.zipIdx.filter (isPrivileged ·.1))
      (messages.zipIdx.filter (isPrivileged ·.1)) = false := by
    rw [sameMessages_refl]
    decide
  have hcurrent : ¬ (lastCallerUserMessage messages.zipIdx).any
      (fun current => !isIn current messages.zipIdx) = true := by
    cases hlast : lastCallerUserMessage messages.zipIdx with
    | none => simp
    | some current => simp [isIn_of_mem (lastCallerUserMessage_eq_some messages hlast).1]
  have hintroduced : ¬ messages.zipIdx.any (fun row => !isIn row messages.zipIdx &&
      row.1.origin ≠ .hostContext && row.1.origin ≠ .hostToolResult) = true := by
    intro hany
    obtain ⟨row, hrow, hnew⟩ := List.any_eq_true.1 hany
    rw [isIn_of_mem hrow] at hnew
    cases hnew
  unfold validateResultContract
  dsimp only
  rw [rejectIf_of_not hprivileged, ok_bind, rejectIf_of_not hcurrent, ok_bind,
    rejectIf_of_not hintroduced, ok_bind, List.zipIdx_map_fst]

/-! ## Exchanges that stay together

The validator goes through the conversation and through what stays of it side by side: what is
pending in the one is pending in the other, or nothing is, as the call in question stays or not. -/

theorem protocolStep_eq_ok {pending next : List RequiredText} {message : AgentMessage} :
    protocolStep pending message = .ok next ↔
      (message.role = .tool ∧ ∃ id, message.toolCallId = some id ∧ id ∈ pending ∧
        next = pending.erase id) ∨
      message.role ≠ .tool ∧ pending = [] ∧ (callIds message).Nodup ∧ next = callIds message := by
  unfold protocolStep callIds
  by_cases htool : message.role = .tool
  · cases hid : message.toolCallId with
    | none => simp [htool]
    | some id =>
      by_cases hmem : id ∈ pending
      · simp [htool, hmem, eq_comm]
      · simp [htool, hmem]
  · by_cases hpending : pending = []
    · by_cases hnodup : (message.toolCalls.map (·.id)).Nodup
      · simp [htool, hpending, hnodup, eq_comm]
      · simp [htool, hpending, hnodup]
    · simp [htool, hpending]

theorem validateToolProtocol_eq_ok {messages : List AgentMessage} :
    validateToolProtocol messages = .ok () ↔ messages.foldlM protocolStep [] = .ok [] := by
  unfold validateToolProtocol
  cases messages.foldlM protocolStep [] with
  | error e => exact iff_of_false (fun h => by cases h) (fun h => by cases h)
  | ok pending =>
    rw [ok_bind, rejectIf_eq_ok, not_not]
    exact ⟨fun h => congrArg _ h, fun h => Except.ok.inj h⟩

section
variable {messages : List AgentMessage} {keep : Nat → Prop} [DecidablePred keep]

/-- The validators at a position: what is pending in the conversation are calls of the last message
that is not a result, and what is pending in what stays are the same calls, or none. -/
def Abreast (messages : List AgentMessage) (keep : Nat → Prop) [DecidablePred keep] (n : Nat)
    (pending pending' : List RequiredText) : Prop :=
  pending = [] ∧ pending' = [] ∨
    ∃ c call, messages[c]? = some call ∧ c < n ∧ (∀ id ∈ pending, id ∈ callIds call) ∧
      (∀ k message, c < k → k < n → messages[k]? = some message → message.role = .tool) ∧
      pending' = if keep c then pending else []

theorem protocol_abreast (hwhole : ∀ i j, Answers messages i j → (keep i ↔ keep j))
    {rest : List Row} {n : Nat} {pending pending' : List RequiredText}
    (hrest : messages.zipIdx.drop n = rest) (habreast : Abreast messages keep n pending pending')
    (h : (rest.map Prod.fst).foldlM protocolStep pending = .ok []) :
    ((rest.filter fun row => keep row.2).map Prod.fst).foldlM protocolStep pending' = .ok [] := by
  induction rest generalizing n pending pending' with
  | nil =>
    cases h
    rcases habreast with ⟨-, rfl⟩ | ⟨c, call, -, -, -, -, rfl⟩
    · rfl
    · rw [ite_self]
      rfl
  | cons row rest ih =>
    have hrow : messages.zipIdx[n]? = some row := by
      rw [← List.head?_drop, hrest]
      rfl
    have hnext : messages.zipIdx.drop (n + 1) = rest := by
      rw [← List.drop_drop, hrest]
      rfl
    rw [List.getElem?_zipIdx, Nat.zero_add] at hrow
    obtain ⟨message, hmessage, rfl⟩ := Option.map_eq_some_iff.1 hrow
    rw [List.map_cons, List.foldlM_cons] at h
    obtain ⟨next, hstep, h⟩ := bind_eq_ok h
    rw [List.filter_cons]
    rcases protocolStep_eq_ok.1 hstep with ⟨htool, id, hid, hmem, rfl⟩ | ⟨hcalls, rfl, hnodup, rfl⟩
    · rcases habreast with ⟨rfl, -⟩ | ⟨c, call, hcall, hlt, hids, hresults, rfl⟩
      · cases hmem
      -- a result stays with its call
      have hanswers : Answers messages c n := by
        refine ⟨call, message, id, hcall, hmessage, hlt, htool, hid, hids id hmem, ?_⟩
        intro k other hck hkn hother hcalled
        rw [callIds, if_pos (hresults k other hck hkn hother)] at hcalled
        cases hcalled
      have habreast' : Abreast messages keep (n + 1) (pending.erase id)
          (if keep c then pending.erase id else []) := by
        refine Or.inr ⟨c, call, hcall, by omega, fun id' hid' => hids id' (List.mem_of_mem_erase hid'),
          fun k other hck hkn hother => ?_, rfl⟩
        rcases Nat.lt_or_eq_of_le (Nat.le_of_lt_succ hkn) with hkn | rfl
        · exact hresults k other hck hkn hother
        · cases hmessage.symm.trans hother
          exact htool
      have hrest' := ih hnext habreast' h
      by_cases hkeep : keep c
      · have hkeep' := (hwhole c n hanswers).1 hkeep
        rw [if_pos hkeep] at hrest' ⊢
        rw [if_pos (decide_eq_true hkeep'), List.map_cons, List.foldlM_cons, hstep, ok_bind]
        exact hrest'
      · have hkeep' := mt (hwhole c n hanswers).2 hkeep
        rw [if_neg hkeep] at hrest' ⊢
        rw [if_neg (by rw [decide_eq_true_eq]; exact hkeep')]
        exact hrest'
    · have hnone : pending' = [] := by
        rcases habreast with ⟨-, rfl⟩ | ⟨c, call, -, -, -, -, rfl⟩
        · rfl
        · rw [ite_self]
      have habreast' : Abreast messages keep (n + 1) (callIds message)
          (if keep n then callIds message else []) :=
        Or.inr ⟨n, message, hmessage, Nat.lt_succ_self n, fun _ hid => hid,
          fun k other hnk hkn => by omega, rfl⟩
      have hrest' := ih hnext habreast' h
      rw [hnone]
      by_cases hkeep : keep n
      · rw [if_pos hkeep] at hrest'
        rw [if_pos (decide_eq_true hkeep), List.map_cons, List.foldlM_cons, hstep, ok_bind]
        exact hrest'
      · rw [if_neg hkeep] at hrest'
        rw [if_neg (by rw [decide_eq_true_eq]; exact hkeep)]
        exact hrest'

/-- The message is the result of a call with this id. -/
def isResult (id : RequiredText) (message : AgentMessage) : Bool :=
  message.role = .tool && message.toolCallId = some id

/-- The validator accepts as many results with an id as there are calls with it. -/
theorem protocol_counts {pending next : List RequiredText} (id : RequiredText)
    (h : messages.foldlM protocolStep pending = .ok next) :
    pending.count id + (messages.flatMap callIds).count id =
      next.count id + messages.countP (isResult id) := by
  induction messages generalizing pending with
  | nil =>
    cases h
    rfl
  | cons message messages ih =>
    rw [List.foldlM_cons] at h
    obtain ⟨middle, hstep, h⟩ := bind_eq_ok h
    have hrest := ih h
    rw [List.flatMap_cons, List.count_append, List.countP_cons]
    rcases protocolStep_eq_ok.1 hstep with ⟨htool, id', hid', hmem, rfl⟩ | ⟨hcalls, rfl, -, rfl⟩
    · have hnone : callIds message = [] := if_pos htool
      have hpos := List.count_pos_iff.2 hmem
      rw [hnone, List.count_nil]
      by_cases hsame : id' = id
      · subst hsame
        rw [List.count_erase_self] at hrest
        simp only [isResult, htool, hid', decide_true, Bool.and_self, if_true]
        omega
      · rw [List.count_erase_of_ne (Ne.symm hsame)] at hrest
        simp only [isResult, hid', Option.some.injEq, hsame, decide_false, Bool.and_false,
          Bool.false_eq_true, if_false]
        omega
    · simp only [isResult, hcalls, decide_false, Bool.false_and, Bool.false_eq_true, if_false,
        List.count_nil]
      omega

/-- Rows of which a conversation has one at most are one row. -/
theorem eq_of_countP_le_one {p : AgentMessage → Bool} (hone : messages.countP p ≤ 1) {a b : Row}
    (ha : a ∈ messages.zipIdx) (hb : b ∈ messages.zipIdx) (hpa : p a.1 = true)
    (hpb : p b.1 = true) : a = b := by
  rw [← List.zipIdx_map_fst 0 messages, List.countP_map, List.countP_eq_length_filter] at hone
  exact eq_of_length_le_one hone (List.mem_filter.2 ⟨ha, hpa⟩) (List.mem_filter.2 ⟨hb, hpb⟩)

/-- Messages that call a tool under one id are one row, when no two calls have one id. -/
theorem eq_of_mem_callIds (hdistinct : (messages.flatMap callIds).Nodup) {a b : Row}
    (ha : a ∈ messages.zipIdx) (hb : b ∈ messages.zipIdx) {id : RequiredText}
    (hida : id ∈ callIds a.1) (hidb : id ∈ callIds b.1) : a = b := by
  refine @eq_of_countP_le_one _ (fun message => id ∈ callIds message) ?_ a b ha hb
    (decide_eq_true hida) (decide_eq_true hidb)
  have hcount := List.nodup_iff_count_le_one.1 hdistinct id
  refine Nat.le_trans ?_ hcount
  rw [List.count_flatMap]
  clear hdistinct hcount ha hb
  induction messages with
  | nil => exact Nat.le_refl 0
  | cons message messages ih =>
    rw [List.countP_cons, List.map_cons, List.sum_cons, Nat.add_comm]
    refine Nat.add_le_add ?_ ih
    split
    · rename_i hmem
      exact List.count_pos_iff.2 (of_decide_eq_true hmem)
    · exact Nat.zero_le _

/-- When what stays satisfies the tool protocol as well, exchanges stay together. -/
theorem keep_iff_of_protocol (hdistinct : (messages.flatMap callIds).Nodup)
    (hsource : messages.foldlM protocolStep [] = .ok [])
    (hkept : ((messages.zipIdx.filter fun row => keep row.2).map Prod.fst).foldlM protocolStep [] =
      .ok []) {i j : Nat} (h : Answers messages i j) : keep i ↔ keep j := by
  obtain ⟨call, result, id, hcall, hresult, -, htool, hid, hcalled, -⟩ := h
  have hcall' : (call, i) ∈ messages.zipIdx := List.mem_zipIdx_iff_getElem?.2 hcall
  have hresult' : (result, j) ∈ messages.zipIdx := List.mem_zipIdx_iff_getElem?.2 hresult
  have hanswers : isResult id result = true := by simp [isResult, htool, hid]
  have hone : messages.countP (isResult id) ≤ 1 := by
    have hcounts := protocol_counts id hsource
    have := List.nodup_iff_count_le_one.1 hdistinct id
    omega
  have hcounts := protocol_counts id hkept
  simp only [List.count_nil, Nat.zero_add] at hcounts
  constructor
  · intro hkeep
    -- the call asks for a result that stays, and there is no other
    have hpos : 0 < List.countP (isResult id)
        ((messages.zipIdx.filter fun row => keep row.2).map Prod.fst) := by
      rw [← hcounts]
      exact List.count_pos_iff.2 (List.mem_flatMap.2 ⟨call, List.mem_map.2
        ⟨(call, i), List.mem_filter.2 ⟨hcall', decide_eq_true hkeep⟩, rfl⟩, hcalled⟩)
    obtain ⟨message, hmessage, hisResult⟩ := List.countP_pos_iff.1 hpos
    obtain ⟨row, hrow, rfl⟩ := List.mem_map.1 hmessage
    obtain ⟨hrow, hkeep'⟩ := List.mem_filter.1 hrow
    cases eq_of_countP_le_one hone hrow hresult' hisResult hanswers
    exact of_decide_eq_true hkeep'
  · intro hkeep
    have hpos : 0 < List.count id
        (((messages.zipIdx.filter fun row => keep row.2).map Prod.fst).flatMap callIds) := by
      rw [hcounts]
      exact List.countP_pos_iff.2 ⟨result, List.mem_map.2
        ⟨(result, j), List.mem_filter.2 ⟨hresult', decide_eq_true hkeep⟩, rfl⟩, hanswers⟩
    obtain ⟨message, hmessage, hmem⟩ := List.mem_flatMap.1 (List.count_pos_iff.1 hpos)
    obtain ⟨row, hrow, rfl⟩ := List.mem_map.1 hmessage
    obtain ⟨hrow, hkeep'⟩ := List.mem_filter.1 hrow
    cases eq_of_mem_callIds hdistinct hrow hcall' hmem hcalled
    exact of_decide_eq_true hkeep'

end

/-! ## Accepted, or too large -/

/-- What the default does, in terms of what stays. -/
theorem accepted_iff (messages : List AgentMessage) (available keepRecent : Nat)
    (thresholdReached : Bool) (phase : String)
    (hsource : validateToolProtocol messages = .ok ()) :
    acceptedOrOverflow (prepareResult py messages available thresholdReached keepRecent phase) =
        true ↔
      (estimateAgentMessagesTokens py messages ≤ available ∧ thresholdReached = false) ∨
        available < rowsEstimate py (stayingRows py messages available (some keepRecent)) ∨
        (∀ current, lastCallerUserMessage messages.zipIdx = some current →
          InReach py messages available (some keepRecent) current.2) ∧
        validateToolProtocol
          ((stayingRows py messages available (some keepRecent)).map Prod.fst) = .ok () := by
  unfold prepareResult
  dsimp only
  by_cases hrequired : (available < estimateAgentMessagesTokens py messages || thresholdReached) =
      true
  · have hnot : ¬ (estimateAgentMessagesTokens py messages ≤ available ∧
        thresholdReached = false) := by
      rintro ⟨hle, hthreshold⟩
      rw [hthreshold, Bool.or_false, decide_eq_true_eq] at hrequired
      omega
    rw [if_pos hrequired, or_iff_right hnot]
    rcases Nat.lt_or_ge available
        (rowsEstimate py (stayingRows py messages available (some keepRecent))) with hover | hfits
    · obtain ⟨message, reasonCode, details, texts, htrim⟩ :=
        defaultTrim_of_overflow py messages available keepRecent hover
      rw [htrim]
      exact iff_of_true rfl (Or.inl hover)
    · have hwithin : ¬ estimateAgentMessagesTokens py
          ((stayingRows py messages available (some keepRecent)).map Prod.fst) - available ≠ 0 :=
        not_not.2 (Nat.sub_eq_zero_of_le hfits)
      rw [or_iff_right (Nat.not_lt.2 hfits), defaultTrim_of_fits py messages available keepRecent
        hfits, ok_bind, validateResultContract_stayingRows]
      dsimp only
      rw [if_neg hwithin]
      have hcurrent : (lastCallerUserMessage messages.zipIdx).all (fun current =>
          isIn current (stayingRows py messages available (some keepRecent))) = true ↔
            ∀ current, lastCallerUserMessage messages.zipIdx = some current →
              InReach py messages available (some keepRecent) current.2 := by
        rw [Option.all_eq_true]
        refine forall_congr' fun current => forall_congr' fun hlast => ?_
        exact isIn_stayingRows_iff py messages available (some keepRecent) hlast
      split
      · rename_i hall
        cases hprotocol : validateToolProtocol
            ((stayingRows py messages available (some (keepRecent : Int))).map Prod.fst) with
        | error e =>
          obtain ⟨text, rfl⟩ := validateToolProtocol_error hprotocol
          refine iff_of_false (fun h => by cases h) ?_
          rintro ⟨-, ⟨⟩⟩
        | ok _ => exact iff_of_true rfl ⟨hcurrent.1 hall, rfl⟩
      · rename_i hnot
        exact iff_of_false (fun h => by cases h) fun h => hnot (hcurrent.2 h.1)
  · have hleft : estimateAgentMessagesTokens py messages ≤ available ∧
        thresholdReached = false := by
      rw [Bool.or_eq_true, decide_eq_true_eq, not_or] at hrequired
      exact ⟨not_lt.1 hrequired.1, Bool.eq_false_iff.2 hrequired.2⟩
    have hwithin : ¬ estimateAgentMessagesTokens py messages - available ≠ 0 := by omega
    rw [if_neg hrequired, ok_bind, validateResultContract_self, hsource, ok_bind,
      List.zipIdx_map_fst, if_neg hwithin]
    exact iff_of_true rfl (Or.inl hleft)

/-- **Default compaction.**  For a conversation that satisfies the tool protocol, the result of the
default is accepted, or an overflow is reported, when nothing has to be trimmed, or what has to stay
is too large, or the last message of the caller is in reach and no exchange is torn; and only then,
if no two calls have one id. -/
theorem prepareResult_accepted (messages : List AgentMessage) (available keepRecent : Nat)
    (thresholdReached : Bool) (phase : String)
    (hsource : validateToolProtocol messages = .ok ()) :
    (Compactable py messages available keepRecent thresholdReached →
      acceptedOrOverflow (prepareResult py messages available thresholdReached keepRecent phase) =
        true) ∧
    ((messages.flatMap callIds).Nodup →
      acceptedOrOverflow (prepareResult py messages available thresholdReached keepRecent phase) =
        true → Compactable py messages available keepRecent thresholdReached) := by
  have hfold := validateToolProtocol_eq_ok.1 hsource
  have hstays : ∀ i j, Answers messages i j →
      ((i ∈ selectedIndices py messages available (some keepRecent) ↔
        j ∈ selectedIndices py messages available (some keepRecent)) ↔
          ¬ Torn py messages available (some keepRecent) i j) := by
    intro i j hanswers
    rw [mem_selectedIndices_iff, mem_selectedIndices_iff]
    exact stays_iff_of_answers hanswers
  rw [accepted_iff py messages available keepRecent thresholdReached phase hsource, Compactable,
    overflow_iff, validateToolProtocol_eq_ok]
  constructor
  · rintro (hleft | hover | ⟨hcurrent, hwhole⟩)
    · exact Or.inl hleft
    · exact Or.inr (Or.inl hover)
    · refine Or.inr (Or.inr ⟨hcurrent, protocol_abreast (n := 0) (fun i j hanswers =>
        (hstays i j hanswers).2 (hwhole i j hanswers)) rfl (Or.inl ⟨rfl, rfl⟩) ?_⟩)
      rw [List.zipIdx_map_fst]
      exact hfold
  · rintro hdistinct (hleft | hover | ⟨hcurrent, hprotocol⟩)
    · exact Or.inl hleft
    · exact Or.inr (Or.inl hover)
    · exact Or.inr (Or.inr ⟨hcurrent, fun i j hanswers =>
        (hstays i j hanswers).1 (keep_iff_of_protocol hdistinct hfold hprotocol hanswers)⟩)

/-- A message of one of the other roles, with text. -/
def plainText (role : MessageRole) (origin : MessageOrigin) (text : String)
    (hrole : role ≠ .tool := by decide) : AgentMessage :=
  ⟨{ role, origin, content := .str text }, ⟨Or.inl rfl, fun h => absurd h hrole⟩⟩

/-- A question, an answer to it and another question: room for one question, and it is the last. -/
theorem prepareResult_lastQuestion : acceptedOrOverflow (prepareResult noBuiltins
    [userText "hi", plainText .assistant .model "ok", userText "go on"] 50 false 20
      "pre_planning") = true := by
  refine (prepareResult_accepted noBuiltins _ 50 20 false "pre_planning" (by rfl)).1
    (Or.inr (Or.inr ⟨fun current hcurrent => Or.inl fun s hs => ?_, ?_⟩))
  · have hposition : (lastCallerUserMessage [userText "hi", plainText .assistant .model "ok",
        userText "go on"].zipIdx).map Prod.snd = some 2 := by decide +kernel
    rw [hcurrent] at hposition
    obtain ⟨message, hmessage, -⟩ := startsTurn_open hs
    have hlt : s < 3 := (List.getElem?_eq_some_iff.1 hmessage).1
    rw [Option.some.inj hposition]
    omega
  · rintro i j ⟨call, result, id, -, hresult, -, htool, -⟩
    have hnone : ∀ message ∈ [userText "hi", plainText .assistant .model "ok", userText "go on"],
        message.role ≠ .tool := by decide +kernel
    exact absurd htool (hnone result (List.mem_of_getElem? hresult))

/-- The host's context behind the question makes the answer a turn of its own: the question is
dropped, and the contract misses it. -/
theorem question_removed :
    validateToolProtocol [userText "hi", plainText .system .hostContext "context",
      plainText .assistant .model "ok"] = .ok () ∧
    ¬ acceptedOrOverflow (prepareResult noBuiltins [userText "hi",
      plainText .system .hostContext "context", plainText .assistant .model "ok"] 50 false 20
        "pre_planning") = true := by
  refine ⟨by rfl, ?_⟩
  decide +kernel

end Purra.Context
