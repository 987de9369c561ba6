import Mathlib.Data.String.Basic
import Purra.Checkpoints.Execution

/-!
# Tool-ready checkpoints

`AgentToolExecutionCheckpoint`: a settled model round whose one tool call has not been
dispatched.  It is a model-ready checkpoint together with the assistant message that
made the call, the identity of the invocation, and the tools that were allowed, sorted
and without repetition.
-/

namespace Purra.Contracts

/-- `sorted(names)`. -/
def sortedNames (names : List RequiredText) : List RequiredText :=
  names.mergeSort fun a b => decide (a.text ≤ b.text)

theorem sortedNames_pairwise (names : List RequiredText) :
    (sortedNames names).Pairwise fun a b => a.text ≤ b.text := by
  have htrans : ∀ a b c : RequiredText, decide (a.text ≤ b.text) = true →
      decide (b.text ≤ c.text) = true → decide (a.text ≤ c.text) = true := by
    intro a b c hab hbc
    simp only [decide_eq_true_eq] at hab hbc ⊢
    exact le_trans hab hbc
  have htotal : ∀ a b : RequiredText,
      (decide (a.text ≤ b.text) || decide (b.text ≤ a.text)) = true := by
    intro a b
    simp only [Bool.or_eq_true, decide_eq_true_eq]
    exact le_total a.text b.text
  exact (List.pairwise_mergeSort htrans htotal names).imp fun hab => by simpa using hab

/-- Sorted names stay where they are. -/
theorem sortedNames_of_pairwise {names : List RequiredText}
    (h : names.Pairwise fun a b => a.text ≤ b.text) : sortedNames names = names :=
  List.mergeSort_of_pairwise (h.imp fun hab => by simpa using hab)

/-- The fields `AgentToolExecutionCheckpoint` adds to those of its base. -/
structure ToolReadyFields extends CheckpointFields where
  assistant : AgentMessage
  invocationId : RequiredText
  modelBudgetKey : RequiredText
  allowedToolNames : List RequiredText

/-- No earlier message made a call with this id. -/
def FreshCall (messages : List AgentMessage) (id : RequiredText) : Prop :=
  ∀ message ∈ messages, ∀ call ∈ message.toolCalls, id ≠ call.id

instance (messages : List AgentMessage) (id : RequiredText) : Decidable (FreshCall messages id) :=
  inferInstanceAs (Decidable (∀ message ∈ messages, _))

/-- What `AgentToolExecutionCheckpoint.__post_init__` lets through. -/
structure ToolReadyFields.Valid (fields : ToolReadyFields) : Prop where
  base : fields.toCheckpointFields.Valid
  assistant_role : fields.assistant.role = .assistant
  one_call : ∃ call, fields.assistant.toolCalls = [call] ∧
    FreshCall fields.messages call.id ∧ call.name ∈ fields.allowedToolNames
  names_sorted : fields.allowedToolNames.Pairwise fun a b => a.text ≤ b.text
  names_nodup : fields.allowedToolNames.Nodup
  remaining : fields.nextRound < fields.roundLimit

/-- `AgentToolExecutionCheckpoint`. -/
structure AgentToolExecutionCheckpoint extends ToolReadyFields where
  valid : toToolReadyFields.Valid

section Decoding

variable (py : Builtins)

/-- `required_text(value, label)`. -/
def requiredOf (value : Json) (label : String) : Except PyError RequiredText :=
  RequiredText.of (py.str (Json.orElse value (.str ""))) label

/-- The checks of `AgentToolExecutionCheckpoint.__post_init__`, and the fields as it normalises
them. -/
def toolReadyFields (args : CheckpointArguments) (assistant : AgentMessage)
    (invocationId modelBudgetKey : Json) (allowedToolNames : List Json) :
    Except PyError ToolReadyFields := do
  let base ← AgentExecutionCheckpoint.of
    { args with schemaVersion := 2, phase := "model_ready" }
  match assistant.role, assistant.toolCalls with
  | .assistant, [call] => do
    rejectIf (¬ FreshCall base.messages call.id)
      (.valueError "pending tool call already exists in checkpoint history")
    let names ← allowedToolNames.mapM fun name => requiredOf py name "allowed tool name"
    let allowed := sortedNames names
    rejectIf (¬ allowed.Nodup ∨ call.name ∉ allowed)
      (.valueError "invalid tool-ready allowed tool names")
    let invocationId ← requiredOf py invocationId "settled invocation id"
    let modelBudgetKey ← requiredOf py modelBudgetKey "settled budget key"
    rejectIf (base.roundLimit ≤ base.nextRound)
      (.valueError "tool-ready checkpoint requires a remaining model round")
    .ok { base.toCheckpointFields with
      assistant, invocationId, modelBudgetKey, allowedToolNames := allowed }
  | _, _ => .error (.valueError "tool-ready checkpoint requires one assistant tool call")

/-- What went through the checks is valid. -/
theorem toolReadyFields_valid {args : CheckpointArguments} {assistant : AgentMessage}
    {invocationId modelBudgetKey : Json} {allowedToolNames : List Json} {fields : ToolReadyFields}
    (h : toolReadyFields py args assistant invocationId modelBudgetKey allowedToolNames =
      .ok fields) : fields.Valid := by
  unfold toolReadyFields at h
  obtain ⟨base, -, h⟩ := bind_eq_ok h
  split at h
  · rename_i call hrole hcalls
    obtain ⟨_, hfresh, h⟩ := bind_eq_ok h
    obtain ⟨names, -, h⟩ := bind_eq_ok h
    obtain ⟨_, hallowed, h⟩ := bind_eq_ok h
    obtain ⟨invocation, -, h⟩ := bind_eq_ok h
    obtain ⟨budgetKey, -, h⟩ := bind_eq_ok h
    obtain ⟨_, hremaining, h⟩ := bind_eq_ok h
    cases h
    obtain ⟨hnodup, hname⟩ := not_or.1 (rejectIf_eq_ok.1 hallowed)
    exact ⟨base.valid, hrole, ⟨call, hcalls, not_not.1 (rejectIf_eq_ok.1 hfresh), not_not.1 hname⟩,
      sortedNames_pairwise names, not_not.1 hnodup, not_le.1 (rejectIf_eq_ok.1 hremaining)⟩
  · cases h

/-- `AgentToolExecutionCheckpoint.__post_init__`. -/
def AgentToolExecutionCheckpoint.of (args : CheckpointArguments) (assistant : AgentMessage)
    (invocationId modelBudgetKey : Json) (allowedToolNames : List Json) :
    Except PyError AgentToolExecutionCheckpoint :=
  match h : toolReadyFields py args assistant invocationId modelBudgetKey allowedToolNames with
  | .error e => .error e
  | .ok fields => .ok ⟨fields, toolReadyFields_valid py h⟩

theorem AgentToolExecutionCheckpoint.of_eq_ok {args : CheckpointArguments}
    {assistant : AgentMessage} {invocationId modelBudgetKey : Json} {allowedToolNames : List Json}
    {fields : ToolReadyFields}
    (h : toolReadyFields py args assistant invocationId modelBudgetKey allowedToolNames =
      .ok fields) :
    AgentToolExecutionCheckpoint.of py args assistant invocationId modelBudgetKey
      allowedToolNames = .ok ⟨fields, toolReadyFields_valid py h⟩ := by
  unfold AgentToolExecutionCheckpoint.of
  split
  · rename_i e he
    rw [h] at he
    cases he
  · rename_i fields' hfields
    rw [h] at hfields
    cases hfields
    rfl

theorem requiredOf_text (t : RequiredText) (label : String) :
    requiredOf py (.str t.text) label = .ok t := by
  simp only [requiredOf, Json.orElse_str, Builtins.str_str, RequiredText.of_text]

/-- Valid fields pass the checks unchanged. -/
theorem toolReadyFields_self {fields : ToolReadyFields} (h : fields.Valid) :
    toolReadyFields py fields.arguments fields.assistant (.str fields.invocationId.text)
      (.str fields.modelBudgetKey.text) (fields.allowedToolNames.map fun name => .str name.text) =
      .ok fields := by
  obtain ⟨call, hcalls, hfresh, hname⟩ := h.one_call
  have hargs : { fields.arguments with schemaVersion := 2, phase := "model_ready" } =
      fields.arguments := rfl
  have hbase : AgentExecutionCheckpoint.of fields.arguments =
      .ok ⟨fields.toCheckpointFields, h.base⟩ :=
    AgentExecutionCheckpoint.of_eq_ok (checkpointFields_arguments h.base)
  have hnames : (fields.allowedToolNames.map fun name => Json.str name.text).mapM
      (fun name => requiredOf py name "allowed tool name") = .ok fields.allowedToolNames := by
    refine mapM_map_eq ?_ _
    intro name
    exact requiredOf_text py name "allowed tool name"
  have hallowed : ¬ (¬ fields.allowedToolNames.Nodup ∨ call.name ∉ fields.allowedToolNames) :=
    not_or.2 ⟨not_not.2 h.names_nodup, not_not.2 hname⟩
  unfold toolReadyFields
  rw [hargs, hbase, ok_bind]
  simp only [h.assistant_role, hcalls]
  rw [rejectIf_of_not (not_not.2 hfresh), hnames, ok_bind, ok_bind,
    sortedNames_of_pairwise h.names_sorted, rejectIf_of_not hallowed]
  simp only [requiredOf_text, ok_bind]
  rw [rejectIf_of_not (not_le.2 h.remaining)]
  rfl

/-! ## Its mapping -/

/-- `AgentToolExecutionCheckpoint.to_mapping`. -/
def AgentToolExecutionCheckpoint.toMapping (checkpoint : AgentToolExecutionCheckpoint) :
    Json.Object :=
  Json.merge (checkpoint.toCheckpointFields.toMapping 3 "tool_ready")
    [("assistant", .obj (messageToMapping checkpoint.assistant)),
      ("invocationId", .str checkpoint.invocationId.text),
      ("modelBudgetKey", .str checkpoint.modelBudgetKey.text),
      ("allowedToolNames", .arr (checkpoint.allowedToolNames.map fun name => .str name.text))]

/-- The keys that `to_mapping` adds. -/
def toolReadyKeys : List String :=
  ["assistant", "invocationId", "modelBudgetKey", "allowedToolNames"]

/-- The keys of a mapping, as a set, are those of another one and some more. -/
def SameKeys (value base : Json.Object) (more : List String) : Prop :=
  (∀ p ∈ value, p.1 ∈ base.map Prod.fst ++ more) ∧
    ∀ key ∈ base.map Prod.fst ++ more, key ∈ value.map Prod.fst

instance (value base : Json.Object) (more : List String) : Decidable (SameKeys value base more) :=
  inferInstanceAs (Decidable (_ ∧ _))

/-- `type(value) is int`. -/
def isInt : Json → Bool
  | .int _ => true
  | _ => false

/-- `AgentToolExecutionCheckpoint.from_mapping`. -/
def AgentToolExecutionCheckpoint.fromMapping (value : Json.Object) :
    Except PyError AgentToolExecutionCheckpoint := do
  rejectIf (Json.pyEq (Json.get value "schemaVersion") (.int 3) = false ∨
      Json.pyEq (Json.get value "phase") (.str "tool_ready") = false)
    (.valueError "invalid tool-ready checkpoint")
  match isInt (Json.get value "nextRound") && isInt (Json.get value "roundLimit"),
      Json.get value "allowedToolNames" with
  | true, .arr allowedToolNames => do
    let base ← AgentExecutionCheckpoint.fromMapping py
      (Json.merge value [("schemaVersion", .int 2), ("phase", .str "model_ready")])
    rejectIf (¬ SameKeys value base.toMapping toolReadyKeys)
      (.valueError "invalid tool-ready checkpoint fields")
    match Json.get value "assistant" with
    | .obj raw => do
      let assistant ← messageFromMapping py raw
      AgentToolExecutionCheckpoint.of py base.arguments assistant (Json.get value "invocationId")
        (Json.get value "modelBudgetKey") allowedToolNames
    | _ => .error (.attributeError "object has no attribute 'get'")
  | _, _ => .error (.valueError "invalid tool-ready checkpoint fields")

/-- With the headings of a model-ready checkpoint it is read as one. -/
theorem AgentToolExecutionCheckpoint.baseArguments (checkpoint : AgentToolExecutionCheckpoint) :
    checkpointArguments py (Json.merge checkpoint.toMapping
      [("schemaVersion", .int 2), ("phase", .str "model_ready")]) =
        .ok checkpoint.toCheckpointFields.arguments :=
  checkpointArguments_append py checkpoint.toCheckpointFields _

theorem AgentToolExecutionCheckpoint.sameKeys (checkpoint : AgentToolExecutionCheckpoint)
    (base : AgentExecutionCheckpoint) :
    SameKeys checkpoint.toMapping base.toMapping toolReadyKeys := by
  have hbase : base.toMapping.map Prod.fst = checkpointKeys :=
    base.toCheckpointFields.toMapping_keys 2 "model_ready"
  have hkeys : checkpoint.toMapping.map Prod.fst = checkpointKeys ++ toolReadyKeys := rfl
  unfold SameKeys
  rw [hbase, hkeys]
  refine ⟨fun p hp => ?_, fun key hkey => hkey⟩
  rw [← hkeys]
  exact List.mem_map_of_mem hp

/-- **A tool-ready checkpoint read back from its mapping** is the checkpoint. -/
theorem AgentToolExecutionCheckpoint.fromMapping_toMapping
    (checkpoint : AgentToolExecutionCheckpoint) :
    AgentToolExecutionCheckpoint.fromMapping py checkpoint.toMapping = .ok checkpoint := by
  have hheading : ¬ (Json.pyEq (Json.get checkpoint.toMapping "schemaVersion") (.int 3) = false ∨
      Json.pyEq (Json.get checkpoint.toMapping "phase") (.str "tool_ready") = false) := by
    show ¬ (Json.pyEq (.int 3) (.int 3) = false ∨
      Json.pyEq (.str "tool_ready") (.str "tool_ready") = false)
    decide +kernel
  have hnext : Json.get checkpoint.toMapping "nextRound" = .int checkpoint.nextRound := rfl
  have hlimit : Json.get checkpoint.toMapping "roundLimit" = .int checkpoint.roundLimit := rfl
  have hallowed : Json.get checkpoint.toMapping "allowedToolNames" =
      .arr (checkpoint.allowedToolNames.map fun name => .str name.text) := rfl
  have hassistant : Json.get checkpoint.toMapping "assistant" =
      .obj (messageToMapping checkpoint.assistant) := rfl
  have hinvocation : Json.get checkpoint.toMapping "invocationId" =
      .str checkpoint.invocationId.text := rfl
  have hbudget : Json.get checkpoint.toMapping "modelBudgetKey" =
      .str checkpoint.modelBudgetKey.text := rfl
  have hbase : AgentExecutionCheckpoint.fromMapping py (Json.merge checkpoint.toMapping
      [("schemaVersion", .int 2), ("phase", .str "model_ready")]) =
        .ok ⟨checkpoint.toCheckpointFields, checkpoint.valid.base⟩ := by
    unfold AgentExecutionCheckpoint.fromMapping
    rw [checkpoint.baseArguments, ok_bind]
    exact AgentExecutionCheckpoint.of_eq_ok (checkpointFields_arguments checkpoint.valid.base)
  have hkeys := checkpoint.sameKeys ⟨checkpoint.toCheckpointFields, checkpoint.valid.base⟩
  unfold AgentToolExecutionCheckpoint.fromMapping
  rw [rejectIf_of_not hheading, hnext, hlimit, hallowed, hassistant, hinvocation, hbudget]
  simp only [isInt, Bool.and_self, ok_bind]
  rw [hbase, ok_bind, rejectIf_of_not (not_not.2 hkeys), ok_bind, messageFromMapping_toMapping,
    ok_bind]
  exact AgentToolExecutionCheckpoint.of_eq_ok py (toolReadyFields_self py checkpoint.valid)

end Decoding

end Purra.Contracts
