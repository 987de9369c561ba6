import Purra.Checkpoints.Messages
import Purra.Core.JsonDumps
import Purra.Planning.Contracts

/-!
# Token estimates

The estimates every context budget is computed with (`purra/context_budget.py`): a JSON text
counts half a token per ASCII character, rounded up, and one per other character.  A message is
estimated in the widest form a provider may need, without the bytes of its images; the host's
allowance for these is added apart (`imageInputTokens`).
-/

namespace Purra

variable (py : Builtins)

namespace Context

open Contracts Planning

/-! ## Estimates -/

/-- `_estimate_units`. -/
def estimateUnits (value : List Char) (asciiDivisor : Nat) : Nat :=
  let asciiCount := value.countP (·.toNat < 128)
  let nonAsciiCount := value.length - asciiCount
  nonAsciiCount + (asciiCount + (max 1 asciiDivisor - 1)) / max 1 asciiDivisor

/-- `estimate_json_tokens`. -/
def estimateJsonTokens (value : Json) : Nat := estimateUnits (jsonDumps py value) 2

/-- A row of `estimate_tool_schema_tokens`. -/
def toolSchemaRow (schema : ToolSchema) : Json :=
  .obj [("tool_protocol_type", .str "function"),
    ("function_descriptor", .obj [("tool_function_name", .str schema.name.text),
      ("tool_description", .str schema.description),
      ("tool_parameters_schema", .obj schema.parameters)])]

/-- `estimate_tool_schema_tokens`. -/
def estimateToolSchemaTokens (tools : List ToolSchema) : Nat :=
  match tools.map toolSchemaRow with
  | [] => 0
  | rows => estimateJsonTokens py (.arr rows) + 8 * rows.length

/-! ## Messages -/

/-- The images of a static image envelope. -/
def imagesOf (content : Json) : List Json.Object :=
  match content with
  | .obj fields => (Json.items? (Json.get fields "images")).elim [] Json.objects
  | _ => []

/-- The content of a message for budgeting: an image envelope without the bytes of its images. -/
def budgetContent (content : Json) : Json :=
  match content, parseStaticImageContent content with
  | .obj fields, .ok true =>
    .obj [("type", .str staticImageProfile), ("text", Json.get fields "text"),
      ("images", .arr ((imagesOf content).map fun image =>
        .obj (Json.setField "dataBase64" (.str "") image)))]
  | _, _ => content

/-- A row of `structured_tool_calls`. -/
def toolCallRow (call : Contracts.ToolCall) : Json :=
  .obj [("tool_call_identifier", .str call.id.text), ("tool_protocol_type", .str "function"),
    ("function_descriptor", .obj [("tool_function_name", .str call.name.text),
      ("serialized_arguments_json", .str call.argumentsJson)])]

/-- `_budget_message_mapping`. -/
def budgetMessageMapping (message : AgentMessage) : Json.Object :=
  let value := Json.merge message.attributes
    [("role", .str message.role.value), ("content", budgetContent message.content)]
  let value := match message.reasoning with
    | none => value
    | some reasoning => Json.setField "structured_reasoning_content" (.str reasoning.text) value
  let value := match message.toolCalls with
    | [] => value
    | calls => Json.setField "structured_tool_calls" (.arr (calls.map toolCallRow)) value
  let value := match message.toolCallId with
    | none => value
    | some id => Json.setField "tool_call_identifier" (.str id.text) value
  match message.providerData with
  | [] => value
  | data => Json.setField "provider_continuation_data" (.obj data) value

/-- `image_input_tokens`. -/
def imageInputTokens (content : Json) : Nat :=
  match parseStaticImageContent content with
  | .ok true => ((imagesOf content).map fun image =>
      match Json.get image "inputTokens" with
      | .int tokens => tokens.toNat
      | _ => 0).sum
  | _ => 0

/-- What a message costs in text, as the trimmer counts it. -/
def textCost (message : AgentMessage) : Nat :=
  estimateJsonTokens py (.obj (budgetMessageMapping message)) + 4

/-- What a message costs, images included. -/
def messageCost (message : AgentMessage) : Nat :=
  estimateJsonTokens py (.obj (budgetMessageMapping message)) + imageInputTokens message.content + 4

/-- `estimate_agent_messages_tokens`. -/
def estimateAgentMessagesTokens (messages : List AgentMessage) : Nat :=
  2 + (messages.map (messageCost py)).sum

/-- Builtins for messages and schemas without floats. -/
def noBuiltins : Builtins := ⟨fun _ => "", fun _ => .ok 0⟩

end Context

end Purra
