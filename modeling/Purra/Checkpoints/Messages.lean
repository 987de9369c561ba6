import Purra.Core.Enums
import Purra.Core.Reading

/-!
# Agent messages

The messages of the model loop (`purra/contracts/model.py`, `purra/media.py`), and the
mappings a checkpoint stores them as (`purra/agent_execution_checkpoint.py`).

`AgentMessage` carries the checks of its constructor: a message of a tool names its call,
and static images come from the user and are well formed.  `AgentMessage.of` is the
constructor, with the errors it raises; `messageFromMapping_toMapping` reads a message
back from its mapping.
-/

namespace Purra.Contracts

/-! ## Enumerations -/

/-- `MessageRole`. -/
inductive MessageRole where
  | system | developer | user | assistant | tool
  deriving DecidableEq, Repr

namespace MessageRole

/-- `.value`. -/
def value : MessageRole → String
  | system => "system"
  | developer => "developer"
  | user => "user"
  | assistant => "assistant"
  | tool => "tool"

/-- The members. -/
def all : List MessageRole := [system, developer, user, assistant, tool]

end MessageRole

/-- `MessageOrigin`. -/
inductive MessageOrigin where
  | caller | hostContext | model | hostToolResult
  deriving DecidableEq, Repr

namespace MessageOrigin

/-- `.value`. -/
def value : MessageOrigin → String
  | caller => "caller"
  | hostContext => "host_context"
  | model => "model"
  | hostToolResult => "host_tool_result"

/-- The members. -/
def all : List MessageOrigin := [caller, hostContext, model, hostToolResult]

end MessageOrigin

/-- The member of an enumeration with a value, or `ValueError`. -/
def memberOf {α : Type} (all : List α) (value : α → String) (name text : String) :
    Except PyError α :=
  match all.find? fun a => value a = text with
  | some a => .ok a
  | none => .error (.valueError ("'" ++ text ++ "' is not a valid " ++ name))

/-- `MessageRole(text)`. -/
def MessageRole.of : String → Except PyError MessageRole :=
  memberOf MessageRole.all MessageRole.value "MessageRole"

/-- `MessageOrigin(text)`. -/
def MessageOrigin.of : String → Except PyError MessageOrigin :=
  memberOf MessageOrigin.all MessageOrigin.value "MessageOrigin"

@[simp] theorem MessageRole.of_value (role : MessageRole) : MessageRole.of role.value = .ok role := by
  cases role <;> rfl

@[simp] theorem MessageOrigin.of_value (origin : MessageOrigin) :
    MessageOrigin.of origin.value = .ok origin := by
  cases origin <;> rfl

/-! ## Static images -/

/-- `STATIC_IMAGE_PROFILE`. -/
def staticImageProfile : String := "purra.static-images/v1"

/-- The six bits a base64 character stands for. -/
def base64Value (c : Char) : Option Nat :=
  if 'A' ≤ c ∧ c ≤ 'Z' then some (c.toNat - 65)
  else if 'a' ≤ c ∧ c ≤ 'z' then some (c.toNat - 71)
  else if '0' ≤ c ∧ c ≤ '9' then some (c.toNat + 4)
  else if c = '+' then some 62
  else if c = '/' then some 63
  else none

/-- Decoding and encoding again gives the text: whole groups of four characters, the last one padded
and with no bits left over. -/
def canonicalBase64 (data : String) : Bool :=
  let body := data.toList.reverse.dropWhile (· = '=')
  let padding := data.length - body.length
  let spare := match body with
    | [] => 0
    | c :: _ => (base64Value c).getD 0
  data.length % 4 = 0 && body.all (fun c => (base64Value c).isSome) &&
    (padding = 0 || (padding = 1 && spare % 4 = 0) || (padding = 2 && spare % 16 = 0))

/-- The largest integer a JSON number holds exactly. -/
def maxSafeInteger : Int := 2 ^ 53 - 1

/-- The checks on one image, with the tokens of those before it. -/
def checkImage (total : Int) (item : Json) : Except PyError Int :=
  match item with
  | .obj fields =>
    if ¬ (fields.map Prod.fst).Perm ["mediaType", "dataBase64", "inputTokens"] then
      .error (.valueError "Invalid static image fields")
    else if ¬ ["image/png", "image/jpeg", "image/webp"].any
        (fun media => Json.pyEq (Json.get fields "mediaType") (.str media)) then
      .error (.valueError "Unsupported static image media type")
    else match Json.get fields "dataBase64", Json.get fields "inputTokens" with
      | .str data, .int tokens =>
        if data = "" ∨ canonicalBase64 data = false then
          .error (.valueError "Static image data must be canonical base64")
        else if tokens ≤ 0 ∨ maxSafeInteger < tokens then
          .error (.valueError "Static image inputTokens must be a positive safe integer")
        else if maxSafeInteger < total + tokens then
          .error (.valueError "Static image token allowance exceeds safe integer range")
        else .ok (total + tokens)
      | .str data, _ =>
        if data = "" ∨ canonicalBase64 data = false then
          .error (.valueError "Static image data must be canonical base64")
        else .error (.valueError "Static image inputTokens must be a positive safe integer")
      | _, _ => .error (.valueError "Static image data must be canonical base64")
  | _ => .error (.valueError "Invalid static image fields")

/-- `parse_static_image_content`, without the copy it returns: the content is a well-formed image
envelope, or unrelated JSON. -/
def parseStaticImageContent (content : Json) : Except PyError Bool :=
  match content with
  | .obj fields =>
    if Json.pyEq (Json.get fields "type") (.str staticImageProfile) = false then .ok false
    else match (fields.map Prod.fst).isPerm ["type", "text", "images"], Json.get fields "text",
        Json.get fields "images" with
      | true, .str _, .arr (image :: images) => do
        let _ ← (image :: images).foldlM checkImage 0
        .ok true
      | true, .str _, _ => .error (.valueError "Static image content requires images")
      | _, _, _ => .error (.valueError "Invalid static image content")
  | _ => .ok false

/-! ## Messages -/

/-- `ToolCall`. -/
structure ToolCall where
  id : RequiredText
  name : RequiredText
  argumentsJson : String
  deriving DecidableEq, Repr

/-- `ToolCall.__post_init__`. -/
def ToolCall.of (id name argumentsJson : String) : Except PyError ToolCall := do
  let id ← RequiredText.of id "tool call id"
  let name ← RequiredText.of name "tool call name"
  .ok ⟨id, name, argumentsJson⟩

/-- The fields of `AgentMessage`. -/
structure MessageFields where
  role : MessageRole
  content : Json := .null
  reasoning : Option RequiredText := none
  toolCalls : List ToolCall := []
  toolCallId : Option RequiredText := none
  origin : MessageOrigin := .caller
  attributes : Json.Object := []
  hostMetadata : Json.Object := []
  providerData : Json.Object := []

/-- What `AgentMessage.__post_init__` lets through. -/
structure MessageFields.Valid (fields : MessageFields) : Prop where
  images : parseStaticImageContent fields.content = .ok false ∨
    parseStaticImageContent fields.content = .ok true ∧ fields.role = .user
  tool_id : fields.role = .tool → fields.toolCallId ≠ none

/-- `AgentMessage`. -/
structure AgentMessage extends MessageFields where
  valid : toMessageFields.Valid

/-- `AgentMessage.__post_init__`, on fields that are normalised one by one. -/
def AgentMessage.of (fields : MessageFields) : Except PyError AgentMessage :=
  match himage : parseStaticImageContent fields.content with
  | .error e => .error e
  | .ok image =>
    if huser : image = true ∧ fields.role ≠ .user then
      .error (.valueError "Static images require user role")
    else if htool : fields.role = .tool ∧ fields.toolCallId = none then
      .error (.valueError "tool message requires tool_call_id")
    else .ok ⟨fields, by
      cases image with
      | false => exact Or.inl himage
      | true => exact Or.inr ⟨himage, not_not.1 fun h => huser ⟨rfl, h⟩⟩,
      fun hrole hid => htool ⟨hrole, hid⟩⟩

/-- Building a message again from its own fields gives the message. -/
theorem AgentMessage.of_self (message : AgentMessage) : AgentMessage.of message.toMessageFields =
    .ok message := by
  unfold AgentMessage.of
  have htool : ¬ (message.role = .tool ∧ message.toolCallId = none) :=
    fun h => message.valid.tool_id h.1 h.2
  split
  · rename_i e he
    rcases message.valid.images with h | h
    · rw [h] at he
      cases he
    · rw [h.1] at he
      cases he
  · rename_i image himage
    have huser : ¬ (image = true ∧ message.role ≠ .user) := by
      rintro ⟨rfl, hrole⟩
      rcases message.valid.images with h | h
      · rw [h] at himage
        cases himage
      · exact hrole h.2
    rw [dif_neg huser, dif_neg htool]

/-! ## Mappings -/

/-- A tool call in a message's mapping. -/
def ToolCall.toMapping (call : ToolCall) : Json.Object :=
  [("id", .str call.id.text), ("name", .str call.name.text),
    ("argumentsJson", .str call.argumentsJson)]

/-- `_message_to_mapping`. -/
def messageToMapping (message : AgentMessage) : Json.Object :=
  [("role", .str message.role.value),
    ("content", message.content),
    ("reasoning", Json.optionalStr (message.reasoning.map (·.text))),
    ("toolCalls", .arr (message.toolCalls.map fun call => .obj call.toMapping)),
    ("toolCallId", Json.optionalStr (message.toolCallId.map (·.text))),
    ("origin", .str message.origin.value),
    ("attributes", .obj message.attributes),
    ("hostMetadata", .obj message.hostMetadata),
    ("providerData", .obj message.providerData)]

variable (py : Builtins)

/-- `str(value.get(key) or default)`. -/
def textOr (value : Json.Object) (key : String) (default : String := "") : String :=
  py.str (Json.orElse (Json.get value key) (.str default))

/-- `_mapping`. -/
def mappingOf (value : Json) (label : String) : Except PyError Json.Object :=
  match value with
  | .null => .ok []
  | .obj fields => .ok fields
  | _ => .error (.typeError (label ++ " must be an object"))

/-- `value.get(key) or ()`, which must be a list or a tuple. -/
def sequenceOf (value : Json.Object) (key message : String) : Except PyError (List Json) :=
  match Json.orElse (Json.get value key) (.arr []) with
  | .arr items => .ok items
  | _ => .error (.typeError message)

/-- A tool call read from a message's mapping. -/
def ToolCall.fromMapping (item : Json.Object) : Except PyError ToolCall :=
  ToolCall.of (textOr py item "id") (textOr py item "name") (textOr py item "argumentsJson")

/-- `_message_from_mapping`. -/
def messageFromMapping (value : Json.Object) : Except PyError AgentMessage := do
  let rawCalls ← sequenceOf value "toolCalls" "checkpoint tool calls must be a sequence"
  let role ← MessageRole.of (textOr py value "role")
  let toolCalls ← (Json.objects rawCalls).mapM (ToolCall.fromMapping py)
  let origin ← MessageOrigin.of (textOr py value "origin" "caller")
  let attributes ← mappingOf (Json.get value "attributes") "checkpoint attributes"
  let providerData ← mappingOf (Json.get value "providerData") "checkpoint provider data"
  let hostMetadata ← mappingOf (Json.get value "hostMetadata") "checkpoint host metadata"
  AgentMessage.of
    { role
      content := Json.get value "content"
      reasoning := RequiredText.optional (Json.toOptionalStr py (Json.get value "reasoning"))
      toolCalls
      toolCallId := RequiredText.optional (Json.toOptionalStr py (Json.get value "toolCallId"))
      origin
      attributes
      hostMetadata
      providerData }

@[simp] theorem mappingOf_obj (fields : Json.Object) (label : String) :
    mappingOf (.obj fields) label = .ok fields := rfl

theorem sequenceOf_arr {value : Json.Object} {key message : String} {items : List Json}
    (h : Json.get value key = .arr items) : sequenceOf value key message = .ok items := by
  simp only [sequenceOf, h, Json.orElse_arr]

theorem optional_map_text (t : Option RequiredText) :
    RequiredText.optional (t.map (·.text)) = t := by
  cases t with
  | none => rfl
  | some t =>
    have hne : strip t.text ≠ "" := by
      rw [t.stripped]
      exact t.nonblank
    simp only [Option.map_some, RequiredText.optional, dif_neg hne]
    exact congrArg some (RequiredText.ext t.stripped)

theorem ToolCall.fromMapping_toMapping (call : ToolCall) :
    ToolCall.fromMapping py call.toMapping = .ok call := by
  simp [ToolCall.fromMapping, ToolCall.toMapping, textOr, Json.get, Json.field?, ToolCall.of]
  rfl

/-- The reader of a value written as non-empty text. -/
theorem textOr_of_ne {value : Json.Object} {key default text : String}
    (h : Json.get value key = .str text) (hne : text ≠ "") :
    textOr py value key default = text := by
  simp [textOr, h, Json.orElse, Json.truthy, hne]

/-- **A message read back from its mapping** is the message. -/
theorem messageFromMapping_toMapping (message : AgentMessage) :
    messageFromMapping py (messageToMapping message) = .ok message := by
  have hrole : textOr py (messageToMapping message) "role" = message.role.value :=
    textOr_of_ne py rfl (by cases message.role <;> decide)
  have horigin : textOr py (messageToMapping message) "origin" "caller" = message.origin.value :=
    textOr_of_ne py rfl (by cases message.origin <;> decide)
  have hcalls : sequenceOf (messageToMapping message) "toolCalls"
      "checkpoint tool calls must be a sequence" =
      .ok (message.toolCalls.map fun call => .obj call.toMapping) :=
    sequenceOf_arr rfl
  have hread : (message.toolCalls.map ToolCall.toMapping).mapM (ToolCall.fromMapping py) =
      .ok message.toolCalls :=
    mapM_map_eq (ToolCall.fromMapping_toMapping py) message.toolCalls
  have hattributes : Json.get (messageToMapping message) "attributes" = .obj message.attributes := rfl
  have hprovider : Json.get (messageToMapping message) "providerData" =
      .obj message.providerData := rfl
  have hhost : Json.get (messageToMapping message) "hostMetadata" = .obj message.hostMetadata := rfl
  have hcontent : Json.get (messageToMapping message) "content" = message.content := rfl
  have hreasoning : Json.get (messageToMapping message) "reasoning" =
      Json.optionalStr (message.reasoning.map (·.text)) := rfl
  have hid : Json.get (messageToMapping message) "toolCallId" =
      Json.optionalStr (message.toolCallId.map (·.text)) := rfl
  unfold messageFromMapping
  rw [hcalls, hrole, horigin, hattributes, hprovider, hhost, hcontent, hreasoning, hid]
  simp only [Json.toOptionalStr_optionalStr, optional_map_text, Json.objects_map_obj, hread,
    MessageRole.of_value, MessageOrigin.of_value, mappingOf_obj, ok_bind]
  exact AgentMessage.of_self message

end Purra.Contracts
