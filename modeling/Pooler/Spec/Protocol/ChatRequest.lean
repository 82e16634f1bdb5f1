import Pooler.Spec.Protocol.Model
import Pooler.Spec.Protocol.Report

/-! Requests of the Chat Completions endpoint: semantic requests become JSON bodies and back. -/

namespace Pooler

open Lib

variable [Platform]

namespace OpenAiChat

open Journal (note noteIf fail)

abbrev Convert := Journal Note OpenAiChatError

def unknownFieldsNamespace : String := "openai.chat"

def unknownFieldsName : String := "unknown_request_fields"

def unknownFieldsExtension : String := "openai.chat.unknown_request_fields"

/-! ### Encoding -/

variable (field : String)

def reportUnrepresentableExtensions (extensions : Extensions) : Convert Unit :=
  noteIf (!extensions.isEmpty)
    (.unsupportedRequired field "OpenAI Chat has no representation for this provider-specific state")

def textPart (text : String) : Json := .ofFields [("type", .string "text"), ("text", .string text)]

def startsWith (start value : String) : Bool := start.toList.isPrefixOf value.toList

def encodeFile (name : Option String) : MediaSource → Convert Json
  | .uri uri =>
    let source := if startsWith "data:" uri then "file_data" else "file_id"
    let file := (Assoc.ofList [(source, Json.string uri)]).insertSome "filename" (name.map .string)
    pure (.ofFields [("type", .string "file"), ("file", .object file)])
  | .inline _ => do
    note (.unsupportedRequired "input.file" "inline files need a provider file ID or data URI")
    let file := Assoc.insertSome [] "filename" (name.map Json.string)
    pure (.ofFields [("type", .string "file"), ("file", .object file)])

def audioFormat (mediaType : String) : String :=
  .ofList (trimStartMatches "audio/".toList mediaType.toList.length mediaType.toList)

def encodeAudio (mediaType : String) : MediaSource → Convert (String × String)
  | .uri uri =>
    match stripPrefix "data:audio/".toList uri.toList with
    | some rest =>
      match splitOnceAt ";base64,".toList rest with
      | some (format, data) => pure (.ofList format, .ofList data)
      | none => fail (.invalidValue "input_audio" "audio data URI must use ;base64")
    | none => do
      note (.unsupportedRequired "input.audio" "OpenAI Chat audio input requires a base64 data URI")
      pure (audioFormat mediaType, uri)
  | .inline bytes => pure (audioFormat mediaType, encodeBase64 bytes)

def encodeContentPart : ContentPart → Convert Json
  | .text text => pure (textPart text)
  | .image mediaType source detail =>
    let image := (Assoc.ofList [("url", Json.string (encodeMediaSource mediaType source))]).insertSome "detail"
      (detail.map .string)
    pure (.ofFields [("type", .string "image_url"), ("image_url", .object image)])
  | .file name _ source => encodeFile name source
  | .audio mediaType source => do
    let audio ← encodeAudio mediaType source
    pure (.ofFields [("type", .string "input_audio"),
      ("input_audio", .ofFields [("format", .string audio.1), ("data", .string audio.2)])])
  | .reasoning _ => do
    note (.dropOptional "message.reasoning" "OpenAI Chat has no standard reasoning input part")
    pure (textPart "")
  | .toolCall _ | .toolResult _ => fail (.unsupportedEvent "tool content must be encoded by its message owner")
  | .provider nameSpace name data =>
    if nameSpace = unknownFieldsNamespace then do
      note (.preserveCapability s!"openai.chat.content.{name}")
      pure data.value
    else do
      note (.unsupportedRequired s!"content.provider.{nameSpace}.{name}"
        "provider content has no OpenAI Chat representation")
      pure (textPart "")

def encodeToolCall (call : ToolCall) : Convert Json := do
  noteIf (!call.dependencies.isEmpty)
    (.unsupportedRequired "tool_call.dependencies" "OpenAI Chat has no tool-call dependency representation")
  reportUnrepresentableExtensions "tool_call.extensions" call.extensions
  pure (.ofFields [("id", .string call.id), ("type", .string "function"),
    ("function", .ofFields [("name", .string call.name),
      ("arguments", .string (fromUtf8Lossy call.arguments.toBytes))])])

/-- A single text stands for itself; other content is an array of parts. -/
def messageContent : List Json → Json
  | [] => .null
  | [.object part] =>
    if Assoc.get part "type" = some (.string "text") then (Assoc.get part "text").getD (.array [.object part])
    else .array [.object part]
  | content => .array content

def jsonMessage (role : String) (content : List Json) (name id : Option String) : Assoc String Json :=
  ((Assoc.ofList [("role", .string role), ("content", messageContent content)]).insertSome "name"
    (name.map .string)).insertSome "id" (id.map .string)

def encodeToolResultContent : List ContentPart → Convert Json
  | [.text text] => pure (.string text)
  | content => do
    let parts ← content.mapM encodeContentPart
    pure (.array parts)

def encodeToolResultMessage (result : ToolResult) : Convert Json := do
  reportUnrepresentableExtensions "tool_result.extensions" result.extensions
  noteIf result.isError (.dropOptional "tool_result.is_error" "OpenAI Chat has no standard tool-result error flag")
  let content ← encodeToolResultContent result.content
  pure (.object (((jsonMessage "tool" [] none none).insert "tool_call_id" (.string result.toolCallId)).insert
    "content" content))

def encodeToolCallMessage (call : ToolCall) : Convert Json := do
  let value ← encodeToolCall call
  pure (.object ((jsonMessage "assistant" [] none none).insert "tool_calls" (.array [value])))

/-- The parts of a message and its tool calls, each in their order. -/
def encodeMessageParts : List ContentPart → Convert (List Json × List Json)
  | [] => pure ([], [])
  | .toolCall call :: parts => do
    let value ← encodeToolCall call
    let rest ← encodeMessageParts parts
    pure (rest.1, value :: rest.2)
  | .toolResult _ :: parts => do
    note (.unsupportedRequired "message.content.tool_result"
      "tool results must be standalone tool messages in OpenAI Chat")
    encodeMessageParts parts
  | part :: parts => do
    let value ← encodeContentPart part
    let rest ← encodeMessageParts parts
    pure (value :: rest.1, rest.2)

def roleName : Role → String
  | .system => "system"
  | .developer => "developer"
  | .user => "user"
  | .assistant => "assistant"
  | .tool => "tool"

def encodeToolMessage (message : Message) : Convert Json :=
  match message.toolCallId with
  | none => fail (.invalidValue "message.tool_call_id" "tool messages require an invocation ID")
  | some toolCallId => encodeToolResultMessage ⟨toolCallId, message.content, false, []⟩

def encodeMessage (message : Message) : Convert Json := do
  noteIf (!message.metadata.entries.isEmpty)
    (.dropOptional "message.metadata" "OpenAI Chat has no per-message metadata field")
  reportUnrepresentableExtensions "message.extensions" message.extensions
  noteIf (message.role ≠ .tool && message.toolCallId.isSome)
    (.unsupportedRequired "message.tool_call_id" "OpenAI Chat only accepts tool_call_id on tool messages")
  if message.role = .tool then encodeToolMessage message
  else do
    let parts ← encodeMessageParts message.content
    let object := jsonMessage (roleName message.role) parts.1 message.name message.id
    pure (.object (object.insertSome "tool_calls" (if parts.2.isEmpty then none else some (.array parts.2))))

def encodeInputItem : InputItem → Convert Json
  | .message message => encodeMessage message
  | .toolCall call => encodeToolCallMessage call
  | .toolResult result => encodeToolResultMessage result
  | .content part => do
    let value ← encodeContentPart part
    pure (.object (jsonMessage "user" [value] none none))
  | .provider nameSpace name _ => do
    note (.unsupportedRequired s!"input.provider.{nameSpace}.{name}"
      "OpenAI Chat has no generic provider item representation")
    pure (.object (jsonMessage "user" [] none none))

def encodeToolDefinition (definition : ToolDefinition) : Convert Json := do
  reportUnrepresentableExtensions "tool_definition.extensions" definition.extensions
  let function := Assoc.ofList [("name", Json.string definition.name)]
  let function := function.insertSome "description" (definition.description.map .string)
  let function := function.insertSome "parameters" (definition.parameters.map (·.value))
  let function := function.insertSome "strict" (definition.strict.map .bool)
  pure (.ofFields [("type", .string "function"), ("function", .object function)])

def encodeToolChoice : ToolChoice → Json
  | .auto => .string "auto"
  | .none => .string "none"
  | .required => .string "required"
  | .tool name => .ofFields [("type", .string "function"), ("function", .ofFields [("name", .string name)])]

def encodeStop : List String → Option Json
  | [] => none
  | [stop] => some (.string stop)
  | stops => some (.array (stops.map .string))

def encodeResponseFormat : ResponseFormat → Json
  | .text => .ofFields [("type", .string "text")]
  | .jsonObject => .ofFields [("type", .string "json_object")]
  | .jsonSchema name schema strict => .ofFields [("type", .string "json_schema"),
      ("json_schema", .ofFields [("name", .string name), ("schema", schema.value), ("strict", .bool strict)])]

variable (object : Assoc String Json) (sampling : SamplingParameters)

def insertSampling (dialect : ModelDialect) :
    Assoc String Json :=
  let temperature := if dialect.temperature = .accepted then sampling.temperature else none
  let object := object.insertSome "temperature" (temperature.map .ofF32)
  let object := object.insertSome "top_p" (sampling.topP.map .ofF32)
  let object := object.insertSome "max_tokens" (sampling.maxOutputTokens.map fun n => .number (.posInt n.toUInt64))
  let object := object.insertSome "stop" (encodeStop sampling.stop)
  let object := object.insertSome "seed" (sampling.seed.map fun n => .number (.posInt n))
  let object := object.insertSome "presence_penalty" (sampling.presencePenalty.map .ofF32)
  object.insertSome "frequency_penalty" (sampling.frequencyPenalty.map .ofF32)

def reportSampling (dialect : ModelDialect) : Convert Unit := do
  reportUnrepresentableExtensions "sampling.extensions" sampling.extensions
  noteIf (sampling.temperature.isSome && dialect.temperature ≠ .accepted)
    (.dropOptional "sampling.temperature" "the target model rejects the temperature parameter")

def reportReasoning : Option ReasoningConfig → Convert Unit
  | none => pure ()
  | some reasoning => do
    noteIf reasoning.includeSummary
      (.dropOptional "reasoning.include_summary" "OpenAI Chat has no standard reasoning summary control")
    reportUnrepresentableExtensions "reasoning.extensions" reasoning.extensions

def encodeMetadata (metadata : OrderedMap String String) : Option Json :=
  if metadata.entries.isEmpty then none
  else some (.object (metadata.entries.map fun entry => (entry.1, .string entry.2)))

/-- A preserved field, unless the request has the field itself. -/
def mergeField (key : String) (merged : Assoc String Json × Bool) (field : String × Json) :
    Convert (Assoc String Json × Bool) :=
  if merged.1.contains field.1 then do
    note (.dropOptional s!"{key}.{field.1}" s!"canonical field `{field.1}` wins over preserved field")
    pure merged
  else pure (merged.1.insert field.1 field.2, true)

def mergeExtension (entry : ExtensionKey × OpaqueExtension) :
    Convert (Assoc String Json) :=
  let key := entry.1.asStr
  if key ≠ unknownFieldsExtension then do
    note (.unsupportedRequired s!"extension.{key}" "OpenAI Chat cannot serialize this semantic extension")
    pure object
  else do
    let value ← orError OpenAiChatError.invalidJson (fromSlice entry.2.bytes)
    let fields ← orError (OpenAiChatError.invalidExtension key) value.asObject
    let merged ← fields.foldlM (mergeField key) (object, false)
    noteIf merged.2 (.preserveCapability key)
    pure merged.1

def mergeUnknownFields (extensions : Extensions) : Convert (Assoc String Json) :=
  extensions.foldlM mergeExtension object

variable (request : SemanticRequest)

/-- The fields that the request itself fills. -/
def requestFields (dialect : ModelDialect) (messages tools : List Json) :
    Assoc String Json :=
  let object := Assoc.ofList [("model", .string request.model), ("messages", .array messages)]
  let object := object.insertSome "tools" (if tools.isEmpty then none else some (.array tools))
  let object := object.insertSome "tool_choice" (request.toolChoice.map encodeToolChoice)
  let object := insertSampling object request.sampling dialect
  let object := object.insertSome "response_format" (request.responseFormat.map encodeResponseFormat)
  let effort := request.reasoning.bind (·.effort)
  let object := object.insertSome "reasoning_effort" (effort.map fun effort => .string (reasoningEffortName effort))
  object.insertSome "metadata" (encodeMetadata request.metadata)

def encodeObject (dialect : ModelDialect) : Convert (Assoc String Json) := do
  let messages ← request.input.mapM encodeInputItem
  noteIf messages.isEmpty (.unsupportedRequired "input" "OpenAI Chat requires at least one message")
  let tools ← request.tools.mapM encodeToolDefinition
  noteIf request.target.isSome
    (.dropOptional "target" "routing target metadata is not part of an OpenAI Chat request")
  noteIf request.continuationId.isSome
    (.dropOptional "continuation_id" "OpenAI Chat has no portable continuation field")
  noteIf request.sessionId.isSome (.dropOptional "session_id" "OpenAI Chat has no portable session field")
  reportSampling request.sampling dialect
  reportReasoning request.reasoning
  noteIf request.cache.isSome (.dropOptional "cache" "OpenAI Chat has no portable prompt-cache control")
  mergeUnknownFields (requestFields request dialect messages tools) request.extensions

structure EncodedChatRequest where
  body : List UInt8
  report : ConversionReport

def encodeChatRequestWithDialect (policy : LossPolicy) (dialect : ModelDialect) :
    Except OpenAiChatError EncodedChatRequest := do
  request.validate.mapError .requestValidation
  let encoded ← (encodeObject request dialect).run
  let report := ConversionReport.ofNotes encoded.2
  (report.validate policy).mapError .conversion
  .ok ⟨toVec (.object encoded.1), report⟩

def encodeChatRequest (policy : LossPolicy) :
    Except OpenAiChatError EncodedChatRequest :=
  encodeChatRequestWithDialect request policy .default

/-! ### Decoding -/

def reportUnknownFields (known : List String) (field : String) : Convert Unit :=
  object.forM fun entry => noteIf (!known.contains entry.1)
    (.dropOptional s!"{field}.{entry.1}" "OpenAI Chat field is not represented by the semantic model")

def objectAt (key field : String) : Except OpenAiChatError (Assoc String Json) :=
  shape field "an object" ((object.get key).bind Json.asObject)

def parseImage (object : Assoc String Json) : Convert ContentPart := do
  reportUnknownFields object ["type", "image_url"] field
  let image ← objectAt object "image_url" s!"{field}.image_url"
  reportUnknownFields image ["url", "detail"] s!"{field}.image_url"
  let url ← requiredString image "url" s!"{field}.image_url.url"
  let detail ← optionalString image "detail" s!"{field}.image_url.detail"
  pure (.image "image/*" (.uri url) detail)

def parseAudio (object : Assoc String Json) : Convert ContentPart := do
  reportUnknownFields object ["type", "input_audio"] field
  let audio ← objectAt object "input_audio" s!"{field}.input_audio"
  reportUnknownFields audio ["format", "data"] s!"{field}.input_audio"
  let format ← requiredString audio "format" s!"{field}.input_audio.format"
  let data ← requiredString audio "data" s!"{field}.input_audio.data"
  pure (.audio s!"audio/{format}" (.uri s!"data:audio/{format};base64,{data}"))

def parseFile (object : Assoc String Json) : Convert ContentPart := do
  reportUnknownFields object ["type", "file"] field
  let file ← objectAt object "file" s!"{field}.file"
  reportUnknownFields file ["file_id", "file_data", "filename"] s!"{field}.file"
  let source ← orError (OpenAiChatError.missingField s!"{field}.file.file_id or file_data")
    ((file.get "file_id" <|> file.get "file_data").bind Json.asStr)
  let filename ← optionalString file "filename" s!"{field}.file.filename"
  pure (.file filename "application/octet-stream" (.uri source))

def parseText (object : Assoc String Json) : Convert ContentPart := do
  reportUnknownFields object ["type", "text"] field
  let text ← requiredString object "text" field
  pure (.text text)

def parseProvider (kind : String) (value : Json) : Convert ContentPart := do
  noteIf (kind ≠ "refusal") (.preserveCapability s!"openai.chat.content.{kind}")
  pure (.provider unknownFieldsNamespace kind (.fromValue value))

def parsePartOf (object : Assoc String Json) : String → Convert ContentPart
  | "text" => parseText field object
  | "image_url" => parseImage field object
  | "input_audio" => parseAudio field object
  | "file" => parseFile field object
  | kind => parseProvider kind (.object object)

variable (value : Json)

def parseContentPart : Convert ContentPart := do
  let object ← shape field "an object" value.asObject
  let kind ← requiredString object "type" s!"{field}.type"
  parsePartOf field object kind

def parseContent : Json → Convert (List ContentPart)
  | .null => pure []
  | .string text => pure [.text text]
  | value => do
    let parts ← shape field "a string, null, or an array" value.asArray
    parts.zipIdx.mapM fun part => parseContentPart s!"{field}[{part.2}]" part.1

def parseToolCall : Convert ToolCall := do
  let object ← shape field "an object" value.asObject
  reportUnknownFields object ["id", "type", "function"] field
  let id ← requiredString object "id" s!"{field}.id"
  let function ← objectAt object "function" s!"{field}.function"
  reportUnknownFields function ["name", "arguments"] s!"{field}.function"
  let name ← requiredString function "name" s!"{field}.function.name"
  let arguments ← requiredString function "arguments" s!"{field}.function.arguments"
  let arguments ← orError (OpenAiChatError.invalidValue s!"{field}.function.arguments" "invalid JSON")
    (PreservedJson.fromStr arguments)
  pure (.new id name arguments)

def parseToolCalls (object : Assoc String Json) : Convert (List ContentPart) :=
  match object.get "tool_calls" with
  | none => pure []
  | some value => do
    let calls ← shape s!"{field}.tool_calls" "an array" value.asArray
    calls.zipIdx.mapM fun call => ContentPart.toolCall <$> parseToolCall s!"{field}.tool_calls[{call.2}]" call.1

/-- A message of the given role, with the fields that every message may have. -/
def parseEnvelope (object : Assoc String Json) (known : List String) (role : Role)
    (content : List ContentPart) : Convert InputItem := do
  reportUnknownFields object known field
  let id ← optionalString object "id" s!"{field}.id"
  let name ← optionalString object "name" s!"{field}.name"
  pure (.message ⟨id, role, content, name, none, .empty, []⟩)

def parseAssistant (object : Assoc String Json) (content : List ContentPart) : Convert InputItem := do
  let calls ← parseToolCalls field object
  parseEnvelope field object ["role", "content", "id", "name", "tool_calls"] .assistant (content ++ calls)

def parseToolMessage (object : Assoc String Json) (content : List ContentPart) :
    Convert InputItem := do
  reportUnknownFields object ["role", "content", "tool_call_id"] field
  let toolCallId ← requiredString object "tool_call_id" s!"{field}.tool_call_id"
  pure (.toolResult ⟨toolCallId, content, false, []⟩)

def parseMessageOf (object : Assoc String Json) (content : List ContentPart) :
    String → Convert InputItem
  | "system" => parseEnvelope field object ["role", "content", "id", "name"] .system content
  | "developer" => parseEnvelope field object ["role", "content", "id", "name"] .developer content
  | "user" => parseEnvelope field object ["role", "content", "id", "name"] .user content
  | "assistant" => parseAssistant field object content
  | "tool" => parseToolMessage field object content
  | other => fail (.invalidValue s!"{field}.role" s!"unsupported role `{other}`")

def parseMessage (index : ℕ) (value : Json) : Convert InputItem := do
  let field := s!"messages[{index}]"
  let object ← shape field "an object" value.asObject
  let role ← requiredString object "role" s!"{field}.role"
  let content ← parseContent s!"{field}.content" ((object.get "content").getD .null)
  parseMessageOf field object content role

def parseTool (index : ℕ) (value : Json) : Convert ToolDefinition := do
  let field := s!"tools[{index}]"
  let object ← shape field "an object" value.asObject
  reportUnknownFields object ["type", "function"] field
  let kind ← optionalString object "type" s!"{field}.type"
  if kind.any (· ≠ "function") then fail (.invalidValue s!"{field}.type" "only function tools are supported")
  else do
    let function ← objectAt object "function" s!"{field}.function"
    reportUnknownFields function ["name", "parameters", "description", "strict"] s!"{field}.function"
    let name ← requiredString function "name" s!"{field}.function.name"
    let description ← optionalString function "description" s!"{field}.function.description"
    let strict ← optionalBool function "strict" s!"{field}.function.strict"
    pure ⟨name, description, (function.get "parameters").map .fromValue, strict, []⟩

def parseTools : Option Json → Convert (List ToolDefinition)
  | none => pure []
  | some value => do
    let tools ← shape "tools" "an array" value.asArray
    tools.zipIdx.mapM fun tool => parseTool tool.2 tool.1

def parseNamedChoice : Convert ToolChoice := do
  let object ← shape "tool_choice" "a string or object" value.asObject
  reportUnknownFields object ["type", "function"] "tool_choice"
  let kind ← optionalString object "type" "tool_choice.type"
  if kind ≠ some "function" then fail (.invalidValue "tool_choice.type" "only function tool choices are supported")
  else do
    let function ← objectAt object "function" "tool_choice.function"
    reportUnknownFields function ["name"] "tool_choice.function"
    let name ← requiredString function "name" "tool_choice.function.name"
    pure (.tool name)

def parseToolChoice : Json → Convert ToolChoice
  | .string choice =>
    match choice with
    | "auto" => pure .auto
    | "none" => pure .none
    | "required" => pure .required
    | _ => fail (.invalidValue "tool_choice" "expected auto, none, or required")
  | value => parseNamedChoice value

variable (key : String)

def takeF32 : Except OpenAiChatError (Option F32) :=
  match object.get key with
  | none => .ok none
  | some value => do
    let number ← shape key "a number" value.asF64
    if number.isFinite && number.inF32Range then .ok (some (f64ToF32 number))
    else .error (.invalidValue key "number is outside the supported range")

def takeU64 : Except OpenAiChatError (Option UInt64) :=
  match object.get key with
  | none => .ok none
  | some value => some <$> shape key "an unsigned integer" value.asU64

def asU32 (field : String) : Except OpenAiChatError UInt32 := do
  let number ← shape field "an unsigned integer" value.asU64
  if number.toNat < 2 ^ 32 then .ok number.toUInt32 else .error (.invalidValue field "number is too large")

def takeU32 : Except OpenAiChatError (Option UInt32) :=
  match object.get key with
  | none => .ok none
  | some value => some <$> asU32 value key

def parseMaxTokens : Except OpenAiChatError (Option UInt32) := do
  let maxTokens ← takeU32 object "max_tokens"
  if maxTokens.isSome && object.contains "max_completion_tokens" then
    .error (.conflictingFields "max_tokens" "max_completion_tokens")
  else do
    let maxCompletionTokens ← takeU32 object "max_completion_tokens"
    .ok (maxTokens <|> maxCompletionTokens)

def parseStop : Option Json → Except OpenAiChatError (List String)
  | none => .ok []
  | some (.string stop) => .ok [stop]
  | some value => do
    let stops ← shape "stop" "a string or array of strings" value.asArray
    stops.zipIdx.mapM fun stop => shape s!"stop[{stop.2}]" "a string" stop.1.asStr

def parseSampling : Except OpenAiChatError SamplingParameters := do
  let temperature ← takeF32 object "temperature"
  let topP ← takeF32 object "top_p"
  let maxOutputTokens ← parseMaxTokens object
  let stop ← parseStop (object.get "stop")
  let seed ← takeU64 object "seed"
  let presencePenalty ← takeF32 object "presence_penalty"
  let frequencyPenalty ← takeF32 object "frequency_penalty"
  .ok ⟨temperature, topP, maxOutputTokens, stop, seed, presencePenalty, frequencyPenalty, []⟩

def parseJsonSchema (value : Assoc String Json) : Convert ResponseFormat := do
  let schema ← objectAt value "json_schema" "response_format.json_schema"
  reportUnknownFields schema ["name", "schema", "strict"] "response_format.json_schema"
  let name ← requiredString schema "name" "response_format.json_schema.name"
  let document ← orError (OpenAiChatError.missingField "response_format.json_schema.schema") (schema.get "schema")
  let strict ← optionalBool schema "strict" "response_format.json_schema.strict"
  pure (.jsonSchema name (.fromValue document) (strict.getD false))

def parseFormatOf (value : Assoc String Json) : String → Convert ResponseFormat
  | "text" => pure .text
  | "json_object" => pure .jsonObject
  | "json_schema" => parseJsonSchema value
  | other => fail (.invalidValue "response_format.type" s!"unsupported type `{other}`")

def parseResponseFormat : Option Json → Convert (Option ResponseFormat)
  | none => pure none
  | some value => do
    let value ← shape "response_format" "an object" value.asObject
    reportUnknownFields value ["type", "json_schema"] "response_format"
    let kind ← requiredString value "type" "response_format.type"
    some <$> parseFormatOf value kind

def parseReasoning : Option Json → Except OpenAiChatError (Option ReasoningConfig)
  | none => .ok none
  | some value => do
    let effort ← shape "reasoning_effort" "a string" value.asStr
    .ok (some ⟨some (parseReasoningEffort effort), false, []⟩)

def parseMetadata : Option Json → Except OpenAiChatError (OrderedMap String String)
  | none => .ok .empty
  | some value => do
    let metadata ← shape "metadata" "an object" value.asObject
    let entries ← metadata.mapM fun entry => do
      let text ← shape s!"metadata.{entry.1}" "a string" entry.2.asStr
      .ok (entry.1, text)
    .ok (.ofList entries)

/-- The number of choices: the semantic events represent one. -/
def parseChoiceCount : Option Json → Convert Unit
  | none => pure ()
  | some value => do
    let count ← shape "n" "an unsigned integer" value.asU64
    noteIf (count ≠ 1)
      (.unsupportedRequired "n" "the semantic event model represents one completion choice")

/-- The fields that are taken out of the body one after the other. -/
def takenFields : List String :=
  ["model", "messages", "tools", "tool_choice", "temperature", "top_p", "max_tokens", "max_completion_tokens", "stop",
    "seed", "presence_penalty", "frequency_penalty", "response_format", "reasoning_effort", "metadata", "n"]

def unknownFieldsKey : ExtensionKey :=
  ⟨⟨"openai.chat", by decide +kernel⟩, ⟨"unknown_request_fields", by decide +kernel⟩⟩

def unknownFieldsOf (fields : Assoc String Json) : OpaqueExtension :=
  ⟨unknownFieldsKey.nameSpace, unknownFieldsKey.name, "application/json", .never, toVec (.object fields)⟩

def preserveUnknownFields (fields : Assoc String Json) : Convert Extensions :=
  if fields.isEmpty then pure []
  else do
    note (.preserveExtension unknownFieldsKey)
    pure [(unknownFieldsKey, unknownFieldsOf fields)]

def parseModel : Except OpenAiChatError String := do
  let model ← optionalString object "model" "model"
  let model ← orError (.missingField "model") model
  if SemanticRequest.isBlank model then .error (.invalidValue "model" "must not be empty") else .ok model

def parseMessages : Convert (List InputItem) := do
  let value ← orError (OpenAiChatError.missingField "messages") (object.get "messages")
  let messages ← shape "messages" "an array" value.asArray
  messages.zipIdx.mapM fun message => parseMessage message.2 message.1

def parseToolChoiceOf : Option Json → Convert (Option ToolChoice)
  | none => pure none
  | some value => some <$> parseToolChoice value

def decodeObject : Convert SemanticRequest := do
  let model ← parseModel object
  let input ← parseMessages object
  let tools ← parseTools (object.get "tools")
  let toolChoice ← parseToolChoiceOf (object.get "tool_choice")
  let sampling ← parseSampling object
  let responseFormat ← parseResponseFormat (object.get "response_format")
  let reasoning ← parseReasoning (object.get "reasoning_effort")
  let metadata ← parseMetadata (object.get "metadata")
  parseChoiceCount (object.get "n")
  let extensions ← preserveUnknownFields (object.filter fun entry => !takenFields.contains entry.1)
  let request : SemanticRequest :=
    { SemanticRequest.new model with
      input := input, tools := tools, toolChoice := toolChoice, sampling := sampling, responseFormat := responseFormat,
      reasoning := reasoning, metadata := metadata, extensions := extensions }
  request.validate.mapError OpenAiChatError.requestValidation
  pure request

structure DecodedChatRequest where
  request : SemanticRequest
  report : ConversionReport

def decodeChatRequestWithReport (input : List UInt8) : Except OpenAiChatError DecodedChatRequest := do
  let value ← orError .invalidJson (fromSlice input)
  let object ← shape "request" "an object" value.asObject
  let decoded ← (decodeObject object).run
  .ok ⟨decoded.1, .ofNotes decoded.2⟩

end OpenAiChat

end Pooler
