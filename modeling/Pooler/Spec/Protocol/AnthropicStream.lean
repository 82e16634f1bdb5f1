import Pooler.Spec.Protocol.ChatFields
import Pooler.Spec.Protocol.Events

/-! The decoder of Anthropic Messages events: one named document at a time becomes semantic events. -/

namespace Pooler

open Lib

inductive AnthropicStreamError where
  | missingField (field : String)
  | invalidShape (field expected : String)
  | invalidState (message : String)
  deriving DecidableEq

namespace AnthropicStream

open Json (present)
open OpenAiChat (orError)

def shape {α : Type} (field expected : String) (value : Option α) : Except AnthropicStreamError α :=
  orError (.invalidShape field expected) value

variable (object : Assoc String Json)

def requiredString (key field : String) : Except AnthropicStreamError String := do
  let value ← orError (.missingField field) (object.get key)
  shape field "a string" value.asStr

def requiredIndex (field : String) : Except AnthropicStreamError ℕ := do
  let value ← orError (.missingField field) (object.get "index")
  let index ← shape field "an unsigned integer" value.asU64
  .ok index.toNat

def optionalString (key field : String) :
    Except AnthropicStreamError (Option String) :=
  match present object key with
  | none => .ok none
  | some value => some <$> shape field "a string" value.asStr

def optionalU64 (key field : String) : Except AnthropicStreamError (Option UInt64) :=
  match present object key with
  | none => .ok none
  | some value => some <$> shape s!"{field}.{key}" "an unsigned integer" value.asU64

def blockId (kind : String) (index : ℕ) : String := s!"anthropic-{kind}-{index}"

def decodeFinishReason : String → FinishReason
  | "end_turn" | "stop_sequence" => .stop
  | "max_tokens" | "model_context_window_exceeded" => .length
  | "tool_use" => .toolCall
  | "refusal" => .contentFilter
  | other => .other other

/-! ### Usage -/

def countedFields : List String :=
  ["input_tokens", "output_tokens", "cache_read_input_tokens", "cache_creation_input_tokens"]

/-- The counts that have no field of their own. -/
def otherCounts : List (String × UInt64) :=
  object.filterMap fun (name, value) => if name ∈ countedFields then none else value.asU64.map (name, ·)

def mergeUsage (usage : Usage) (value : Json) (field : String) : Except AnthropicStreamError Usage := do
  let object ← shape field "an object" value.asObject
  let input ← optionalU64 object "input_tokens" field
  let output ← optionalU64 object "output_tokens" field
  let cacheRead ← optionalU64 object "cache_read_input_tokens" field
  let cacheCreation ← optionalU64 object "cache_creation_input_tokens" field
  let inputTokens := input.getD usage.inputTokens
  let outputTokens := output.getD usage.outputTokens
  let details := Assoc.insertSome (Assoc.insertSome usage.details "cache_read_input_tokens" cacheRead)
    "cache_creation_input_tokens" cacheCreation
  .ok { usage with
    inputTokens
    outputTokens
    cachedInputTokens := cacheRead <|> usage.cachedInputTokens
    details := (otherCounts object).foldl (fun details count => Assoc.insert details count.1 count.2) details
    totalTokens := some (.ofNat (satAdd u64Max inputTokens.toNat outputTokens.toNat)) }

def hasUsage (usage : Usage) : Bool :=
  usage.inputTokens ≠ 0 || usage.outputTokens ≠ 0 || usage.cachedInputTokens.isSome || !usage.details.isEmpty

end AnthropicStream

/-- A content block that is open. -/
inductive DecodedBlock where
  | text (id : String)
  | reasoning (id text : String) (signature : List UInt8) (encryptedContent : Option (List UInt8))
  | tool (id : String)
  | opaqueBlock

/-- `out` has the number of the next event, the first one being zero. -/
structure AnthropicEventDecoder where
  out : Output
  blocks : OrderedMap ℕ DecodedBlock
  usage : Usage
  (responseStarted completionSeen terminal : Bool)

namespace AnthropicEventDecoder

open AnthropicStream
open OpenAiChat (orError)

def default : AnthropicEventDecoder := ⟨.empty, .empty, ⟨0, 0, none, none, none, []⟩, false, false, false⟩

abbrev Decode := StateT AnthropicEventDecoder (Except AnthropicStreamError)

def anthropicEventMediaType : String := "application/vnd.anthropic.event+json"

def event (kind : StreamEventKind) (blockId : Option String) : Decode Unit :=
  modify fun d => { d with out := d.out.numbered kind blockId }

def known {α : Type} (message : String) (value : Option α) : Except AnthropicStreamError α :=
  orError (.invalidState message) value

def insertBlock (index : ℕ) (block : DecodedBlock) : Decode Unit :=
  modify fun d => { d with blocks := d.blocks.insert index block }

def reportUsage : Decode Unit := do
  let d ← get
  event (.usage d.usage) none

def mergeUsageOf (object : Assoc String Json) (field : String) : Decode Unit :=
  match object.get "usage" with
  | none => pure ()
  | some value => do
    let d ← get
    let usage ← mergeUsage d.usage value field
    modify fun d => { d with usage }

/-! ### The start of the message -/

def usageIfAny : Decode Unit := do
  let d ← get
  if hasUsage d.usage then reportUsage else pure ()

def decodeMessageStart (object : Assoc String Json) : Decode Unit := do
  let d ← get
  failIf d.responseStarted (.invalidState "message_start appeared twice")
  let message ← shape "message_start.message" "an object" ((object.get "message").bind Json.asObject)
  let responseId ← optionalString message "id" "message_start.message.id"
  let model ← optionalString message "model" "message_start.message.model"
  mergeUsageOf message "message_start.message.usage"
  modify fun d => { d with responseStarted := true }
  event (.responseStart responseId model) none
  usageIfAny

section
-- `serde_json::to_string` of a value
variable (toText : Json → String)

def opaqueEvent (raw : Json) : Decode Unit := event (.opaqueEvent anthropicEventMediaType (utf8 (toText raw))) none

/-! ### Content blocks -/

variable (index : ℕ) (block : Assoc String Json)

def startText : Decode Unit := do
  let id := blockId "text" index
  insertBlock index (.text id)
  event .textStart id
  let text ← optionalString block "text" "content_block_start.content_block.text"
  eventIfText (text.getD "") (event (.textDelta (text.getD "")) id)

def startReasoning : Decode Unit := do
  let id := blockId "thinking" index
  let thinking ← optionalString block "thinking" "content_block_start.content_block.thinking"
  let signature ← optionalString block "signature" "content_block_start.content_block.signature"
  let data ← optionalString block "data" "content_block_start.content_block.data"
  let text := thinking.getD ""
  insertBlock index (.reasoning id text (utf8 (signature.getD "")) (data.map utf8))
  event .reasoningStart id
  eventIfText text (event (.reasoningDelta text) id)

/-- The arguments that come with the start of a call, unless they are an empty object. -/
def startingInput : Option Json :=
  (block.get "input").filter fun value => value.asObject.all (fun object => !object.isEmpty)

def startTool : Decode Unit := do
  let id ← requiredString block "id" "content_block_start.content_block.id"
  let name ← requiredString block "name" "content_block_start.content_block.name"
  insertBlock index (.tool id)
  event (.toolCallStart id name) none
  match startingInput block with
  | none => pure ()
  | some input => event (.toolCallDelta id (toText input)) none

def startOpaque (object : Assoc String Json) : Decode Unit := do
  insertBlock index .opaqueBlock
  opaqueEvent toText (.object object)

variable (object : Assoc String Json)

def decodeBlockStart : Decode Unit := do
  let index ← requiredIndex object "content_block_start.index"
  let d ← get
  failIf (d.blocks.contains index) (.invalidState s!"content block {index} started twice")
  let block ← shape "content_block_start.content_block" "an object" ((object.get "content_block").bind Json.asObject)
  let kind ← requiredString block "type" "content_block_start.content_block.type"
  match kind with
  | "text" => startText index block
  | "thinking" | "redacted_thinking" => startReasoning index block
  | "tool_use" => startTool toText index block
  | _ => startOpaque toText index object

def textDelta (id : String) (delta : Assoc String Json) : Decode Unit := do
  let text ← requiredString delta "text" "content_block_delta.delta.text"
  event (.textDelta text) id

def thinkingDelta (id text : String) (signature : List UInt8) (encrypted : Option (List UInt8))
    (delta : Assoc String Json) : Decode Unit := do
  let fragment ← requiredString delta "thinking" "content_block_delta.delta.thinking"
  insertBlock index (.reasoning id (text ++ fragment) signature encrypted)
  event (.reasoningDelta fragment) id

def signatureDelta (id text : String) (signature : List UInt8) (encrypted : Option (List UInt8))
    (delta : Assoc String Json) : Decode Unit := do
  let fragment ← requiredString delta "signature" "content_block_delta.delta.signature"
  insertBlock index (.reasoning id text (signature ++ utf8 fragment) encrypted)

def inputJsonDelta (id : String) (delta : Assoc String Json) : Decode Unit := do
  let arguments ← requiredString delta "partial_json" "content_block_delta.delta.partial_json"
  event (.toolCallDelta id arguments) none

def decodeBlockDelta (raw : Json) : Decode Unit := do
  let index ← requiredIndex object "content_block_delta.index"
  let delta ← shape "content_block_delta.delta" "an object" ((object.get "delta").bind Json.asObject)
  let kind ← requiredString delta "type" "content_block_delta.delta.type"
  let d ← get
  match d.blocks.get index, kind with
  | some (.text id), "text_delta" => textDelta id delta
  | some (.reasoning id text signature encrypted), "thinking_delta" =>
    thinkingDelta index id text signature encrypted delta
  | some (.reasoning id text signature encrypted), "signature_delta" =>
    signatureDelta index id text signature encrypted delta
  | some (.tool id), "input_json_delta" => inputJsonDelta id delta
  | some .opaqueBlock, _ => opaqueEvent toText raw
  | _, "citations_delta" => opaqueEvent toText raw
  | none, _ => throw (.invalidState s!"delta referenced unknown content block {index}")
  | some _, kind => throw (.invalidState s!"delta `{kind}` does not match content block {index}")

def reasoningOf (text : String) (signature : List UInt8) (encrypted : Option (List UInt8)) : ReasoningBlock :=
  { id := none, summary := none, extensions := []
    text := if text.isEmpty then none else some text
    signature := if signature.isEmpty then none else some signature
    encryptedContent := encrypted }

def decodeBlockStop : Decode Unit := do
  let index ← requiredIndex object "content_block_stop.index"
  let d ← get
  let block ← known s!"stop referenced unknown content block {index}" (d.blocks.get index)
  modify fun d => { d with blocks := d.blocks.erase index }
  match block with
  | .text id => event .textEnd id
  | .reasoning id text signature encrypted => event (.reasoningEnd (some (reasoningOf text signature encrypted))) id
  | .tool id => event (.toolCallEnd id) none
  | .opaqueBlock => opaqueEvent toText (.object object)

/-! ### The end of the message -/

/-- The stop reason of a message delta, unless it is null. -/
def stopReason : Option Json := ((object.get "delta").bind Json.asObject).bind (Json.present · "stop_reason")

def complete (reason : FinishReason) : Decode Unit := do
  let d ← get
  event (.completion reason (some d.usage)) none

def completeWith (reason : Json) : Decode Unit := do
  let reason ← shape "message_delta.delta.stop_reason" "a string" reason.asStr
  modify fun d => { d with completionSeen := true }
  complete (decodeFinishReason reason)

def decodeMessageDelta : Decode Unit := do
  mergeUsageOf object "message_delta.usage"
  match stopReason object with
  | some reason => completeWith reason
  | none => if object.contains "usage" then reportUsage else pure ()

def decodeMessageStop : Decode Unit := do
  let d ← get
  failIf (!d.blocks.entries.isEmpty) (.invalidState "message_stop appeared with open content blocks")
  modify fun d => { d with terminal := true }
  if d.completionSeen then pure () else complete (.other "message_stop")

def retryableCodes : List String := ["api_error", "overloaded_error", "rate_limit_error"]

def decodeError : Decode Unit := do
  let error ← shape "error.error" "an object" ((object.get "error").bind Json.asObject)
  let code ← requiredString error "type" "error.error.type"
  let message ← requiredString error "message" "error.error.message"
  modify fun d => { d with terminal := true }
  event (.failure ⟨code, message, code ∈ retryableCodes⟩) none

/-! ### Events -/

def decodeValue (kind : String) (object : Assoc String Json) (raw : Json) : Decode Unit :=
  match kind with
  | "message_start" => decodeMessageStart object
  | "content_block_start" => decodeBlockStart toText object
  | "content_block_delta" => decodeBlockDelta toText object raw
  | "content_block_stop" => decodeBlockStop toText object
  | "message_delta" => decodeMessageDelta object
  | "message_stop" => decodeMessageStop
  | "error" => decodeError object
  | "ping" => pure ()
  | _ => opaqueEvent toText raw

/-- An SSE record whose data is JSON. -/
structure Record where
  event : Option String
  data : Json

def checkEventName (kind : String) : Option String → Except AnthropicStreamError Unit
  | none => .ok ()
  | some name => if name = kind then .ok () else .error (.invalidState s!"SSE event `{name}` carried `{kind}` data")

def decodeSseEvent (record : Record) : Decode Unit := do
  let d ← get
  failIf d.terminal (.invalidState "event appeared after stream termination")
  let object ← shape "event" "an object" record.data.asObject
  let kind ← requiredString object "type" "event.type"
  checkEventName kind record.event
  decodeValue toText kind object record.data

end

end AnthropicEventDecoder

end Pooler
