import Pooler.Spec.Protocol.ChatFields
import Pooler.Spec.Protocol.Events

/-! The decoder of Chat Completions chunks: one JSON value at a time becomes semantic events. -/

namespace Pooler

open Lib

structure OpenAiChatEventDecoder where
  out : Output
  (responseId model : Option String)
  (responseStarted textOpen reasoningOpen : Bool)
  /-- The identifiers of the tool calls that are open, by index. -/
  tools : OrderedMap ℕ String
  pendingFinish : Option FinishReason
  pendingUsage : Option Usage
  completed : Bool

namespace OpenAiChatEventDecoder

open OpenAiChat
open Json (present)

def default : OpenAiChatEventDecoder := ⟨.empty, none, none, false, false, false, .empty, none, none, false⟩

abbrev Decode := StateT OpenAiChatEventDecoder (Except OpenAiChatError)

def textBlockId : String := "text"

def reasoningBlockId : String := "reasoning"

def reasoningDeltaFields : List String := ["reasoning_content", "reasoning", "reasoning_text"]

def event (kind : StreamEventKind) (blockId : Option String) : Decode Unit :=
  modify fun d => { d with out := d.out.event kind blockId }

def needed {α : Type} (message : String) (value : Option α) : Except OpenAiChatError α :=
  orError (.invalidStream message) value

def parseFinishReason : String → FinishReason
  | "stop" => .stop
  | "length" => .length
  | "tool_calls" | "function_call" => .toolCall
  | "content_filter" => .contentFilter
  | other => .other other

variable (object : Assoc String Json)

/-- A count among the details of a usage report. -/
def detailCount (details field : String) :
    Except OpenAiChatError (Option UInt64) :=
  match (object.get details).bind Json.asObject with
  | none => .ok none
  | some details => usageCount details field

def parseUsage (value : Json) : Except OpenAiChatError Usage := do
  let object ← shape "usage" "an object" value.asObject
  let inputTokens ← usageCount object "prompt_tokens"
  let outputTokens ← usageCount object "completion_tokens"
  let totalTokens ← usageCount object "total_tokens"
  let reasoningTokens ← detailCount object "completion_tokens_details" "reasoning_tokens"
  let cachedInputTokens ← detailCount object "prompt_tokens_details" "cached_tokens"
  .ok ⟨inputTokens.getD 0, outputTokens.getD 0, reasoningTokens, cachedInputTokens, totalTokens, []⟩

/-! ### Failures -/

def decodeError (value : Json) : Decode Unit := do
  let object ← shape "error" "an object" value.asObject
  let message ← requiredString object "message" "error.message"
  let code := ((object.get "code").bind Json.asStr <|> (object.get "type").bind Json.asStr).getD "openai_error"
  modify fun d => { d with completed := true }
  event (.failure (.new code message)) none

/-! ### Identity of the response -/

def observeIdentity (id model : Option String) : Decode Unit := do
  let d ← get
  failIf (!sameIdentity d.responseId id) (.invalidStream "response ID changed within one stream")
  failIf (!sameIdentity d.model model) (.invalidStream "model changed within one stream")
  modify fun d => { d with responseId := d.responseId <|> id, model := d.model <|> model }

def startResponse : Decode Unit := do
  let d ← get
  if d.responseStarted then pure ()
  else do
    event (.responseStart d.responseId d.model) none
    modify fun d => { d with responseStarted := true }

def systemFingerprint : Decode Unit :=
  match (object.get "system_fingerprint").bind Json.asStr with
  | none => pure ()
  | some fingerprint => event (.metadata [("system_fingerprint", fingerprint)]) none

/-! ### The delta of a choice -/

def openReasoning : Decode Unit := do
  let d ← get
  if d.reasoningOpen then pure ()
  else do
    event .reasoningStart reasoningBlockId
    modify fun d => { d with reasoningOpen := true }

def closeReasoning : Decode Unit := do
  let d ← get
  if d.reasoningOpen then do
    event (.reasoningEnd none) reasoningBlockId
    modify fun d => { d with reasoningOpen := false }
  else pure ()

def openText : Decode Unit := do
  let d ← get
  if d.textOpen then pure ()
  else do
    event .textStart textBlockId
    modify fun d => { d with textOpen := true }

def closeText : Decode Unit := do
  let d ← get
  if d.textOpen then do
    event .textEnd textBlockId
    modify fun d => { d with textOpen := false }
  else pure ()

variable (delta : Assoc String Json)

def decodeRole : Decode Unit :=
  match delta.get "role" with
  | none => pure ()
  | some role => do
    let role ← shape "choices[0].delta.role" "a string" role.asStr
    failIf (role ≠ "assistant") (.invalidStream s!"unsupported assistant delta role `{role}`")

/-- The first of the reasoning fields that is not null. -/
def reasoningField : Option (String × Json) :=
  reasoningDeltaFields.findSome? (fun field => (present delta field).map (field, ·))

def decodeReasoning : Decode Unit :=
  match reasoningField delta with
  | none => pure ()
  | some (field, value) => do
    let reasoning ← shape s!"choices[0].delta.{field}" "a string or null" value.asStr
    eventIfText reasoning do
      openReasoning
      event (.reasoningDelta reasoning) reasoningBlockId

def decodeContent : Decode Unit :=
  match present delta "content" with
  | none => pure ()
  | some value => do
    let content ← shape "choices[0].delta.content" "a string or null" value.asStr
    eventIfText content do
      closeReasoning
      openText
      event (.textDelta content) textBlockId

def decodeRefusal : Decode Unit :=
  match present delta "refusal" with
  | none => pure ()
  | some value => do
    let refusal ← shape "choices[0].delta.refusal" "a string or null" value.asStr
    eventIfText refusal (event (.refusal refusal) none)

/-! ### Tool calls -/

variable (position : ℕ)

def toolCallIndex (call : Assoc String Json) : ℕ :=
  (((call.get "index").bind Json.asU64).map UInt64.toNat).getD position

def toolCallArguments (function : Assoc String Json) : Except OpenAiChatError String :=
  match function.get "arguments" with
  | none => .ok ""
  | some value => shape s!"choices[0].delta.tool_calls[{position}].function.arguments" "a string" value.asStr

def toolCallDelta (id arguments : String) : Decode Unit :=
  eventIfText arguments (event (.toolCallDelta id arguments) id)

def startToolCall (index : ℕ) (call function : Assoc String Json) (arguments : String) : Decode Unit := do
  let id ← needed s!"tool call {index} started without an ID" ((call.get "id").bind Json.asStr)
  let name ← needed s!"tool call {index} started without a name" ((function.get "name").bind Json.asStr)
  modify fun d => { d with tools := d.tools.insert index id }
  event (.toolCallStart id name) id
  toolCallDelta id arguments

def continueToolCall (index : ℕ) (existing : String) (call : Assoc String Json) (arguments : String) :
    Decode Unit := do
  failIf (((call.get "id").bind Json.asStr).any (· ≠ existing)) (.invalidStream s!"tool call {index} changed IDs")
  toolCallDelta existing arguments

variable (value : Json)

def decodeToolCall : Decode Unit := do
  let call ← shape s!"choices[0].delta.tool_calls[{position}]" "an object" value.asObject
  let index := toolCallIndex position call
  let function ← shape s!"choices[0].delta.tool_calls[{position}].function" "an object"
    ((call.get "function").bind Json.asObject)
  let kind := ((call.get "type").bind Json.asStr).getD "function"
  failIf (kind ≠ "function") (.invalidStream s!"unsupported tool call type `{kind}`")
  let arguments ← toolCallArguments position function
  let d ← get
  match d.tools.get index with
  | none => startToolCall index call function arguments
  | some existing => continueToolCall index existing call arguments

def decodeToolCalls : Decode Unit := do
  let calls ← shape "choices[0].delta.tool_calls" "an array" value.asArray
  calls.zipIdx.forM fun call => decodeToolCall call.2 call.1

/-! ### The end of a choice -/

/-- Ends the tool calls in the order of their indices. -/
def closeToolCalls : Decode Unit := do
  let d ← get
  modify fun d => { d with tools := .empty }
  d.tools.entries.forM fun tool => event (.toolCallEnd tool.2) tool.2

def closeBlocks : Decode Unit := do
  closeReasoning
  closeText
  closeToolCalls

def decodeFinishReason : Decode Unit :=
  match present object "finish_reason" with
  | none => pure ()
  | some value => do
    let finishReason ← shape "choices[0].finish_reason" "a string or null" value.asStr
    let d ← get
    failIf d.pendingFinish.isSome (.invalidStream "finish_reason appeared more than once")
    closeBlocks
    modify fun d => { d with pendingFinish := some (parseFinishReason finishReason) }

def checkChoiceIndex : Decode Unit :=
  match object.get "index" with
  | none => pure ()
  | some value => do
    let index ← shape "choices[0].index" "an unsigned integer" value.asU64
    failIf (index ≠ 0) (.invalidStream "semantic events support only choice index zero")

def decodeToolCallsOf : Decode Unit :=
  match delta.get "tool_calls" with
  | none => pure ()
  | some toolCalls => decodeToolCalls toolCalls

def decodeChoice : Decode Unit := do
  let object ← shape "choices[0]" "an object" value.asObject
  checkChoiceIndex object
  let delta ← shape "choices[0].delta" "an object" ((object.get "delta").bind Json.asObject)
  decodeRole delta
  decodeReasoning delta
  decodeContent delta
  decodeRefusal delta
  decodeToolCallsOf delta
  decodeFinishReason object

def completePending : Decode Unit := do
  let d ← get
  match d.pendingFinish with
  | none => pure ()
  | some finishReason => do
    modify fun d => { d with pendingFinish := none, pendingUsage := none, completed := true }
    event (.completion finishReason d.pendingUsage) none

/-! ### Chunks -/

def usageOf : Except OpenAiChatError (Option Usage) :=
  match present object "usage" with
  | none => .ok none
  | some usage => some <$> parseUsage usage

def choicesOf : Except OpenAiChatError (List Json) :=
  match object.get "choices" with
  | none => .ok []
  | some value => shape "choices" "an array" value.asArray

def decodeChoices (choices : List Json) : Decode Unit := do
  failIf (1 < choices.length) (.invalidStream "semantic events support one completion choice")
  let d ← get
  failIf (d.pendingFinish.isSome && !choices.isEmpty)
    (.invalidStream "chunk appeared after finish_reason and before [DONE]")
  match choices with
  | [] => pure ()
  | choice :: _ => decodeChoice choice

def reportUsage : Option Usage → Decode Unit
  | none => pure ()
  | some usage => do
    modify fun d => { d with pendingUsage := some usage }
    let d ← get
    if d.pendingFinish.isSome then completePending else event (.usage usage) none

def decodeFields : Decode Unit := do
  let id ← optionalString object "id" "id"
  let model ← optionalString object "model" "model"
  observeIdentity id model
  startResponse
  systemFingerprint object
  let usage ← usageOf object
  let choices ← choicesOf object
  decodeChoices choices
  reportUsage usage

def decodeChunk : Decode Unit := do
  let d ← get
  failIf d.completed (.invalidStream "chunk appeared after completion")
  let object ← shape "chunk" "an object" value.asObject
  match object.get "error" with
  | some error => decodeError error
  | none => decodeFields object

def finish : Decode Unit := do
  let d ← get
  if d.completed then pure ()
  else do
    failIf d.pendingFinish.isNone (.invalidStream "stream ended without a finish_reason")
    completePending

/-- What the decoder is given: the JSON value of a chunk, or the sentinel at the end. -/
inductive Data where
  | chunk (value : Json)
  | done

def decodeData : Data → Decode Unit
  | .chunk value => decodeChunk value
  | .done => finish

end OpenAiChatEventDecoder

end Pooler
