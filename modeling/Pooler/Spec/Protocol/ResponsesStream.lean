import Pooler.Spec.Protocol.Events
import Pooler.Spec.Protocol.ResponsesFields

/-! The decoder of Responses events: one named document at a time becomes semantic events. -/

namespace Pooler

open Lib

structure DecodedReasoningItem where
  isOpen : Bool
  summary : String

def DecodedReasoningItem.default : DecodedReasoningItem := ⟨false, ""⟩

structure DecodedFunctionItem where
  (callId arguments : String)
  isOpen : Bool

structure OpenAiResponsesEventDecoder where
  out : Output
  (responseId model : Option String)
  responseStarted : Bool
  /-- The text items seen so far, and which of them are open. -/
  textItems : OrderedMap String Bool
  reasoningItems : OrderedMap String DecodedReasoningItem
  functionItems : OrderedMap String DecodedFunctionItem
  (sawToolCall completed : Bool)

namespace OpenAiResponsesEventDecoder

open OpenAiResponses
open OpenAiChat (orError)

def default : OpenAiResponsesEventDecoder := ⟨.empty, none, none, false, .empty, .empty, .empty, false, false⟩

abbrev Decode := StateT OpenAiResponsesEventDecoder (Except OpenAiResponsesError)

def builtinEventMediaType : String := "application/vnd.openai.responses.builtin-output-event+json"

def event (kind : StreamEventKind) (blockId : Option String) : Decode Unit :=
  modify fun d => { d with out := d.out.event kind blockId }

def needed {α : Type} (message : String) (value : Option α) : Except OpenAiResponsesError α :=
  orError (.invalidStream message) value

variable (object : Assoc String Json)

def responseObject : Except OpenAiResponsesError (Assoc String Json) :=
  shape "event.response" "an object" ((object.get "response").bind Json.asObject)

def itemObject : Except OpenAiResponsesError (Assoc String Json) :=
  shape "event.item" "an object" ((object.get "item").bind Json.asObject)

def partObject : Except OpenAiResponsesError (Assoc String Json) :=
  shape "event.part" "an object" ((object.get "part").bind Json.asObject)

/-- A count among the details of a usage report. -/
def detailCount (details field : String) :
    Except OpenAiResponsesError (Option UInt64) :=
  match (object.get details).bind Json.asObject with
  | none => .ok none
  | some details => usageCount details field

def parseResponsesUsage (value : Json) : Except OpenAiResponsesError Usage := do
  let object ← shape "response.usage" "an object" value.asObject
  let inputTokens ← usageCount object "input_tokens"
  let outputTokens ← usageCount object "output_tokens"
  let reasoningTokens ← detailCount object "output_tokens_details" "reasoning_tokens"
  let cachedInputTokens ← detailCount object "input_tokens_details" "cached_tokens"
  let totalTokens ← usageCount object "total_tokens"
  .ok ⟨inputTokens.getD 0, outputTokens.getD 0, reasoningTokens, cachedInputTokens, totalTokens, []⟩

/-! ### The response -/

variable (response : Assoc String Json)

def observeResponseIdentity : Decode Unit := do
  let id ← optionalString response "id" "response.id"
  let d ← get
  failIf (!sameIdentity d.responseId id) (.invalidStream "response ID changed within one stream")
  modify fun d => { d with responseId := id <|> d.responseId }
  let model ← optionalString response "model" "response.model"
  failIf (!sameIdentity d.model model) (.invalidStream "model changed within one stream")
  modify fun d => { d with model := model <|> d.model }

def ensureResponseStart : Decode Unit := do
  let d ← get
  if d.responseStarted then pure ()
  else do
    modify fun d => { d with responseStarted := true }
    event (.responseStart d.responseId d.model) none

def decodeResponseStart : Decode Unit := do
  let response ← responseObject object
  observeResponseIdentity response
  ensureResponseStart

/-! ### Text -/

variable (itemId : String)

def openText : Decode Unit := do
  let d ← get
  if (d.textItems.get itemId).getD false then pure ()
  else do
    modify fun d => { d with textItems := d.textItems.insert itemId true }
    event .textStart itemId

def closeText : Decode Unit := do
  let d ← get
  if (d.textItems.get itemId).getD false then do
    modify fun d => { d with textItems := d.textItems.insert itemId false }
    event .textEnd itemId
  else pure ()

/-- A message item is known from now on; its text is not open yet. -/
def addTextItem : Decode Unit :=
  modify fun d => { d with
    textItems := if (d.textItems.get itemId).isSome then d.textItems else d.textItems.insert itemId false }

def decodeTextDelta : Decode Unit := do
  let itemId ← requiredString object "item_id" "event.item_id"
  let delta ← requiredString object "delta" "event.delta"
  openText itemId
  eventIfText delta (event (.textDelta delta) itemId)

def decodeContentPartAdded : Decode Unit := do
  let part ← partObject object
  let kind ← requiredString part "type" "event.part.type"
  match kind with
  | "output_text" => do
    let itemId ← requiredString object "item_id" "event.item_id"
    openText itemId
  | "refusal" => pure ()
  | kind => throw (.invalidStream s!"unsupported Responses content part `{kind}`")

def decodeContentPartDone : Decode Unit := do
  let part ← partObject object
  let kind ← requiredString part "type" "event.part.type"
  match kind with
  | "refusal" => do
    let text ← requiredString part "refusal" "event.part.refusal"
    eventIfText text (event (.refusal text) none)
  | "output_text" => do
    let itemId ← requiredString object "item_id" "event.item_id"
    closeText itemId
  | kind => throw (.invalidStream s!"unsupported Responses content part `{kind}`")

def decodeRefusalDelta : Decode Unit := do
  let delta ← requiredString object "delta" "event.delta"
  eventIfText delta (event (.refusal delta) none)

/-! ### Reasoning -/

def reasoningItem (d : OpenAiResponsesEventDecoder) (itemId : String) : DecodedReasoningItem :=
  (d.reasoningItems.get itemId).getD .default

def openReasoning : Decode Unit := do
  let d ← get
  let state := d.reasoningItem itemId
  if state.isOpen then pure ()
  else do
    modify fun d => { d with reasoningItems := d.reasoningItems.insert itemId { state with isOpen := true } }
    event .reasoningStart itemId

def decodeReasoningPartAdded : Decode Unit := do
  let itemId ← requiredString object "item_id" "event.item_id"
  openReasoning itemId

/-- The delta is remembered to be compared with the summary at the end of the item. -/
def pushSummary (itemId delta : String) : Decode Unit :=
  modify fun d =>
    let state := d.reasoningItem itemId
    { d with reasoningItems := d.reasoningItems.insert itemId { state with summary := state.summary ++ delta } }

def decodeReasoningDelta : Decode Unit := do
  let itemId ← requiredString object "item_id" "event.item_id"
  let delta ← requiredString object "delta" "event.delta"
  openReasoning itemId
  eventIfText delta do
    pushSummary itemId delta
    event (.reasoningDelta delta) itemId

def reasoningBlock (summary : Option String) (encryptedContent : Option (List UInt8)) :
    ReasoningBlock := ⟨some itemId, none, summary, encryptedContent, none, []⟩

def endReasoning (reasoning : ReasoningBlock) : Decode Unit := do
  modify fun d =>
    { d with reasoningItems := d.reasoningItems.insert itemId { d.reasoningItem itemId with isOpen := false } }
  event (.reasoningEnd (some reasoning)) itemId

variable (item : Assoc String Json)

def closeReasoning : Decode Unit := do
  let d ← get
  let streamed := (d.reasoningItem itemId).summary
  let final ← parseSummary (item.get "summary") "event.item.summary"
  failIf (!streamed.isEmpty && final.any (· ≠ streamed)) (.invalidStream "reasoning summary did not match streamed deltas")
  let encryptedContent ← optionalString item "encrypted_content" "event.item.encrypted_content"
  openReasoning itemId
  let summary := final <|> if streamed.isEmpty then none else some streamed
  endReasoning itemId (reasoningBlock itemId summary (encryptedContent.map utf8))

/-! ### Function calls -/

def startFunction : Decode Unit := do
  let callId ← requiredString item "call_id" "event.item.call_id"
  let name ← requiredString item "name" "event.item.name"
  let d ← get
  failIf (d.functionItems.get itemId).isSome (.invalidStream "function-call output item started more than once")
  modify fun d => { d with functionItems := d.functionItems.insert itemId ⟨callId, "", true⟩, sawToolCall := true }
  event (.toolCallStart callId name) callId

def decodeFunctionDelta : Decode Unit := do
  let itemId ← requiredString object "item_id" "event.item_id"
  let delta ← requiredString object "delta" "event.delta"
  let d ← get
  let state ← needed "function arguments appeared before output_item.added" (d.functionItems.get itemId)
  failIf (!state.isOpen) (.invalidStream "function arguments appeared after output_item.done")
  modify fun d => { d with functionItems := d.functionItems.insert itemId { state with arguments := state.arguments ++ delta } }
  eventIfText delta (event (.toolCallDelta state.callId delta) state.callId)

variable (state : DecodedFunctionItem)

/-- The arguments of a finished call, where none were streamed before. -/
def unstreamed (arguments : String) : Bool := state.arguments.isEmpty && !arguments.isEmpty

def decodeFunctionDone : Decode Unit := do
  let itemId ← requiredString object "item_id" "event.item_id"
  let arguments ← requiredString object "arguments" "event.arguments"
  let d ← get
  let state ← needed "function arguments completed before output_item.added" (d.functionItems.get itemId)
  -- Unlike `decodeFunctionDelta`, this does not ask whether the call is still open.
  if unstreamed state arguments then do
    modify fun d => { d with functionItems := d.functionItems.insert itemId { state with arguments := arguments } }
    event (.toolCallDelta state.callId arguments) state.callId
  else failIf (state.arguments ≠ arguments) (.invalidStream "function arguments done value did not match streamed deltas")

def endFunction : Decode Unit := do
  modify fun d => { d with functionItems := d.functionItems.insert itemId { state with isOpen := false } }
  event (.toolCallEnd state.callId) state.callId

def closeFunction : Decode Unit := do
  let arguments ← requiredString item "arguments" "event.item.arguments"
  let d ← get
  let state ← needed "function output item ended before it started" (d.functionItems.get itemId)
  if !state.isOpen then pure ()
  else if unstreamed state arguments then do
    event (.toolCallDelta state.callId arguments) state.callId
    endFunction itemId { state with arguments := arguments }
  else do
    failIf (state.arguments ≠ arguments) (.invalidStream "final function arguments did not match streamed deltas")
    endFunction itemId state

/-! ### Output items -/

def decodeOutputItemAdded (input : List UInt8) : Decode Unit := do
  let item ← itemObject object
  let itemId ← requiredString item "id" "event.item.id"
  let kind ← requiredString item "type" "event.item.type"
  ensureResponseStart
  match kind with
  | "message" => addTextItem itemId
  | "reasoning" => openReasoning itemId
  | "function_call" => startFunction itemId item
  | _ => event (.opaqueEvent builtinEventMediaType input) itemId

def checkAnnotations (index : ℕ) (part : Json) : Except OpenAiResponsesError Unit :=
  match part.asObject.bind (·.get "annotations") with
  | none => .ok ()
  | some value => do
    let annotations ← shape s!"event.item.content[{index}].annotations" "an array" value.asArray
    if annotations.isEmpty then .ok ()
    else .error (.invalidStream "output text annotations are not represented by semantic events")

def rejectNonemptyMessageAnnotations : Except OpenAiResponsesError Unit :=
  match item.get "content" with
  | none => .ok ()
  | some value => do
    let content ← shape "event.item.content" "an array" value.asArray
    content.zipIdx.forM fun part => checkAnnotations part.2 part.1

def decodeOutputItemDone (input : List UInt8) : Decode Unit := do
  let item ← itemObject object
  let itemId ← requiredString item "id" "event.item.id"
  let kind ← requiredString item "type" "event.item.type"
  match kind with
  | "message" => do
    rejectNonemptyMessageAnnotations item
    closeText itemId
  | "reasoning" => closeReasoning itemId item
  | "function_call" => closeFunction itemId item
  | _ => event (.opaqueEvent builtinEventMediaType input) itemId

/-! ### Events of built-in tools -/

def openaiResponsesMediaEvents : List String :=
  ["response.audio.delta", "response.audio.done", "response.audio.transcript.delta", "response.audio.transcript.done",
    "response.image_generation_call.completed", "response.image_generation_call.generating",
    "response.image_generation_call.in_progress", "response.image_generation_call.partial_image"]

def builtinLifecycles : List String :=
  ["response.web_search_call.", "response.file_search_call.", "response.code_interpreter_call.", "response.mcp_call.",
    "response.mcp_call_arguments.", "response.custom_tool_call_input."]

variable (kind : String)

def isBuiltinLifecycleEvent : Bool :=
  openaiResponsesMediaEvents.contains kind || builtinLifecycles.any (fun start => start.toList.isPrefixOf kind.toList)

def checkImageEvent : Except OpenAiResponsesError Unit := do
  let _ ← requiredString object "item_id" "event.item_id"
  let _ ← requiredU64 object "output_index" "event.output_index"

def checkMediaEvent (object : Assoc String Json) : Except OpenAiResponsesError Unit :=
  match kind with
  | "response.audio.delta" | "response.audio.transcript.delta" => do
    let _ ← requiredString object "delta" "event.delta"
  | "response.image_generation_call.completed" | "response.image_generation_call.generating"
  | "response.image_generation_call.in_progress" => checkImageEvent object
  | "response.image_generation_call.partial_image" => do
    checkImageEvent object
    let _ ← requiredString object "partial_image_b64" "event.partial_image_b64"
    let _ ← requiredU64 object "partial_image_index" "event.partial_image_index"
  | _ => .ok ()

def validateBuiltinLifecycleEvent (object : Assoc String Json) : Except OpenAiResponsesError Unit :=
  if openaiResponsesMediaEvents.contains kind then do
    let _ ← requiredU64 object "sequence_number" "event.sequence_number"
    checkMediaEvent kind object
  else .ok ()

def decodeBuiltinLifecycleEvent (input : List UInt8) : Decode Unit := do
  ensureResponseStart
  event (.opaqueEvent builtinEventMediaType input) ((object.get "item_id" <|> object.get "output_item_id").bind Json.asStr)

/-! ### The end of the response -/

def closeOpenTexts : Decode Unit := do
  let d ← get
  let textIds := (d.textItems.entries.filter (·.2)).map (·.1)
  textIds.forM closeText

def closeOpenReasoning : Decode Unit := do
  let d ← get
  let reasoningIds := (d.reasoningItems.entries.filter (·.2.isOpen)).map (·.1)
  reasoningIds.forM fun id => do
    let d ← get
    let summary := (d.reasoningItem id).summary
    endReasoning id (reasoningBlock id (if summary.isEmpty then none else some summary) none)

def closeOpenFunction : Decode Unit := do
  let d ← get
  match d.functionItems.get itemId with
  | none => pure ()
  | some state => endFunction itemId state

def closeOpenFunctions : Decode Unit := do
  let d ← get
  let functionIds := (d.functionItems.entries.filter (·.2.isOpen)).map (·.1)
  functionIds.forM closeOpenFunction

def closeAllOpen : Decode Unit := do
  closeOpenTexts
  closeOpenReasoning
  closeOpenFunctions

def usageOf : Except OpenAiResponsesError (Option Usage) :=
  match Json.present response "usage" with
  | none => .ok none
  | some usage => some <$> parseResponsesUsage usage

def incompleteReason : Except OpenAiResponsesError (Option String) :=
  match Json.present response "incomplete_details" with
  | none => .ok none
  | some value => do
    let details ← shape "response.incomplete_details" "an object" value.asObject
    match details.get "reason" with
    | none => .ok none
    | some reason => some <$> shape "response.incomplete_details.reason" "a string" reason.asStr

def incompleteFinish : Option String → FinishReason
  | some "max_output_tokens" => .length
  | some "content_filter" => .contentFilter
  | some reason => .other reason
  | none => .other "incomplete"

def finishReason (incomplete sawToolCall : Bool) :
    Except OpenAiResponsesError FinishReason :=
  if incomplete then incompleteFinish <$> incompleteReason response
  else .ok (if sawToolCall then .toolCall else .stop)

def reportUsage : Option Usage → Decode Unit
  | none => pure ()
  | some usage => event (.usage usage) none

def decodeCompleted (incomplete : Bool) : Decode Unit := do
  let response ← responseObject object
  observeResponseIdentity response
  ensureResponseStart
  closeAllOpen
  let usage ← usageOf response
  let d ← get
  let reason ← finishReason response incomplete d.sawToolCall
  reportUsage usage
  event (.completion reason usage) none
  modify fun d => { d with completed := true }

def decodeFailed : Decode Unit := do
  let response ← responseObject object
  observeResponseIdentity response
  let error ← shape "response.error" "an object" ((response.get "error").bind Json.asObject)
  let code := ((error.get "code").bind Json.asStr).getD "openai_error"
  let message ← requiredString error "message" "response.error.message"
  ensureResponseStart
  event (.failure (.new code message)) none
  modify fun d => { d with completed := true }

def decodeError : Decode Unit := do
  let error := ((object.get "error").bind Json.asObject).getD object
  let code := ((error.get "code" <|> error.get "type").bind Json.asStr).getD "openai_error"
  let message ← requiredString error "message" "error.message"
  modify fun d => { d with completed := true }
  event (.failure (.new code message)) none

/-! ### Events -/

def decodeOther (object : Assoc String Json) (input : List UInt8) : Decode Unit :=
  if isBuiltinLifecycleEvent kind then do
    validateBuiltinLifecycleEvent kind object
    decodeBuiltinLifecycleEvent object input
  else throw (.invalidStream s!"unsupported Responses event `{kind}`")

def decodeKind (object : Assoc String Json) (input : List UInt8) : Decode Unit :=
  match kind with
  | "response.created" | "response.in_progress" => decodeResponseStart object
  | "response.output_item.added" => decodeOutputItemAdded object input
  | "response.content_part.added" => decodeContentPartAdded object
  | "response.output_text.delta" => decodeTextDelta object
  | "response.output_text.done" => pure ()
  | "response.content_part.done" => decodeContentPartDone object
  | "response.reasoning_summary_part.added" => decodeReasoningPartAdded object
  | "response.reasoning_summary_text.delta" | "response.reasoning_text.delta" => decodeReasoningDelta object
  | "response.reasoning_summary_text.done" | "response.reasoning_text.done"
  | "response.reasoning_summary_part.done" => pure ()
  | "response.function_call_arguments.delta" => decodeFunctionDelta object
  | "response.function_call_arguments.done" => decodeFunctionDone object
  | "response.refusal.delta" => decodeRefusalDelta object
  | "response.refusal.done" => pure ()
  | "response.output_item.done" => decodeOutputItemDone object input
  | "response.completed" => decodeCompleted object false
  | "response.incomplete" => decodeCompleted object true
  | "response.failed" => decodeFailed object
  | "error" => decodeError object
  | "response.queued" => pure ()
  | other => decodeOther other object input

/-- What the decoder is given: a document, as bytes and as the value they hold, with the name of the
event if it has one, or the sentinel at the end. -/
inductive Input where
  | document (eventName : Option String) (input : List UInt8) (value : Json)
  | done

def decodeEvent : Input → Decode Unit
  | .done => do
    let d ← get
    failIf (!d.completed) (.invalidStream "[DONE] appeared before a terminal Responses event")
  | .document eventName input value => do
    let d ← get
    failIf d.completed (.invalidStream "event appeared after completion")
    let object ← shape "event" "an object" value.asObject
    let kind ← requiredString object "type" "event.type"
    failIf (eventName.any (· ≠ kind)) (.invalidStream "SSE event name does not match the JSON event type")
    decodeKind kind object input

end OpenAiResponsesEventDecoder

end Pooler
