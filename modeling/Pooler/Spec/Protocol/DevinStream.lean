import Pooler.Spec.Protocol.Report

/-! The decoder of Devin chat responses: Connect frames with protobuf messages, and trailers that may
carry an error, become semantic events. -/

namespace Pooler

open Lib

/-! ### Messages -/

namespace Devin

inductive StopReason where
  | unspecified
  | incomplete
  | stopPattern
  | maxTokens
  | minLogProb
  | maxNewlines
  | exitScope
  | nonfiniteLogitOrProb
  | firstNonWhitespaceLine
  | partialResult
  | functionCall
  | contentFilter
  | nonInsertion
  | error
  deriving DecidableEq

/-- `StopReason::try_from` of the number on the wire. -/
def StopReason.ofNumber (number : ℤ) : Option StopReason :=
  if number < 0 then none
  else [.unspecified, .incomplete, .stopPattern, .maxTokens, .minLogProb, .maxNewlines, .exitScope,
    .nonfiniteLogitOrProb, .firstNonWhitespaceLine, .partialResult, .functionCall, .contentFilter, .nonInsertion,
    .error][number.toNat]?

structure ChatToolCall where
  (id name argumentsJson : String)

structure ModelUsageStats where
  (inputTokens outputTokens cacheWriteTokens cacheReadTokens : UInt64)

structure GetChatMessageResponse where
  (deltaText deltaThinking deltaSignature : String := "")
  deltaToolCalls : List ChatToolCall := []
  usage : Option ModelUsageStats := none
  stopReason : ℤ := 0

structure ConnectFrame where
  endStream : Bool
  payload : List UInt8

structure DevinChatResponseLimits where
  (maxToolCalls maxToolArgumentBytes maxReasoningBytes : ℕ)

def DevinChatResponseLimits.default : DevinChatResponseLimits := ⟨256, 4 * 1024 * 1024, 4 * 1024 * 1024⟩

inductive DevinChatCodecError where
  | protobuf
  | limitExceeded (field : String) (observed limit : ℕ)
  deriving DecidableEq

def nonempty (value : String) : Option String := if value.toList.all isWhitespace then none else some value

def finishReason (reason : StopReason) (hadTools : Bool) : FinishReason :=
  match reason with
  | .maxTokens | .maxNewlines => .length
  | .functionCall => .toolCall
  | .contentFilter => .contentFilter
  | .error => .error
  | .unspecified => if hadTools then .toolCall else .stop
  | .incomplete | .partialResult => .other "incomplete"
  | .stopPattern | .minLogProb | .exitScope | .nonfiniteLogitOrProb | .firstNonWhitespaceLine | .nonInsertion => .stop

def usageOf (usage : ModelUsageStats) : Usage where
  inputTokens := usage.inputTokens
  outputTokens := usage.outputTokens
  reasoningTokens := none
  cachedInputTokens := some usage.cacheReadTokens
  totalTokens := some (.ofNat (satAdd u64Max usage.inputTokens.toNat usage.outputTokens.toNat))
  details := [("cache_read_tokens", usage.cacheReadTokens), ("cache_write_tokens", usage.cacheWriteTokens)]

/-- A text field of the error of a trailer; an absent one is empty. -/
def trailerField (error : Json) (key : String) : String := ((error.asObject.bind (·.get key)).bind Json.asStr).getD ""

/-- `read_connect_trailer_error` of a trailer that is the JSON value. -/
def trailerError (trailer : Json) : Option String := do
  let error ← trailer.asObject.bind (·.get "error")
  let code := trailerField error "code"
  let message := trailerField error "message"
  if code.isEmpty && message.isEmpty then none
  else if code.isEmpty then some s!"Devin stream error: {message}"
  else some s!"Devin stream error {code}: {message}"

end Devin

open Devin

structure ToolCallState where
  (name argumentsJson : String)

structure DevinChatEventDecoder where
  out : Output
  (model executionId : Option String)
  limits : DevinChatResponseLimits
  (started reasoningOpen textOpen : Bool)
  tools : OrderedMap String ToolCallState
  activeToolId : Option String
  latestStopReason : StopReason
  latestUsage : Option Usage
  latestSignature : String
  reasoningBytes : ℕ
  terminal : Bool
  report : List Note

namespace DevinChatEventDecoder

def withLimits (model executionId : Option String) (limits : DevinChatResponseLimits) : DevinChatEventDecoder where
  out := .empty
  model
  executionId
  limits
  started := false
  reasoningOpen := false
  textOpen := false
  tools := .empty
  activeToolId := none
  latestStopReason := .unspecified
  latestUsage := none
  latestSignature := ""
  reasoningBytes := 0
  terminal := false
  report := []

abbrev Decode := StateT DevinChatEventDecoder (Except DevinChatCodecError)

def textBlockId : String := "text"

def reasoningBlockId : String := "reasoning"

def event (kind : StreamEventKind) (blockId : Option String) : Decode Unit :=
  modify fun d => { d with out := d.out.event kind blockId }

def note (issue : Note) : Decode Unit := modify fun d => { d with report := d.report ++ [issue] }

def startEvents : Decode Unit := do
  let d ← get
  if d.started then pure ()
  else do
    modify fun d => { d with started := true }
    event (.responseStart d.executionId d.model) none

/-! ### Blocks -/

def closeReasoning : Decode Unit := do
  let d ← get
  if d.reasoningOpen then do
    modify fun d => { d with reasoningOpen := false }
    event (.reasoningEnd (some
      { id := some reasoningBlockId, text := none, summary := none, encryptedContent := none, extensions := []
        signature := if d.latestSignature.isEmpty then none else some (utf8 d.latestSignature) })) reasoningBlockId
  else pure ()

def closeText : Decode Unit := do
  let d ← get
  if d.textOpen then do
    modify fun d => { d with textOpen := false }
    event .textEnd textBlockId
  else pure ()

def openReasoning : Decode Unit := do
  let d ← get
  if d.reasoningOpen then pure ()
  else do
    modify fun d => { d with reasoningOpen := true }
    event .reasoningStart reasoningBlockId

def openText : Decode Unit := do
  let d ← get
  if d.textOpen then pure ()
  else do
    modify fun d => { d with textOpen := true }
    event .textStart textBlockId

variable (message : GetChatMessageResponse)

/-- The retained bytes of reasoning with those of a message. -/
def countReasoning : Decode Unit := do
  let d ← get
  let next := satAdd u64Max d.reasoningBytes
    (satAdd u64Max message.deltaThinking.utf8ByteSize message.deltaSignature.utf8ByteSize)
  failIf (d.limits.maxReasoningBytes < next) (.limitExceeded "response.reasoning" next d.limits.maxReasoningBytes)
  modify fun d => { d with reasoningBytes := next }

def decodeReasoning : Decode Unit :=
  if message.deltaThinking.isEmpty && message.deltaSignature.isEmpty then pure ()
  else do
    countReasoning message
    closeText
    openReasoning
    eventIfText message.deltaThinking (event (.reasoningDelta message.deltaThinking) reasoningBlockId)
    modify fun d => { d with latestSignature := d.latestSignature ++ message.deltaSignature }

def decodeText : Decode Unit :=
  eventIfText message.deltaText do
    closeReasoning
    openText
    event (.textDelta message.deltaText) textBlockId

/-! ### Tool calls -/

/-- The arguments repeat those that came before. -/
def repeatsArguments (previous arguments : String) : Bool := previous.toList.isPrefixOf arguments.toList

def argumentBytes (previous arguments : String) : ℕ :=
  if repeatsArguments previous arguments then arguments.utf8ByteSize
  else satAdd u64Max previous.utf8ByteSize arguments.utf8ByteSize

def mergedArguments (previous arguments : String) : String :=
  if repeatsArguments previous arguments then arguments else previous ++ arguments

def argumentDelta (previous arguments : String) : String :=
  .ofList ((mergedArguments previous arguments).toList.drop previous.length)

variable (previous : Option ToolCallState)

def toolName (call : ChatToolCall) : String := (nonempty call.name <|> previous.map ToolCallState.name).getD ""

def startTool (id name : String) : Decode Unit := if previous.isNone then event (.toolCallStart id name) id else pure ()

def noteUnnamed (id name : String) : Decode Unit :=
  if name.isEmpty then
    note (.unsupportedRequired s!"tool_call[{id}].name" "Devin emitted a tool delta without a name")
  else pure ()

def decodeToolCall (id : String) (call : ChatToolCall) : Decode Unit := do
  let d ← get
  let previous := d.tools.get id
  failIf (previous.isNone && d.limits.maxToolCalls ≤ d.tools.size)
    (.limitExceeded "response.tool_calls" (satAdd u64Max d.tools.size 1) d.limits.maxToolCalls)
  let arguments := (previous.map ToolCallState.argumentsJson).getD ""
  failIf (d.limits.maxToolArgumentBytes < argumentBytes arguments call.argumentsJson)
    (.limitExceeded "response.tool_call.arguments_json" (argumentBytes arguments call.argumentsJson)
      d.limits.maxToolArgumentBytes)
  let name := toolName previous call
  noteUnnamed id name
  modify fun d => { d with
    tools := d.tools.insert id ⟨name, mergedArguments arguments call.argumentsJson⟩
    activeToolId := some id }
  startTool previous id name
  let delta := argumentDelta arguments call.argumentsJson
  eventIfText delta (event (.toolCallDelta id delta) id)

def noteUnidentified : Decode Unit :=
  note (.unsupportedRequired "tool_call.id" "Devin emitted a tool delta without an identifier")

/-- A call without an identifier belongs to the active one. -/
def decodeDeltaToolCall (call : ChatToolCall) : Decode Unit := do
  closeReasoning
  closeText
  let d ← get
  match nonempty call.id <|> d.activeToolId with
  | none => noteUnidentified
  | some id => decodeToolCall id call

/-! ### Messages and frames -/

def reportUsage : Option ModelUsageStats → Decode Unit
  | none => pure ()
  | some usage => do
    modify fun d => { d with latestUsage := some (usageOf usage) }
    event (.usage (usageOf usage)) none

def recordStopReason (number : ℤ) : Decode Unit :=
  modify fun d => { d with
    latestStopReason := ((StopReason.ofNumber number).filter (· ≠ .unspecified)).getD d.latestStopReason }

def decodeFields : Decode Unit := do
  startEvents
  decodeReasoning message
  decodeText message
  message.deltaToolCalls.forM decodeDeltaToolCall
  reportUsage message.usage
  recordStopReason message.stopReason

def decodeMessage : Decode Unit := do
  let d ← get
  if d.terminal then pure () else decodeFields message

/-- An event that has its number and is not emitted yet. -/
def numberEvent (kind : StreamEventKind) : Decode StreamEvent := do
  modify fun d => { d with out := { d.out with nextSequence := satAdd u64Max d.out.nextSequence 1 } }
  let d ← get
  return ⟨d.out.nextSequence, none, kind⟩

/-- The failure takes its number before the response starts, and follows the start. -/
def failTrailer (message : String) : Decode Unit := do
  modify fun d => { d with terminal := true }
  let failure ← numberEvent (.failure (.new "devin.stream" message))
  startEvents
  modify fun d => { d with out := { d.out with events := d.out.events ++ [failure] } }

section
-- `serde_json::from_slice` of a trailer, and the protobuf decoder
variable (fromSlice : List UInt8 → Option Json) (decodeProto : List UInt8 → Option GetChatMessageResponse)
  (payload : List UInt8)

def readConnectTrailerError : Option String := (fromSlice payload).bind trailerError

def decodePayload : Except DevinChatCodecError GetChatMessageResponse :=
  match decodeProto payload with
  | some message => .ok message
  | none => .error .protobuf

def decodeTrailer : Decode Unit :=
  match readConnectTrailerError fromSlice payload with
  | none => pure ()
  | some message => failTrailer message

def decodeFrame (frame : ConnectFrame) : Decode Unit :=
  if frame.endStream then decodeTrailer fromSlice frame.payload
  else do
    let message ← decodePayload decodeProto frame.payload
    decodeMessage message

/-! ### The end of the stream -/

/-- Ends the tool calls in the order of their identifiers. -/
def closeTools : Decode Unit := do
  let d ← get
  modify fun d => { d with tools := .empty }
  d.tools.entries.forM fun tool => event (.toolCallEnd tool.1) tool.1

def complete (hadTools : Bool) : Decode Unit := do
  let d ← get
  modify fun d => { d with latestUsage := none }
  event (.completion (finishReason d.latestStopReason hadTools) d.latestUsage) none
  modify fun d => { d with terminal := true }

def finishBlocks : Decode Unit := do
  startEvents
  closeReasoning
  closeText
  let d ← get
  closeTools
  complete (!d.tools.entries.isEmpty)

def finish : Decode Unit := do
  let d ← get
  if d.terminal then pure () else finishBlocks

/-- What the decoder is given: a frame, or the end of the body. -/
inductive Input where
  | frame (frame : ConnectFrame)
  | finish

def decode : Input → Decode Unit
  | .frame frame => decodeFrame fromSlice decodeProto frame
  | .finish => finish

end

end DevinChatEventDecoder

end Pooler
