import Pooler.Spec.Protocol.ChatFields
import Pooler.Spec.Protocol.Events

/-! The decoder of Gemini response objects: one JSON object at a time becomes semantic events. Function
calls are collected until the response finishes. -/

namespace Pooler

open Lib

inductive GeminiError where
  | missingField (field : String)
  | invalidShape (field expected : String)
  | invalidValue (field message : String)
  | invalidBase64 (field : String)
  | invalidStream (message : String)
  deriving DecidableEq

namespace Gemini

open OpenAiChat (orError)

def shape {α : Type} (field expected : String) (value : Option α) : Except GeminiError α :=
  orError (.invalidShape field expected) value

def known {α : Type} (message : String) (value : Option α) : Except GeminiError α :=
  orError (.invalidStream message) value

variable (value : Json) (field : String)

def asObject : Except GeminiError (Assoc String Json) := shape field "an object" value.asObject

def asArray : Except GeminiError (List Json) := shape field "an array" value.asArray

def asString : Except GeminiError String := shape field "a string" value.asStr

def asU64 : Except GeminiError UInt64 := shape field "an unsigned integer" value.asU64

def requiredString (object : Assoc String Json) (key field : String) : Except GeminiError String := do
  let value ← orError (.missingField field) (object.get key)
  asString value field

/-- A field that may be absent. -/
def optionalField {α : Type} (object : Assoc String Json) (key : String) (read : Json → Except GeminiError α) :
    Except GeminiError (Option α) :=
  match object.get key with
  | none => .ok none
  | some value => some <$> read value

def optionalU64 (object : Assoc String Json) (key : String) : Except GeminiError (Option UInt64) :=
  optionalField object key (asU64 · s!"usageMetadata.{key}")

def parseUsage : Except GeminiError Usage := do
  let object ← asObject value "usageMetadata"
  let inputTokens ← optionalU64 object "promptTokenCount"
  let outputTokens ← optionalU64 object "candidatesTokenCount"
  let reasoningTokens ← optionalU64 object "thoughtsTokenCount"
  let cachedInputTokens ← optionalU64 object "cachedContentTokenCount"
  let totalTokens ← optionalU64 object "totalTokenCount"
  let toolUse ← optionalU64 object "toolUsePromptTokenCount"
  .ok ⟨inputTokens.getD 0, outputTokens.getD 0, reasoningTokens, cachedInputTokens, totalTokens,
    Assoc.insertSome [] "tool_use_prompt_tokens" toolUse⟩

def decodeFinishReason : String → FinishReason
  | "STOP" => .stop
  | "MAX_TOKENS" => .length
  | "SAFETY" | "RECITATION" | "LANGUAGE" | "BLOCKLIST" | "PROHIBITED_CONTENT" | "SPII" | "IMAGE_SAFETY"
  | "IMAGE_PROHIBITED_CONTENT" => .contentFilter
  | other => .other other

def isErrorFinishReason (reason : String) : Bool :=
  ["MALFORMED_FUNCTION_CALL", "UNEXPECTED_TOOL_CALL", "TOO_MANY_TOOL_CALLS", "MISSING_THOUGHT_SIGNATURE",
    "MALFORMED_RESPONSE", "ESCALATION"].contains reason

def hasPreservedFields (candidate : Assoc String Json) : Bool :=
  candidate.any (fun field => !(["content", "finishReason", "index"].contains field.1))

def promptFeedbackError (feedback : Assoc String Json) : StreamError :=
  let reason := ((feedback.get "blockReason").bind Json.asStr).getD "BLOCKED"
  .new s!"GEMINI_PROMPT_{reason}" "Gemini blocked the request prompt"

def retryableCodes : List UInt64 := [408, 409, 429, 500, 502, 503, 504]

def retryableStatuses : List String := ["ABORTED", "DEADLINE_EXCEEDED", "RESOURCE_EXHAUSTED", "UNAVAILABLE"]

end Gemini

structure DecodedToolCall where
  name : String
  arguments : Assoc String Json
  signature : Option (List UInt8)

structure GeminiEventDecoder where
  out : Output
  (nextBlock nextCall : ℕ)
  (responseId model : Option String)
  (responseStarted sawToolCall : Bool)
  pendingCallOrder : List String
  pendingCalls : OrderedMap String DecodedToolCall
  completed : Bool
  /-- What the provider gave as identifier for each part of each tool call. No function reads it. -/
  merged : OrderedMap String (List (Option String))

namespace GeminiEventDecoder

open Gemini
open OpenAiChat (orError)

def default : GeminiEventDecoder := ⟨.empty, 0, 0, none, none, false, false, [], .empty, false, .empty⟩

abbrev Decode := StateT GeminiEventDecoder (Except GeminiError)

def geminiPartJsonContentType : String := "application/vnd.google.gemini.part+json"

def event (kind : StreamEventKind) (blockId : Option String) : Decode Unit :=
  modify fun d => { d with out := d.out.event kind blockId }

/-! ### Identity of the response -/

def stableString (previous : Option String) (object : Assoc String Json) (field : String) :
    Except GeminiError (Option String) := do
  let value ← optionalField object field (asString · field)
  if sameIdentity previous value then .ok (previous <|> value)
  else .error (.invalidStream s!"{field} changed within one stream")

def updateIdentity (object : Assoc String Json) : Decode Unit := do
  let d ← get
  let responseId ← stableString d.responseId object "responseId"
  let model ← stableString d.model object "modelVersion"
  modify fun d => { d with responseId, model }

def ensureStarted : Decode Unit := do
  let d ← get
  if d.responseStarted then pure ()
  else do
    event (.responseStart d.responseId d.model) none
    modify fun d => { d with responseStarted := true }

/-! ### Failures -/

def decodeError (value : Json) : Decode Unit := do
  let object ← asObject value "error"
  let message ← requiredString object "message" "error.message"
  let status := ((object.get "status").bind Json.asStr).getD "GEMINI_ERROR"
  let retryable := ((object.get "code").bind Json.asU64).any (retryableCodes.contains ·) ||
    retryableStatuses.contains status
  modify fun d => { d with completed := true }
  event (.failure ⟨status, message, retryable⟩) none

/-! ### Parts -/

def blockId (kind : String) : Decode String := do
  modify fun d => { d with nextBlock := satAdd u64Max d.nextBlock 1 }
  let d ← get
  return s!"gemini-{kind}-{d.nextBlock}"

def decodeThought (text : String) (signature : Option (List UInt8)) : Decode Unit := do
  let id ← blockId "reasoning"
  event .reasoningStart id
  eventIfText text (event (.reasoningDelta text) id)
  event (.reasoningEnd (some
    { id := none, text := none, summary := none, encryptedContent := none, signature, extensions := [] })) id

def decodeText (text : String) : Decode Unit := do
  let id ← blockId "text"
  event .textStart id
  eventIfText text (event (.textDelta text) id)
  event .textEnd id

def isThought (part : Assoc String Json) : Bool := part.get "thought" = some (.bool true)

def decodeTextPart (part : Assoc String Json) (value : Json) (signature : Option (List UInt8)) : Decode Unit := do
  let text ← asString value "part.text"
  if isThought part then decodeThought text signature else decodeText text

def generatedId (number : ℕ) : String := s!"gemini-call-{number}"

/-- The identifier of a function call: the provider's, or the next generated one. -/
def callId (given : Option String) : Decode String :=
  match given with
  | some id => pure id
  | none => do
    modify fun d => { d with nextCall := satAdd u64Max d.nextCall 1 }
    let d ← get
    return generatedId d.nextCall

def differs (existing incoming : Option (List UInt8)) : Bool :=
  match existing, incoming with
  | some existing, some incoming => existing ≠ incoming
  | _, _ => false

/-- A further part of a call that is pending. -/
def extendCall (id name : String) (arguments : Assoc String Json) (signature : Option (List UInt8))
    (call : DecodedToolCall) : Decode Unit := do
  failIf (call.name ≠ name) (.invalidStream s!"tool call `{id}` changed names")
  failIf (differs call.signature signature) (.invalidStream s!"tool call `{id}` changed thought signatures")
  modify fun d => { d with
    pendingCalls := d.pendingCalls.insert id { call with
      signature := call.signature <|> signature
      arguments := arguments.foldl (fun merged argument => merged.insert argument.1 argument.2) call.arguments } }

def addCall (id name : String) (arguments : Assoc String Json) (signature : Option (List UInt8)) : Decode Unit :=
  modify fun d => { d with
    pendingCallOrder := d.pendingCallOrder ++ [id]
    pendingCalls := d.pendingCalls.insert id ⟨name, arguments, signature⟩ }

def enterCall (id name : String) (arguments : Assoc String Json) (signature : Option (List UInt8)) :
    Option DecodedToolCall → Decode Unit
  | some call => extendCall id name arguments signature call
  | none => addCall id name arguments signature

def accumulateToolCall (id name : String) (arguments : Assoc String Json) (signature : Option (List UInt8)) :
    Decode Unit := do
  let d ← get
  enterCall id name arguments signature (d.pendingCalls.get id)
  modify fun d => { d with sawToolCall := true }

/-- The identifier that the provider gave is recorded with the call. -/
def recordPart (id : String) (given : Option String) : Decode Unit :=
  modify fun d => { d with merged := d.merged.insert id ((d.merged.get id).getD [] ++ [given]) }

def decodeFunctionCall (value : Json) (signature : Option (List UInt8)) : Decode Unit := do
  let call ← asObject value "part.functionCall"
  let given ← optionalField call "id" (asString · "part.functionCall.id")
  let id ← callId given
  let name ← requiredString call "name" "part.functionCall.name"
  let arguments ← asObject ((call.get "args").getD (.object [])) "part.functionCall.args"
  accumulateToolCall id name arguments signature
  recordPart id given

section
-- `serde_json::to_string` of a value, and the base64 decoder
variable (toText : Json → String) (decodeBase64 : String → Option (List UInt8))

def base64Bytes (field text : String) : Except GeminiError (List UInt8) :=
  orError (.invalidBase64 field) (decodeBase64 text)

variable (value : Json)

def decodeSignature : Except GeminiError (List UInt8) := do
  let text ← asString value "thoughtSignature"
  base64Bytes decodeBase64 "thoughtSignature" text

def decodeInlineData : Except GeminiError (String × MediaSource) := do
  let object ← asObject value "part.inlineData"
  let mediaType ← requiredString object "mimeType" "part.inlineData.mimeType"
  let data ← requiredString object "data" "part.inlineData.data"
  let bytes ← base64Bytes decodeBase64 "part.inlineData.data" data
  .ok (mediaType, .inline bytes)

def decodeFileData : Except GeminiError (String × MediaSource) := do
  let object ← asObject value "part.fileData"
  let mediaType ← requiredString object "mimeType" "part.fileData.mimeType"
  let uri ← requiredString object "fileUri" "part.fileData.fileUri"
  .ok (mediaType, .uri uri)

def mediaEvent (media : String × MediaSource) : Decode Unit := event (.media media.1 media.2) none

def decodeInlinePart : Decode Unit := do
  let media ← decodeInlineData decodeBase64 value
  mediaEvent media

def decodeFilePart : Decode Unit := do
  let media ← decodeFileData value
  mediaEvent media

/-- The first of the known fields decides what the part is. -/
def decodePart (part : Assoc String Json) (value : Json) (signature : Option (List UInt8)) : Decode Unit :=
  match part.get "text", part.get "functionCall", part.get "inlineData", part.get "fileData" with
  | some text, _, _, _ => decodeTextPart part text signature
  | none, some call, _, _ => decodeFunctionCall call signature
  | none, none, some data, _ => decodeInlinePart decodeBase64 data
  | none, none, none, some data => decodeFilePart data
  | none, none, none, none => event (.opaqueEvent geminiPartJsonContentType (utf8 (toText value))) none

def decodeResponsePart (index : ℕ) (value : Json) : Decode Unit := do
  let part ← asObject value s!"candidates[0].content.parts[{index}]"
  let signature ← optionalField part "thoughtSignature" (decodeSignature decodeBase64)
  decodePart toText decodeBase64 part value signature

def checkRole (content : Assoc String Json) : Except GeminiError Unit :=
  match (content.get "role").bind Json.asStr with
  | none => .ok ()
  | some role =>
    if role = "model" then .ok ()
    else .error (.invalidValue "candidates[0].content.role" s!"expected model, got `{role}`")

def decodeCandidateContent : Decode Unit := do
  let content ← asObject value "candidates[0].content"
  checkRole content
  let parts ← optionalField content "parts" (asArray · "candidates[0].content.parts")
  (parts.getD []).zipIdx.forM fun part => decodeResponsePart toText decodeBase64 part.2 part.1

/-! ### The end of the response -/

def finishToolCall (id : String) (call : DecodedToolCall) : Decode Unit := do
  event (.toolCallStart id call.name) id
  event (.toolCallDelta id (toText (.object call.arguments))) id
  event (.toolCallEnd id) id

/-- Emits the collected calls in the order in which they came. -/
def finishCalls : List String → OrderedMap String DecodedToolCall → Decode Unit
  | [], _ => pure ()
  | id :: order, calls => do
    let call ← known s!"tool call `{id}` disappeared before completion" (calls.get id)
    finishToolCall toText id call
    finishCalls order (calls.erase id)

def finishToolCalls : Decode Unit := do
  let d ← get
  modify fun d => { d with pendingCallOrder := [], pendingCalls := .empty }
  finishCalls toText d.pendingCallOrder d.pendingCalls

def fail (reason : String) (candidate : Assoc String Json) : Decode Unit := do
  let message := ((candidate.get "finishMessage").bind Json.asStr).getD "Gemini stopped with an error finish reason"
  modify fun d => { d with completed := true, pendingCallOrder := [], pendingCalls := .empty }
  event (.failure (.new reason message)) none

def complete (reason : String) (usage : Option Usage) : Decode Unit := do
  finishToolCalls toText
  modify fun d => { d with completed := true }
  let d ← get
  let finishReason := if d.sawToolCall && reason = "STOP" then FinishReason.toolCall else decodeFinishReason reason
  event (.completion finishReason usage) none

variable (candidate : Assoc String Json)

def metadataIfAny : Decode Unit := if hasPreservedFields candidate then event (.metadata []) none else pure ()

def usageIfAny : Option Usage → Decode Unit
  | none => pure ()
  | some usage => event (.usage usage) none

variable (usage : Option Usage)

def continueCandidate : Decode Unit := do
  metadataIfAny candidate
  usageIfAny usage

def finishCandidate : Decode Unit :=
  match (candidate.get "finishReason").bind Json.asStr with
  | none => continueCandidate candidate usage
  | some reason => if isErrorFinishReason reason then fail reason candidate else complete toText reason usage

def checkIndex : Except GeminiError Unit := do
  let index ← optionalField candidate "index" (asU64 · "candidates[0].index")
  if index.any (· ≠ 0) then .error (.invalidStream "candidate index changed from zero") else .ok ()

def decodeContentOf : Decode Unit :=
  match candidate.get "content" with
  | none => pure ()
  | some content => decodeCandidateContent toText decodeBase64 content

def decodeCandidate : Decode Unit := do
  let candidate ← asObject value "candidates[0]"
  checkIndex candidate
  decodeContentOf toText decodeBase64 candidate
  finishCandidate toText candidate usage

def isBlocked (feedback : Json) : Bool := (feedback.asObject.bind (·.get "blockReason")).isSome

def block (feedback : Json) : Decode Unit := do
  modify fun d => { d with completed := true }
  let feedback ← asObject feedback "promptFeedback"
  event (.failure (promptFeedbackError feedback)) none

def decodeWithoutCandidate (object : Assoc String Json) (usage : Option Usage) : Decode Unit :=
  match (object.get "promptFeedback").filter isBlocked with
  | some feedback => block feedback
  | none => usageIfAny usage

/-! ### Objects -/

def decodeFields (object : Assoc String Json) : Decode Unit := do
  updateIdentity object
  ensureStarted
  let usage ← optionalField object "usageMetadata" parseUsage
  let candidates ← optionalField object "candidates" (asArray · "candidates")
  failIf (1 < (candidates.getD []).length) (.invalidStream "semantic responses support one Gemini candidate")
  match (candidates.getD []).head? with
  | none => decodeWithoutCandidate object usage
  | some candidate => decodeCandidate toText decodeBase64 candidate usage

def decodeChunk : Decode Unit := do
  let d ← get
  failIf d.completed (.invalidStream "chunk appeared after terminal response")
  let object ← asObject value "response"
  match object.get "error" with
  | some error => decodeError error
  | none => decodeFields toText decodeBase64 object

end

end GeminiEventDecoder

end Pooler
