import Pooler.Spec.Protocol.Report
import Pooler.Spec.Protocol.ResponsesStream
import Pooler.Spec.Protocol.Serde

/-! The encoder of Chat Completions chunks: one semantic event at a time becomes a JSON chunk. -/

namespace Pooler

open Lib

structure OpenAiChatEventEncoder where
  (responseId model : String)
  (responseStarted completed : Bool)
  toolIndices : OrderedMap String ℕ
  nextToolIndex : ℕ

structure EncodedChatChunk where
  body : List UInt8
  report : ConversionReport

namespace OpenAiChatEventEncoder

def new : OpenAiChatEventEncoder := ⟨"pooler-response", "", false, false, .empty, 0⟩

def count (n : ℕ) : Json := .number (.posInt (.ofNat n))

def choice (delta finishReason : Json) : Json :=
  .ofFields [("index", count 0), ("delta", delta), ("finish_reason", finishReason)]

def encodeFinishReason : FinishReason → String
  | .stop => "stop"
  | .length => "length"
  | .toolCall => "tool_calls"
  | .contentFilter => "content_filter"
  | .error => "error"
  | .other value => value

def encodeUsage (usage : Usage) : Json :=
  let totalTokens := usage.totalTokens.getD (.ofNat (satAdd u64Max usage.inputTokens.toNat usage.outputTokens.toNat))
  let tokens (n : UInt64) : Json := .number (.posInt n)
  let value := Assoc.ofList [("prompt_tokens", tokens usage.inputTokens),
    ("completion_tokens", tokens usage.outputTokens), ("total_tokens", tokens totalTokens)]
  let value := value.insertSome "completion_tokens_details"
    (usage.reasoningTokens.map fun n => .ofFields [("reasoning_tokens", tokens n)])
  .object (value.insertSome "prompt_tokens_details"
    (usage.cachedInputTokens.map fun n => .ofFields [("cached_tokens", tokens n)]))

variable (s : OpenAiChatEventEncoder)

def baseChunk : Assoc String Json :=
  .ofList [("id", .string s.responseId), ("object", .string "chat.completion.chunk"), ("created", count 0),
    ("model", .string s.model)]

def toolIndex (id : String) : ℕ × OpenAiChatEventEncoder :=
  match s.toolIndices.get id with
  | some index => (index, s)
  | none =>
    (s.nextToolIndex,
      { s with nextToolIndex := s.nextToolIndex + 1, toolIndices := s.toolIndices.insert id s.nextToolIndex })

/-- What an event becomes: the fields it adds to a chunk, or a body of its own. -/
structure Draft where
  notes : List Note := []
  choices : Option (List Json) := none
  (usage body : Option Json := none)

variable (fields : List (String × Json))

def delta : Draft := { choices := some [choice (.ofFields fields) .null] }

def toolDelta : Draft := delta [("tool_calls", .array [.ofFields fields])]

def draft : StreamEventKind → Except OpenAiChatError (Draft × OpenAiChatEventEncoder)
  | .responseStart responseId model =>
    if s.responseStarted then .error (.unsupportedEvent "response start appeared more than once")
    else .ok (delta [("role", .string "assistant")],
      { s with responseId := responseId.getD s.responseId, model := model.getD s.model, responseStarted := true })
  | .textDelta text => .ok (delta [("content", .string text)], s)
  | .toolCallStart id name =>
    let (index, next) := s.toolIndex id
    .ok (toolDelta [("index", count index), ("id", .string id), ("type", .string "function"),
      ("function", .ofFields [("name", .string name)])], next)
  | .toolCallDelta id arguments =>
    match s.toolIndices.get id with
    | some index =>
      .ok (toolDelta [("index", count index), ("function", .ofFields [("arguments", .string arguments)])], s)
    | none => .error (.unsupportedEvent s!"tool call `{id}` has no start event")
  | .refusal text => .ok (delta [("refusal", .string text)], s)
  | .usage usage => .ok ({ choices := some [], usage := some (encodeUsage usage) }, s)
  | .completion finishReason usage =>
    .ok ({ choices := some [choice (.ofFields []) (.string (encodeFinishReason finishReason))],
           usage := usage.map encodeUsage }, { s with completed := true })
  | .failure error =>
    -- the source returns from here, before it could note that the stream is over
    .ok ({ notes := [.applyRule "openai.chat.error"],
           body := some (.ofFields [("error", .ofFields [("message", .string error.message),
             ("type", .string error.code)])]) }, s)
  | .reasoningStart | .reasoningDelta _ | .reasoningEnd _ =>
    .ok ({ notes := [.dropOptional "reasoning" "OpenAI Chat has no standard reasoning stream field"] }, s)
  | .textStart | .textEnd | .toolCallEnd _ => .ok ({}, s)
  | .opaqueEvent mediaType _ =>
    if mediaType = OpenAiResponsesEventDecoder.builtinEventMediaType then
      .ok ({ notes := [.unsupportedRequired "event"
        "OpenAI Responses built-in output cannot be represented as an OpenAI Chat event"] }, s)
    else .ok ({ notes := [.dropOptional "event" "OpenAI Chat has no representation for this event"] }, s)
  | .metadata _ | .media _ _ | .warning _ =>
    .ok ({ notes := [.dropOptional "event" "OpenAI Chat has no representation for this event"] }, s)

/-- The value that is written for the draft, if there is anything to write. -/
def Draft.value (draft : Draft) : Option Json :=
  draft.body <|> draft.choices.map fun choices =>
    .object ((s.baseChunk.insert "choices" (.array choices)).insertSome "usage" draft.usage)

variable [Platform]

def encodeEvent (policy : LossPolicy) (event : StreamEvent) :
    Except OpenAiChatError (Option EncodedChatChunk) × OpenAiChatEventEncoder :=
  if s.completed then (.error (.unsupportedEvent "event appeared after completion"), s)
  else
    match s.draft event.kind with
    | .error error => (.error error, s)
    | .ok (draft, next) =>
      let report := ConversionReport.ofNotes draft.notes
      match report.validate policy with
      | .error error => (.error (.conversion error), next)
      | .ok () => (.ok ((draft.value next).map fun value => ⟨toVec value, report⟩), next)

end OpenAiChatEventEncoder

end Pooler
