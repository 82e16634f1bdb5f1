import Pooler.Spec.Protocol.ChatFields
import Pooler.Spec.Protocol.Extensions
import Pooler.Spec.Protocol.Serde

/-! Protocol-neutral requests. -/

namespace Pooler

open Lib

variable [Platform]

inductive Role where
  | system
  | developer
  | user
  | assistant
  | tool
  deriving DecidableEq

structure Protocol.TargetMetadata where
  (provider model endpoint region account : Option String)
  metadata : OrderedMap String String
  extensions : Extensions

structure ToolCall where
  (id name : String)
  arguments : PreservedJson
  dependencies : List String
  extensions : Extensions

def ToolCall.new (id name : String) (arguments : PreservedJson) : ToolCall := ⟨id, name, arguments, [], []⟩

mutual

structure ToolResult where
  toolCallId : String
  content : List ContentPart
  isError : Bool
  extensions : Extensions

inductive ContentPart where
  | text (text : String)
  | image (mediaType : String) (source : MediaSource) (detail : Option String)
  | file (name : Option String) (mediaType : String) (source : MediaSource)
  | audio (mediaType : String) (source : MediaSource)
  | reasoning (reasoning : ReasoningBlock)
  | toolCall (call : ToolCall)
  | toolResult (result : ToolResult)
  | provider (nameSpace name : String) (data : PreservedJson)

end

structure Message where
  id : Option String
  role : Role
  content : List ContentPart
  (name toolCallId : Option String)
  metadata : OrderedMap String String
  extensions : Extensions

/-- A message with nothing but its content. -/
def Message.ofContent (role : Role) (content : List ContentPart) : Message :=
  ⟨none, role, content, none, none, .empty, []⟩

def Message.text (role : Role) (text : String) : Message := .ofContent role [.text text]

inductive InputItem where
  | message (message : Message)
  | toolCall (call : ToolCall)
  | toolResult (result : ToolResult)
  | content (part : ContentPart)
  | provider (nameSpace name : String) (data : PreservedJson)

inductive ReasoningEffort where
  | low
  | medium
  | high
  | max
  | custom (value : String)
  deriving DecidableEq

/-- Both codecs name an effort in the same way. -/
def reasoningEffortName : ReasoningEffort → String
  | .low => "low"
  | .medium => "medium"
  | .high => "high"
  | .max => "max"
  | .custom value => value

def parseReasoningEffort : String → ReasoningEffort
  | "low" => .low
  | "medium" => .medium
  | "high" => .high
  | "max" => .max
  | other => .custom other

structure ReasoningConfig where
  effort : Option ReasoningEffort
  includeSummary : Bool
  extensions : Extensions
  deriving DecidableEq

structure ToolDefinition where
  name : String
  description : Option String
  parameters : Option PreservedJson
  strict : Option Bool
  extensions : Extensions

inductive ToolChoice where
  | auto
  | none
  | required
  | tool (name : String)
  deriving DecidableEq

structure SamplingParameters where
  (temperature topP : Option F32)
  maxOutputTokens : Option UInt32
  stop : List String
  seed : Option UInt64
  (presencePenalty frequencyPenalty : Option F32)
  extensions : Extensions
  deriving DecidableEq

def SamplingParameters.default : SamplingParameters := ⟨none, none, none, [], none, none, none, []⟩

inductive ResponseFormat where
  | text
  | jsonObject
  | jsonSchema (name : String) (schema : PreservedJson) (strict : Bool)

structure CacheHints where
  (allowPromptCache preferCacheRead : Bool)
  key : Option String
  extensions : Extensions

structure SemanticRequest where
  model : String
  target : Option Protocol.TargetMetadata
  input : List InputItem
  tools : List ToolDefinition
  toolChoice : Option ToolChoice
  reasoning : Option ReasoningConfig
  sampling : SamplingParameters
  responseFormat : Option ResponseFormat
  cache : Option CacheHints
  (continuationId sessionId : Option String)
  metadata : OrderedMap String String
  extensions : Extensions

namespace SemanticRequest

def new (model : String) : SemanticRequest :=
  ⟨model, none, [], [], none, none, .default, none, none, none, none, .empty, []⟩

def isBlank (value : String) : Bool := (trim value.toList).isEmpty

/-- The names of the tools, checked one after the other against the ones before. -/
def validateTools : List String → List ToolDefinition → Except RequestValidationError Unit
  | _, [] => .ok ()
  | seen, tool :: tools =>
    if isBlank tool.name then .error .emptyToolName
    else if seen.contains tool.name then .error (.duplicateToolName tool.name)
    else validateTools (seen ++ [tool.name]) tools

def validate (request : SemanticRequest) : Except RequestValidationError Unit :=
  if isBlank request.model then .error .emptyModel else validateTools [] request.tools

end SemanticRequest

/-! ### Media -/

def base64Alphabet : List Char := "ABCDEFGHIJKLMNOPQRSTUVWXYZabcdefghijklmnopqrstuvwxyz0123456789+/".toList

def base64Char (n : UInt8) : Char := base64Alphabet.getD n.toNat '='

def encodeBase64Chars : List UInt8 → List Char
  | [] => []
  | [first] => [base64Char (first >>> 2), base64Char ((first &&& 0x03) <<< 4), '=', '=']
  | [first, second] =>
    [base64Char (first >>> 2), base64Char ((first &&& 0x03) <<< 4 ||| second >>> 4),
      base64Char ((second &&& 0x0f) <<< 2), '=']
  | first :: second :: third :: rest =>
    base64Char (first >>> 2) :: base64Char ((first &&& 0x03) <<< 4 ||| second >>> 4) ::
      base64Char ((second &&& 0x0f) <<< 2 ||| third >>> 6) :: base64Char (third &&& 0x3f) :: encodeBase64Chars rest

def encodeBase64 (bytes : List UInt8) : String := .ofList (encodeBase64Chars bytes)

def encodeMediaSource (mediaType : String) : MediaSource → String
  | .uri uri => uri
  | .inline bytes => s!"data:{mediaType};base64,{encodeBase64 bytes}"

end Pooler
