import Pooler.Spec.Protocol.Model

/-! When two requests say the same. A JSON document counts by what it holds, not by how it was
written. -/

namespace Pooler

open Lib List

variable [Platform]

structure ToolCall.Same (a b : ToolCall) : Prop where
  id : a.id = b.id
  name : a.name = b.name
  arguments : a.arguments.value = b.arguments.value
  dependencies : a.dependencies = b.dependencies
  extensions : a.extensions = b.extensions

inductive ContentPart.Same : ContentPart → ContentPart → Prop
  | text (text : String) : Same (.text text) (.text text)
  | image (mediaType : String) (source : MediaSource) (detail : Option String) :
    Same (.image mediaType source detail) (.image mediaType source detail)
  | file (name : Option String) (mediaType : String) (source : MediaSource) :
    Same (.file name mediaType source) (.file name mediaType source)
  | audio (mediaType : String) (source : MediaSource) : Same (.audio mediaType source) (.audio mediaType source)
  | reasoning (reasoning : ReasoningBlock) : Same (.reasoning reasoning) (.reasoning reasoning)
  | toolCall {a b} (h : a.Same b) : Same (.toolCall a) (.toolCall b)
  | toolResult (toolCallId : String) {a b : List ContentPart} (isError : Bool) (extensions : Extensions)
    (h : Forall₂ Same a b) :
    Same (.toolResult ⟨toolCallId, a, isError, extensions⟩) (.toolResult ⟨toolCallId, b, isError, extensions⟩)
  | provider (nameSpace name : String) {a b : PreservedJson} (h : a.value = b.value) :
    Same (.provider nameSpace name a) (.provider nameSpace name b)

namespace ContentPart

variable {part : ContentPart}

@[simp] theorem same_text_iff {text : String} : (ContentPart.text text).Same part ↔ part = .text text :=
  ⟨fun h => by cases h; rfl, fun h => h ▸ .text text⟩

@[simp] theorem same_image_iff {mediaType : String} {source : MediaSource} {detail : Option String} :
    (ContentPart.image mediaType source detail).Same part ↔ part = .image mediaType source detail :=
  ⟨fun h => by cases h; rfl, fun h => h ▸ .image mediaType source detail⟩

@[simp] theorem same_file_iff {name : Option String} {mediaType : String} {source : MediaSource} :
    (ContentPart.file name mediaType source).Same part ↔ part = .file name mediaType source :=
  ⟨fun h => by cases h; rfl, fun h => h ▸ .file name mediaType source⟩

@[simp] theorem same_audio_iff {mediaType : String} {source : MediaSource} :
    (ContentPart.audio mediaType source).Same part ↔ part = .audio mediaType source :=
  ⟨fun h => by cases h; rfl, fun h => h ▸ .audio mediaType source⟩

@[simp] theorem same_toolCall_iff {call : ToolCall} :
    (ContentPart.toolCall call).Same part ↔ ∃ call', part = .toolCall call' ∧ call.Same call' :=
  ⟨fun h => by cases h with | toolCall h => exact ⟨_, rfl, h⟩, fun ⟨_, h, hs⟩ => h ▸ .toolCall hs⟩

@[simp] theorem same_provider_iff {nameSpace name : String} {data : PreservedJson} :
    (ContentPart.provider nameSpace name data).Same part ↔
      ∃ data', part = .provider nameSpace name data' ∧ data.value = data'.value :=
  ⟨fun h => by cases h with | provider _ _ h => exact ⟨_, rfl, h⟩, fun ⟨_, h, hs⟩ => h ▸ .provider _ _ hs⟩

end ContentPart

structure ToolResult.Same (a b : ToolResult) : Prop where
  toolCallId : a.toolCallId = b.toolCallId
  content : Forall₂ ContentPart.Same a.content b.content
  isError : a.isError = b.isError
  extensions : a.extensions = b.extensions

structure Message.Same (a b : Message) : Prop where
  id : a.id = b.id
  role : a.role = b.role
  content : Forall₂ ContentPart.Same a.content b.content
  name : a.name = b.name
  toolCallId : a.toolCallId = b.toolCallId
  metadata : a.metadata = b.metadata
  extensions : a.extensions = b.extensions

def InputItem.Same : InputItem → InputItem → Prop
  | .message a, .message b => a.Same b
  | .toolCall a, .toolCall b => a.Same b
  | .toolResult a, .toolResult b => a.Same b
  | .content a, .content b => a.Same b
  | .provider nameSpace name a, .provider nameSpace' name' b => nameSpace = nameSpace' ∧ name = name' ∧ a.value = b.value
  | _, _ => False

structure ToolDefinition.Same (a b : ToolDefinition) : Prop where
  name : a.name = b.name
  description : a.description = b.description
  parameters : a.parameters.map (·.value) = b.parameters.map (·.value)
  strict : a.strict = b.strict
  extensions : a.extensions = b.extensions

def ResponseFormat.Same : ResponseFormat → ResponseFormat → Prop
  | .text, .text => True
  | .jsonObject, .jsonObject => True
  | .jsonSchema name a strict, .jsonSchema name' b strict' => name = name' ∧ a.value = b.value ∧ strict = strict'
  | _, _ => False

end Pooler
