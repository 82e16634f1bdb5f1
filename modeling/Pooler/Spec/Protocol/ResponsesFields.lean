import Pooler.Spec.Protocol.ChatFields

/-! Errors of the Responses codec and the functions that read one field of an object. Here `null`
stands for a field that is absent. -/

namespace Pooler

open Lib

inductive OpenAiResponsesError where
  | invalidJson
  | missingField (field : String)
  | invalidShape (field expected : String)
  | invalidValue (field message : String)
  | requestValidation (error : RequestValidationError)
  | preservedJson
  | conversion (error : ConversionError)
  | invalidStream (message : String)
  | unsupportedEvent (message : String)
  | invalidExtension (key : String)
  deriving DecidableEq

namespace OpenAiResponses

open OpenAiChat (orError)

def shape {α : Type} (field expected : String) (value : Option α) : Except OpenAiResponsesError α :=
  orError (.invalidShape field expected) value

variable (object : Assoc String Json)

def requiredString (key field : String) : Except OpenAiResponsesError String := do
  let value ← orError (.missingField field) (object.get key)
  shape field "a string" value.asStr

def requiredU64 (key field : String) : Except OpenAiResponsesError UInt64 := do
  let value ← orError (.missingField field) (object.get key)
  shape field "an unsigned integer" value.asU64

def optionalString (key field : String) :
    Except OpenAiResponsesError (Option String) :=
  match Json.present object key with
  | none => .ok none
  | some value => some <$> shape field "a string or null" value.asStr

def usageCount (field : String) : Except OpenAiResponsesError (Option UInt64) :=
  match Json.present object field with
  | none => .ok none
  | some value => some <$> shape ("usage." ++ field) "an unsigned integer" value.asU64

/-- The text of one part of a reasoning summary. -/
def summaryPart (field : String) (index : ℕ) (part : Json) : Except OpenAiResponsesError String := do
  let object ← shape s!"{field}[{index}]" "an object" part.asObject
  let kind ← requiredString object "type" s!"{field}[{index}].type"
  if kind ≠ "summary_text" then .error (.invalidValue s!"{field}[{index}].type" s!"unsupported summary part `{kind}`")
  else requiredString object "text" s!"{field}[{index}].text"

/-- The joined texts of a reasoning summary, if there is any text. -/
def parseSummary (value : Option Json) (field : String) : Except OpenAiResponsesError (Option String) :=
  match value with
  | none => .ok none
  | some value => do
    let parts ← shape field "an array" value.asArray
    let texts ← parts.zipIdx.mapM fun part => summaryPart field part.2 part.1
    let text := String.join texts
    .ok (if text.isEmpty then none else some text)

end OpenAiResponses

end Pooler
