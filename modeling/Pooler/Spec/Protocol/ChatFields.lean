import Pooler.Spec.Protocol.Json

/-! Errors of the Chat Completions codec and the functions that read one field of an object. -/

namespace Pooler

open Lib

inductive RequestValidationError where
  | emptyModel
  | emptyToolName
  | duplicateToolName (name : String)
  deriving DecidableEq

inductive LossPolicy where
  | reject
  | preserve
  | degrade
  deriving DecidableEq

structure ConversionError where
  policy : LossPolicy
  (unsupportedRequiredFields disallowedLosses : List String)
  deriving DecidableEq

inductive OpenAiChatError where
  | invalidJson
  | missingField (field : String)
  | invalidShape (field expected : String)
  | invalidValue (field message : String)
  | conflictingFields (first second : String)
  | requestValidation (error : RequestValidationError)
  | conversion (error : ConversionError)
  | invalidStream (message : String)
  | unsupportedEvent (message : String)
  | invalidExtension (key : String)
  deriving DecidableEq

namespace OpenAiChat

/-- The value if it is there, and otherwise the error. -/
def orError {ε α : Type} (error : ε) : Option α → Except ε α
  | some a => .ok a
  | none => .error error

def shape {α : Type} (field expected : String) (value : Option α) : Except OpenAiChatError α :=
  orError (.invalidShape field expected) value

variable (object : Assoc String Json)

def requiredString (key field : String) : Except OpenAiChatError String := do
  let value ← orError (.missingField field) (object.get key)
  shape field "a string" value.asStr

def optionalString (key field : String) : Except OpenAiChatError (Option String) :=
  match object.get key with
  | none => .ok none
  | some value => some <$> shape field "a string" value.asStr

def optionalBool (key field : String) : Except OpenAiChatError (Option Bool) :=
  match object.get key with
  | none => .ok none
  | some value => some <$> shape field "a boolean" value.asBool

def usageCount (field : String) : Except OpenAiChatError (Option UInt64) :=
  match object.get field with
  | none => .ok none
  | some value => some <$> shape ("usage." ++ field) "an unsigned integer" value.asU64

end OpenAiChat

end Pooler
