import Pooler.Lib.Assoc
import Pooler.Spec.Text

/-! Opaque provider data that requests, messages and events carry along. -/

namespace Pooler

open Lib

/-- `validate_component`: ASCII letters, digits, dots, underscores and dashes, with a letter or a
digit at both ends. -/
def validComponent (value : Text) : Bool :=
  value.all (fun c => c.isAlphanum || ['.', '_', '-'].contains c) &&
    value.head?.any Char.isAlphanum && value.getLast?.any Char.isAlphanum

/-- A validated namespace or name. -/
structure ExtensionComponent where
  text : String
  valid : validComponent text.toList = true
  deriving DecidableEq

structure ExtensionKey where
  (nameSpace name : ExtensionComponent)
  deriving DecidableEq

def ExtensionKey.asStr (key : ExtensionKey) : String := key.nameSpace.text ++ "." ++ key.name.text

inductive ReplayPolicy where
  | never
  | ifSafe
  | always
  deriving DecidableEq

structure OpaqueExtension where
  (nameSpace name : ExtensionComponent)
  mediaType : String
  replayPolicy : ReplayPolicy
  bytes : List UInt8
  deriving DecidableEq

def OpaqueExtension.key (extension : OpaqueExtension) : ExtensionKey := ⟨extension.nameSpace, extension.name⟩

/-- Extensions in the order they were inserted. -/
abbrev Extensions := List (ExtensionKey × OpaqueExtension)

inductive ExtensionError where
  | invalidComponent (kind value : String)
  | invalidKey (value : String)
  deriving DecidableEq

def ExtensionComponent.new (kind value : String) : Except ExtensionError ExtensionComponent :=
  if h : validComponent value.toList = true then .ok ⟨value, h⟩ else .error (.invalidComponent kind value)

def ExtensionKey.new (nameSpace name : String) : Except ExtensionError ExtensionKey := do
  return ⟨← ExtensionComponent.new "namespace" nameSpace, ← ExtensionComponent.new "name" name⟩

/-- The name is what follows the last dot. -/
def ExtensionKey.parse (value : String) : Except ExtensionError ExtensionKey :=
  match rsplitOnce '.' value.toList with
  | none => .error (.invalidKey value)
  | some (nameSpace, name) => ExtensionKey.new (String.ofList nameSpace) (String.ofList name)

namespace Extensions

/-- A known key keeps its place. -/
def put (extensions : Extensions) (key : ExtensionKey) (extension : OpaqueExtension) : Extensions :=
  if key ∈ extensions.map (·.1) then extensions.map fun entry => if entry.1 = key then (key, extension) else entry
  else extensions ++ [(key, extension)]

def insert (extensions : Extensions) (extension : OpaqueExtension) : Extensions := extensions.put extension.key extension

/-- The fields of the JSON object. An extension is written with its own namespace and name. -/
def serialize (extensions : Extensions) : List (String × OpaqueExtension) :=
  extensions.map fun entry => (entry.1.asStr, entry.2)

def readField (extensions : Extensions) (field : String × OpaqueExtension) : Except ExtensionError Extensions := do
  return extensions.put (← ExtensionKey.parse field.1) field.2

def deserialize (fields : List (String × OpaqueExtension)) : Except ExtensionError Extensions := fields.foldlM readField []

end Extensions

/-- Bytes, or a URI that the provider understands. -/
inductive MediaSource where
  | inline (bytes : List UInt8)
  | uri (uri : String)
  deriving DecidableEq

structure ReasoningBlock where
  (id text summary : Option String)
  (encryptedContent signature : Option (List UInt8))
  extensions : Extensions
  deriving DecidableEq

end Pooler
