import Pooler.Spec.Protocol.Serde
import Pooler.Spec.Text

/-! # JSON pointers (`pooler-protocol/src/json.rs`, `pooler-config/src/lib.rs`)

How patches read them and how the configuration checks them. -/

namespace Pooler

open Lib

structure JsonPatchLimits where
  maxPointerBytes : ℕ := 1024
  maxPointerDepth : ℕ := 32
  maxValueBytes : ℕ := 1024 * 1024

inductive JsonPatchError where
  | invalidPointer (pointer : Text)
  | pointerTooLong (observed limit : ℕ)
  | pointerTooDeep (observed limit : ℕ)
  | valueTooLarge (observed limit : ℕ)
  deriving DecidableEq, Repr

def decodePointerToken : Text → Option Text
  | [] => some []
  | '~' :: '0' :: rest => (decodePointerToken rest).map ('~' :: ·)
  | '~' :: '1' :: rest => (decodePointerToken rest).map ('/' :: ·)
  | '~' :: _ => none
  | c :: rest => (decodePointerToken rest).map (c :: ·)

def parsePointer : Text → Except JsonPatchError (List Text)
  | [] => .ok []
  | '/' :: rest =>
    match (rest.splitOn '/').mapM decodePointerToken with
    | some tokens => .ok tokens
    | none => .error (.invalidPointer ('/' :: rest))
  | pointer => .error (.invalidPointer pointer)

def validatePatch [Platform] (pointer : Text) (value : Json) (limits : JsonPatchLimits) :
    Except JsonPatchError (List Text) :=
  if String.utf8Len pointer > limits.maxPointerBytes then
    .error (.pointerTooLong (String.utf8Len pointer) limits.maxPointerBytes)
  else do
    let tokens ← parsePointer pointer
    if tokens.length > limits.maxPointerDepth then
      .error (.pointerTooDeep tokens.length limits.maxPointerDepth)
    else if (toVec value).length > limits.maxValueBytes then
      .error (.valueTooLarge (toVec value).length limits.maxValueBytes)
    else .ok tokens

/-- The loop over the characters; `escaped` after a tilde. -/
def validEscapes : Bool → Text → Bool
  | escaped, [] => !escaped
  | true, c :: rest => (c = '0' || c = '1') && validEscapes false rest
  | false, c :: rest => validEscapes (c = '~') rest

/-- The check of the configuration. -/
def validateJsonPointer (pointer : Text) : Except String Unit :=
  let limits : JsonPatchLimits := {}
  if String.utf8Len pointer > limits.maxPointerBytes ∨ (pointer ≠ [] ∧ pointer.head? ≠ some '/') then
    .error "request transform pointer is invalid or too long"
  else if ((pointer.splitOn '/').drop 1).length > limits.maxPointerDepth then
    .error "request transform pointer is too deep"
  else if validEscapes false (pointer.drop 1) = false then
    .error "request transform pointer has an invalid escape"
  else .ok ()

end Pooler
