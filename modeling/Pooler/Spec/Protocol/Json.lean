import Pooler.Lib.Assoc

/-! JSON values as `serde_json` holds them: integers of 64 bits and doubles, and objects in the
order of their keys. -/

namespace Pooler

open Lib

/-- A double, by its bits. -/
structure F64 where
  bits : UInt64
  deriving DecidableEq, Repr

inductive JsonNumber where
  | posInt (n : UInt64)
  | negInt (n : Int64)
  | float (x : F64)
  deriving DecidableEq, Repr

inductive Json where
  | null
  | bool (b : Bool)
  | number (n : JsonNumber)
  | string (s : String)
  | array (items : List Json)
  | object (fields : List (String × Json))
  deriving Repr

namespace Json

mutual

/-- Equality of values, decided node by node. -/
def decEq : ∀ a b : Json, Decidable (a = b)
  | .null, .null => isTrue rfl
  | .bool a, .bool b => decidable_of_iff (a = b) (by simp)
  | .number a, .number b => decidable_of_iff (a = b) (by simp)
  | .string a, .string b => decidable_of_iff (a = b) (by simp)
  | .array as, .array bs =>
    match decEqItems as bs with
    | isTrue h => isTrue (h ▸ rfl)
    | isFalse h => isFalse (fun he => h (by injection he))
  | .object as, .object bs =>
    match decEqFields as bs with
    | isTrue h => isTrue (h ▸ rfl)
    | isFalse h => isFalse (fun he => h (by injection he))
  | .null, .bool _ | .null, .number _ | .null, .string _ | .null, .array _ | .null, .object _
  | .bool _, .null | .bool _, .number _ | .bool _, .string _ | .bool _, .array _ | .bool _, .object _
  | .number _, .null | .number _, .bool _ | .number _, .string _ | .number _, .array _ | .number _, .object _
  | .string _, .null | .string _, .bool _ | .string _, .number _ | .string _, .array _ | .string _, .object _
  | .array _, .null | .array _, .bool _ | .array _, .number _ | .array _, .string _ | .array _, .object _
  | .object _, .null | .object _, .bool _ | .object _, .number _ | .object _, .string _
  | .object _, .array _ => isFalse nofun

def decEqItems : ∀ as bs : List Json, Decidable (as = bs)
  | [], [] => isTrue rfl
  | [], _ :: _ => isFalse nofun
  | _ :: _, [] => isFalse nofun
  | a :: as, b :: bs =>
    match decEq a b, decEqItems as bs with
    | isTrue h, isTrue hs => isTrue (h ▸ hs ▸ rfl)
    | isFalse h, _ => isFalse (fun he => h (by injection he))
    | _, isFalse hs => isFalse (fun he => hs (by injection he))

def decEqFields : ∀ as bs : List (String × Json), Decidable (as = bs)
  | [], [] => isTrue rfl
  | [], _ :: _ => isFalse nofun
  | _ :: _, [] => isFalse nofun
  | (k, a) :: as, (l, b) :: bs =>
    match decEq a b, decEqFields as bs with
    | isTrue h, isTrue hs => decidable_of_iff (k = l) (by simp [h, hs])
    | isFalse h, _ => isFalse (fun he => h (by injection he with he _; injection he))
    | _, isFalse hs => isFalse (fun he => hs (by injection he))

end

instance : DecidableEq Json := decEq

def isNull : Json → Bool
  | .null => true
  | _ => false

def asBool : Json → Option Bool
  | .bool b => some b
  | _ => none

def asStr : Json → Option String
  | .string s => some s
  | _ => none

def asU64 : Json → Option UInt64
  | .number (.posInt n) => some n
  | _ => none

def asArray : Json → Option (List Json)
  | .array items => some items
  | _ => none

def asObject : Json → Option (Assoc String Json)
  | .object fields => some fields
  | _ => none

/-- A field that is there and not null. -/
def present (object : Assoc String Json) (key : String) : Option Json :=
  (object.get key).filter (fun value => !value.isNull)

end Json

end Pooler
