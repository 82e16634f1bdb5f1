import Pooler.Spec.Protocol.Json
import Pooler.Spec.Text

/-! What the codecs take from `serde_json` and from the conversions of the standard library, and JSON
documents that keep the bytes they were read from. -/

namespace Pooler

open Lib List

/-! ### Numbers -/

/-- A single, by its bits. -/
structure F32 where
  bits : UInt32
  deriving DecidableEq

def F32.isFinite (x : F32) : Bool := x.bits &&& 0x7F800000 ≠ 0x7F800000

def F64.isFinite (x : F64) : Bool := x.bits &&& 0x7FF0000000000000 ≠ 0x7FF0000000000000

/-- Between `f32::MIN` and `f32::MAX`. -/
def F64.inF32Range (x : F64) : Bool := x.bits &&& 0x7FFFFFFFFFFFFFFF ≤ 0x47EFFFFFE0000000

/-! ### Values that `serde_json` can hold -/

namespace Json

mutual

/-- The keys of every object are in order, negative numbers are negative and floats are finite. -/
def WellFormed : Json → Prop
  | .number (.negInt n) => n < 0
  | .number (.float x) => x.isFinite = true
  | .array items => WellFormedItems items
  | .object fields => Assoc.Sorted fields ∧ WellFormedFields fields
  | .null | .bool _ | .number (.posInt _) | .string _ => True

def WellFormedItems : List Json → Prop
  | [] => True
  | item :: items => WellFormed item ∧ WellFormedItems items

def WellFormedFields : List (String × Json) → Prop
  | [] => True
  | (_, value) :: fields => WellFormed value ∧ WellFormedFields fields

end

mutual

/-- How deep arrays and objects are nested. -/
def nesting : Json → ℕ
  | .array items => itemsNesting items + 1
  | .object fields => fieldsNesting fields + 1
  | .null | .bool _ | .number _ | .string _ => 0

def itemsNesting : List Json → ℕ
  | [] => 0
  | item :: items => max item.nesting (itemsNesting items)

def fieldsNesting : List (String × Json) → ℕ
  | [] => 0
  | (_, value) :: fields => max value.nesting (fieldsNesting fields)

end

def canonicalNumber : JsonNumber → Json
  | .posInt n => .number (.posInt n)
  | .negInt n => if n < 0 then .number (.negInt n) else .number (.posInt n.toUInt64)
  | .float x => if x.isFinite then .number (.float x) else .null

mutual

/-- The value that `serde_json` would hold instead. A value that it can hold is not changed. -/
def canonical : Json → Json
  | .number n => canonicalNumber n
  | .array items => .array (canonicalItems items)
  | .object fields => .object (Assoc.ofList (canonicalFields fields))
  | .null => .null
  | .bool b => .bool b
  | .string s => .string s

def canonicalItems : List Json → List Json
  | [] => []
  | item :: items => canonical item :: canonicalItems items

def canonicalFields : List (String × Json) → List (String × Json)
  | [] => []
  | (key, value) :: fields => (key, canonical value) :: canonicalFields fields

end

theorem wellFormed_canonicalNumber (n : JsonNumber) : (canonicalNumber n).WellFormed := by
  cases n with
  | posInt n => trivial
  | negInt n =>
    rw [canonicalNumber]
    split
    next h => exact h
    · trivial
  | float x =>
    rw [canonicalNumber]
    split
    next h => exact h
    · trivial

theorem wellFormedItems_iff {items : List Json} : WellFormedItems items ↔ ∀ item ∈ items, item.WellFormed := by
  induction items with
  | nil => simp [WellFormedItems]
  | cons item items ih => rw [WellFormedItems, ih, forall_mem_cons]

theorem wellFormedFields_iff {fields : List (String × Json)} :
    WellFormedFields fields ↔ ∀ field ∈ fields, field.2.WellFormed := by
  induction fields with
  | nil => simp [WellFormedFields]
  | cons field fields ih => rw [WellFormedFields, ih, forall_mem_cons]

mutual

theorem wellFormed_canonical : ∀ value : Json, value.canonical.WellFormed
  | .null | .bool _ | .string _ => trivial
  | .number n => wellFormed_canonicalNumber n
  | .array items => wellFormedItems_iff.2 (wellFormed_canonicalItems items)
  | .object fields => ⟨Assoc.sorted_ofList _, wellFormedFields_iff.2 fun field hfld =>
      wellFormed_canonicalFields fields field (Assoc.mem_of_mem_ofList hfld)⟩

theorem wellFormed_canonicalItems : ∀ items : List Json, ∀ item ∈ canonicalItems items, item.WellFormed
  | [] => nofun
  | item :: items => forall_mem_cons.2 ⟨wellFormed_canonical item, wellFormed_canonicalItems items⟩

theorem wellFormed_canonicalFields : ∀ fields : List (String × Json),
    ∀ field ∈ canonicalFields fields, field.2.WellFormed
  | [] => nofun
  | (_, value) :: fields => forall_mem_cons.2 ⟨wellFormed_canonical value, wellFormed_canonicalFields fields⟩

end

def ofFields (fields : List (String × Json)) : Json := .object (Assoc.ofList fields)

end Json

/-- The parser refuses documents that are nested deeper than this. -/
def maxNesting : ℕ := 127

/-- `serde_json` and the conversions of the standard library, by what is documented of them. A float
is opaque: printing and parsing it gives it back. -/
class Platform where
  /-- `serde_json::to_vec` of a value. -/
  toVec : Json → List UInt8
  /-- `serde_json::from_slice` to a value. -/
  fromSlice : List UInt8 → Option Json
  /-- `String::from_utf8_lossy`. -/
  fromUtf8Lossy : List UInt8 → String
  f32ToF64 : F32 → F64
  f64ToF32 : F64 → F32
  u64ToF64 : UInt64 → F64
  i64ToF64 : Int64 → F64
  fromSlice_toVec : ∀ v : Json, v.WellFormed → v.nesting ≤ maxNesting → fromSlice (toVec v) = some v
  fromSlice_toVec_deep : ∀ v : Json, v.WellFormed → maxNesting < v.nesting → fromSlice (toVec v) = none
  wellFormed_of_fromSlice : ∀ {bytes : List UInt8} {v : Json}, fromSlice bytes = some v → v.WellFormed
  nesting_of_fromSlice : ∀ {bytes : List UInt8} {v : Json}, fromSlice bytes = some v → v.nesting ≤ maxNesting
  text_of_toVec : ∀ v : Json, ∃ s, toVec v = utf8 s
  text_of_fromSlice : ∀ {bytes : List UInt8} {v : Json}, fromSlice bytes = some v → ∃ s, bytes = utf8 s
  fromUtf8Lossy_utf8 : ∀ s : String, fromUtf8Lossy (utf8 s) = s
  isFinite_f32ToF64 : ∀ x : F32, x.isFinite = true → (f32ToF64 x).isFinite = true
  inF32Range_f32ToF64 : ∀ x : F32, x.isFinite = true → (f32ToF64 x).inF32Range = true
  f64ToF32_f32ToF64 : ∀ x : F32, x.isFinite = true → f64ToF32 (f32ToF64 x) = x

export Platform (toVec fromSlice fromUtf8Lossy f32ToF64 f64ToF32 u64ToF64 i64ToF64)

variable [Platform]

namespace Json

/-- `Value::as_f64`. -/
def asF64 : Json → Option F64
  | .number (.posInt n) => some (u64ToF64 n)
  | .number (.negInt n) => some (i64ToF64 n)
  | .number (.float x) => some x
  | _ => none

/-- The `json!` of a single: `null` stands for what JSON cannot write. -/
def ofF32 (x : F32) : Json := if x.isFinite then .number (.float (f32ToF64 x)) else .null

end Json

/-! ### Documents -/

/-- A document with the bytes it was read from or first printed to. -/
structure PreservedJson where
  original : List UInt8
  value : Json
  modified : Bool
  wellFormed : value.WellFormed
  represents : modified = false → fromSlice original = some value ∨ original = toVec value

namespace PreservedJson

def fromBytes (bytes : List UInt8) : Option PreservedJson :=
  match h : fromSlice bytes with
  | none => none
  | some value => some ⟨bytes, value, false, Platform.wellFormed_of_fromSlice h, fun _ => .inl h⟩

def fromStr (value : String) : Option PreservedJson := fromBytes (utf8 value)

def fromValue (value : Json) : PreservedJson :=
  ⟨toVec value.canonical, value.canonical, false, value.wellFormed_canonical, fun _ => .inr rfl⟩

def toBytes (document : PreservedJson) : List UInt8 :=
  if document.modified then toVec document.value else document.original

end PreservedJson

end Pooler
