import Pooler.Spec.Protocol.Model
import Pooler.Spec.Protocol.Report
import Pooler.Spec.Protocol.ResponsesFields

/-! What reading a field of an object says about the object, how deep a value is nested, what is read
back of a printed document, and which notes a report tolerates. -/

namespace Pooler

open Lib Assoc List Platform ConversionReport

/-! ### Values -/

namespace Json

variable {value : Json} {s : String}

@[simp] theorem asStr_eq_some : value.asStr = some s ↔ value = .string s := by
  cases value <;> simp [asStr]

@[simp] theorem asBool_eq_some {b} : value.asBool = some b ↔ value = .bool b := by
  cases value <;> simp [asBool]

variable {items : List Json}

@[simp] theorem asArray_eq_some : value.asArray = some items ↔ value = .array items := by
  cases value <;> simp [asArray]

variable {fields : Assoc String Json}

@[simp] theorem asObject_eq_some : value.asObject = some fields ↔ value = .object fields := by
  cases value <;> simp [asObject]

@[simp] theorem wellFormed_bool {b} : (bool b).WellFormed := trivial

@[simp] theorem wellFormed_string : (string s).WellFormed := trivial

@[simp] theorem wellFormed_array : (array items).WellFormed ↔ ∀ item ∈ items, item.WellFormed := by
  rw [WellFormed, wellFormedItems_iff]

theorem wellFormed_object : (object fields).WellFormed ↔ fields.Sorted ∧ fields.All WellFormed := by
  rw [WellFormed, wellFormedFields_iff]
  rfl

@[simp] theorem wellFormed_ofList {fields} (h : ∀ field ∈ fields, field.2.WellFormed) :
    (object (Assoc.ofList fields)).WellFormed :=
  wellFormed_object.2 ⟨sorted_ofList fields, all_ofList h⟩

@[simp] theorem wellFormed_ofFields {fields} (h : ∀ field ∈ fields, field.2.WellFormed) :
    (ofFields fields).WellFormed := wellFormed_ofList h

variable {key kind : String}

@[simp] theorem wellFormed_insert
    (h : (object fields).WellFormed) (hval : value.WellFormed) : (object (fields.insert key value)).WellFormed := by
  obtain ⟨hsort, hall⟩ := wellFormed_object.1 h
  exact wellFormed_object.2 ⟨hsort.insert key value, hall.insert hval⟩

@[simp] theorem wellFormed_insertSome {value} (h : (object fields).WellFormed) (hval : ∀ v ∈ value, v.WellFormed) :
    (object (fields.insertSome key value)).WellFormed := by
  obtain ⟨hsort, hall⟩ := wellFormed_object.1 h
  exact wellFormed_object.2 ⟨hsort.insertSome key value, hall.insertSome hval⟩

theorem wellFormed_tagged (h : (object fields).WellFormed) :
    (ofFields [("type", string kind), (key, object fields)]).WellFormed :=
  wellFormed_ofFields (by simp [h])

@[simp] theorem nesting_null : null.nesting = 0 := rfl

@[simp] theorem nesting_bool {b} : (bool b).nesting = 0 := rfl

@[simp] theorem nesting_number {n} : (number n).nesting = 0 := rfl

@[simp] theorem nesting_string : (string s).nesting = 0 := rfl

variable {n : ℕ}

theorem itemsNesting_le : itemsNesting items ≤ n ↔ ∀ item ∈ items, item.nesting ≤ n := by
  induction items with
  | nil => simp [itemsNesting]
  | cons item items ih => rw [itemsNesting, max_le_iff, ih, forall_mem_cons]

theorem fieldsNesting_le {fields} : fieldsNesting fields ≤ n ↔ ∀ field ∈ fields, field.2.nesting ≤ n := by
  induction fields with
  | nil => simp [fieldsNesting]
  | cons field fields ih => rw [fieldsNesting, max_le_iff, ih, forall_mem_cons]

theorem nesting_array : (array items).nesting ≤ n + 1 ↔ ∀ item ∈ items, item.nesting ≤ n := by
  rw [nesting, Nat.add_le_add_iff_right, itemsNesting_le]

theorem nesting_object : (object fields).nesting ≤ n + 1 ↔ fields.All fun value => value.nesting ≤ n := by
  rw [nesting, Nat.add_le_add_iff_right, fieldsNesting_le]
  rfl

theorem nesting_ofFields {fields} (h : ∀ field ∈ fields, field.2.nesting ≤ n) : (ofFields fields).nesting ≤ n + 1 :=
  nesting_object.2 (all_ofList h)

theorem nesting_tagged (h : fields.All fun value => value.nesting ≤ n) :
    (ofFields [("type", string kind), (key, object fields)]).nesting ≤ n + 2 := by
  refine nesting_ofFields ?_
  rw [forall_mem_cons, forall_mem_singleton]
  exact ⟨Nat.zero_le _, nesting_object.2 h⟩

theorem nesting_of_tagged
    (h : (ofFields [("type", string kind), (key, object fields)]).nesting ≤ n + 2) :
    fields.All fun value => value.nesting ≤ n := by
  have hg : (Assoc.ofList [("type", string kind), (key, object fields)]).get key = some (object fields) :=
    get_insert_self _ _ _
  exact nesting_object.1 ((nesting_object.1 h).get hg)

mutual

theorem canonical_eq_self : ∀ {value : Json}, value.WellFormed → value.canonical = value
  | .null, _ | .bool _, _ | .string _, _ | .number (.posInt _), _ => rfl
  | .number (.negInt n), h => by
    have hn : n < 0 := h
    rw [canonical, canonicalNumber, if_pos hn]
  | .number (.float x), h => by
    have hx : x.isFinite = true := h
    rw [canonical, canonicalNumber, if_pos hx]
  | .array items, h => by rw [canonical, canonicalItems_eq_self (wellFormed_array.1 h)]
  | .object fields, h => by
    obtain ⟨hsort, hflds⟩ := wellFormed_object.1 h
    rw [canonical, canonicalFields_eq_self hflds, hsort.ofList_eq]

theorem canonicalItems_eq_self : ∀ {items}, (∀ item ∈ items, item.WellFormed) → canonicalItems items = items
  | [], _ => rfl
  | item :: items, h => by
    obtain ⟨hitem, hitems⟩ := forall_mem_cons.1 h
    rw [canonicalItems, canonical_eq_self hitem, canonicalItems_eq_self hitems]

theorem canonicalFields_eq_self : ∀ {fields}, (∀ field ∈ fields, field.2.WellFormed) → canonicalFields fields = fields
  | [], _ => rfl
  | (key, value) :: fields, h => by
    obtain ⟨hval, hflds⟩ := forall_mem_cons.1 h
    rw [canonicalFields, canonical_eq_self hval, canonicalFields_eq_self hflds]

end

end Json

/-! ### Printed documents -/

section Documents

variable [Platform]

theorem fromSlice_toVec {value} (h : value.WellFormed) :
    fromSlice (toVec value) = if value.nesting ≤ maxNesting then some value else none := by
  split
  next hn => exact Platform.fromSlice_toVec value h hn
  next hn => exact fromSlice_toVec_deep value h (not_le.1 hn)

namespace PreservedJson

theorem value_fromBytes (bytes : List UInt8) : (fromBytes bytes).map (·.value) = fromSlice bytes := by
  unfold fromBytes
  split
  next h => rw [h, Option.map_none]
  next h => exact h.symm

theorem value_fromValue {value} (h : value.WellFormed) : (fromValue value).value = value := Json.canonical_eq_self h

theorem value_fromStr_toBytes (doc : PreservedJson) :
    (fromStr (fromUtf8Lossy doc.toBytes)).map (·.value) =
      if doc.value.nesting ≤ maxNesting then some doc.value else none := by
  rw [fromStr, value_fromBytes]
  have hprin : ∀ bytes, bytes = toVec doc.value →
      fromSlice (utf8 (fromUtf8Lossy bytes)) =
        if doc.value.nesting ≤ maxNesting then some doc.value else none := by
    rintro bytes rfl
    obtain ⟨s, hs⟩ := text_of_toVec doc.value
    rw [← fromSlice_toVec doc.wellFormed, hs, fromUtf8Lossy_utf8]
  unfold toBytes
  split
  · exact hprin _ rfl
  next hmod =>
    rcases doc.represents (Bool.eq_false_iff.2 hmod) with hrd | hwr
    · obtain ⟨s, hs⟩ := text_of_fromSlice hrd
      rw [if_pos (nesting_of_fromSlice hrd), ← hrd, hs, fromUtf8Lossy_utf8]
    · exact hprin _ hwr

end PreservedJson

end Documents

/-! ### Reports -/

/-- The note tells of no loss. -/
def Note.Lossless (n : Note) : Prop := n.isLoss = false

@[simp] theorem not_lossless_dropOptional {field reason} : ¬(Note.dropOptional field reason).Lossless := nofun

@[simp] theorem not_lossless_unsupportedRequired {field reason} :
    ¬(Note.unsupportedRequired field reason).Lossless := nofun

def ConversionReport.Lossless (report : ConversionReport) : Prop :=
  report.unsupportedRequiredFields = [] ∧ report.degradedFields = [] ∧ report.droppedOptionalFields = []

theorem pushUnique_ne_nil {α : Type} [DecidableEq α] {values} {value : α} : pushUnique values value ≠ [] := by
  unfold pushUnique
  split
  next h => exact ne_nil_of_mem (contains_iff_mem.1 h)
  · simp

theorem lossless_record {report : ConversionReport} {n} :
    (report.record n).Lossless ↔ report.Lossless ∧ n.Lossless := by
  cases n <;>
    simp [Lossless, ConversionReport.record, Note.Lossless, Note.isLoss, pushUnique_ne_nil]

theorem lossless_ofNotes {notes} : (ConversionReport.ofNotes notes).Lossless ↔ ∀ n ∈ notes, n.Lossless := by
  induction notes using List.reverseRecOn with
  | nil => simp [ConversionReport.ofNotes, Lossless, ConversionReport.default]
  | append_singleton notes n ih =>
    rw [ConversionReport.ofNotes, foldl_append, foldl_cons, foldl_nil, lossless_record,
      ← ConversionReport.ofNotes, ih, forall_mem_append, forall_mem_singleton]

theorem validate_reject {report : ConversionReport} : report.validate .reject = .ok () ↔ report.Lossless := by
  unfold ConversionReport.validate ConversionReport.Lossless
  simp only [Bool.and_eq_true, List.isEmpty_iff, List.append_eq_nil_iff]
  split_ifs with h <;> simp [h]

/-! ### Fields -/

namespace OpenAiChat

@[simp] theorem orError_eq_ok {ε α : Type} {error : ε} {value} {a : α} :
    orError error value = .ok a ↔ value = some a := by
  cases value <;> simp [orError]

variable {object : Assoc String Json} {key field : String}

@[simp] theorem shape_eq_ok {α : Type} {expected value} {a : α} :
    shape field expected value = .ok a ↔ value = some a := orError_eq_ok

@[simp] theorem requiredString_eq_ok {s} :
    requiredString object key field = .ok s ↔ object.get key = some (.string s) := by
  unfold requiredString
  cases object.get key with
  | none | some => simp [orError, bind, Except.bind]

@[simp] theorem optionalString_eq_ok {s} :
    optionalString object key field = .ok s ↔ object.get key = s.map .string := by
  unfold optionalString
  cases object.get key with
  | none => cases s <;> simp
  | some => cases s <;> simp [map_eq_ok]

@[simp] theorem optionalBool_eq_ok {b} : optionalBool object key field = .ok b ↔ object.get key = b.map .bool := by
  unfold optionalBool
  cases object.get key with
  | none => cases b <;> simp
  | some => cases b <;> simp [map_eq_ok]

end OpenAiChat

end Pooler
