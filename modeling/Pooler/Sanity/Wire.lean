import Pooler.Sanity.Fields

/-! What is assumed of `serde_json` and of the conversions of the standard library can be met: there are
countably many values, so each can be printed as a text of its own. -/

namespace Pooler

open Lib Json Function Set Nat Countable

/-! ### Counting -/

instance countableChar : Countable Char :=
  Injective.countable (f := Char.toNat) fun _ _ h => Char.ext (UInt32.toNat_inj.1 h)

deriving instance Countable for F64, JsonNumber

instance countableString : Countable String := Injective.countable (f := String.toList) fun _ _ => String.toList_inj.1

namespace Json

/-- A value from its parts, the values inside it taken from a set. -/
def ofParts {S : Set Json} : Unit ⊕ Bool ⊕ JsonNumber ⊕ String ⊕ List S ⊕ List (String × S) → Json
  | .inl _ => null
  | .inr (.inl b) => bool b
  | .inr (.inr (.inl n)) => number n
  | .inr (.inr (.inr (.inl s))) => string s
  | .inr (.inr (.inr (.inr (.inl items)))) => array (items.map (·.1))
  | .inr (.inr (.inr (.inr (.inr fields)))) => object (fields.map fun field => (field.1, field.2.1))

theorem countable_nesting (n : ℕ) : {v : Json | v.nesting < n}.Countable := by
  induction n with
  | zero => simp
  | succ n ih =>
    have : Countable {v : Json | v.nesting < n} := ih
    refine (countable_range (ofParts (S := {v | v.nesting < n}))).mono fun v hv => ?_
    cases v with
    | null => exact ⟨.inl (), rfl⟩
    | bool b => exact ⟨.inr (.inl b), rfl⟩
    | number x => exact ⟨.inr (.inr (.inl x)), rfl⟩
    | string s => exact ⟨.inr (.inr (.inr (.inl s))), rfl⟩
    | array items =>
      have hitems : ∀ item ∈ items, item.nesting < n := fun item hitem =>
        (itemsNesting_le.1 le_rfl item hitem).trans_lt (lt_of_succ_lt_succ hv)
      lift items to List {v : Json | v.nesting < n} using hitems
      exact ⟨.inr (.inr (.inr (.inr (.inl items)))), rfl⟩
    | object flds =>
      have hflds : ∀ field ∈ flds, field.2.nesting < n := fun field hfld =>
        (fieldsNesting_le.1 le_rfl field hfld).trans_lt (lt_of_succ_lt_succ hv)
      refine ⟨.inr (.inr (.inr (.inr (.inr (flds.pmap (fun field h => (field.1, ⟨field.2, h⟩)) hflds))))), ?_⟩
      simp [ofParts, List.map_pmap]

instance : Countable Json := by
  have hall : (⋃ n, {v : Json | v.nesting < n}) = Set.univ :=
    eq_univ_of_forall fun v => mem_iUnion.2 ⟨v.nesting + 1, lt_succ_self _⟩
  exact countable_univ_iff.1 (hall ▸ countable_iUnion countable_nesting)

/-- A text for every value: as many zeros as its number says. -/
noncomputable def printed (value : Json) : String := .ofList (.replicate ((exists_injective_nat Json).choose value) '0')

theorem printed_injective : Injective printed := by
  intro a b h
  refine (exists_injective_nat Json).choose_spec ?_
  simpa [printed] using congrArg (fun s => s.toList.length) h

end Json

/-! ### Reading -/

theorem utf8_injective : Injective utf8 := by
  intro s t h
  exact String.toByteArray_inj.1 (ByteArray.ext (Array.toList_inj.1 h))

open Classical in
/-- The argument that makes a function give a value, if there is one. -/
noncomputable def argumentOf {α β : Type} (f : α → β) (P : α → Prop) (b : β) : Option α :=
  if h : ∃ a, P a ∧ f a = b then some h.choose else none

theorem argumentOf_eq_some {α β : Type} {f} (hf : Injective f) {P} {a : α} {b : β} :
    argumentOf f P b = some a ↔ P a ∧ f a = b := by
  unfold argumentOf
  constructor
  · intro h
    split at h
    next hex =>
      cases h
      exact hex.choose_spec
    · cases h
  · rintro ⟨hP, hb⟩
    have hex : ∃ a, P a ∧ f a = b := ⟨a, hP, hb⟩
    rw [dif_pos hex]
    exact congrArg some (hf (hex.choose_spec.2.trans hb.symm))

theorem toNat_low_and (x : UInt32) (mask : UInt64) : (x.toUInt64 &&& mask).toNat < 2 ^ 32 := by
  rw [UInt64.toNat_and, UInt32.toNat_toUInt64]
  exact lt_of_le_of_lt and_le_left x.toNat_lt

/-- Zeros as documents, and the bits of a single as the low bits of a double. -/
@[reducible] noncomputable def unaryPlatform : Platform where
  toVec value := utf8 value.printed
  fromSlice := argumentOf (fun value => utf8 value.printed) fun value => value.WellFormed ∧ value.nesting ≤ maxNesting
  fromUtf8Lossy bytes := (argumentOf utf8 (fun _ => True) bytes).getD ""
  f32ToF64 x := ⟨x.bits.toUInt64⟩
  f64ToF32 x := ⟨x.bits.toUInt32⟩
  u64ToF64 _ := ⟨0⟩
  i64ToF64 _ := ⟨0⟩
  fromSlice_toVec value hwell hnesting :=
    (argumentOf_eq_some (utf8_injective.comp printed_injective)).2 ⟨⟨hwell, hnesting⟩, rfl⟩
  fromSlice_toVec_deep value hwell hnesting := dif_neg fun ⟨other, hother, heq⟩ =>
    absurd hother.2 (utf8_injective.comp printed_injective heq ▸ not_le.2 hnesting)
  wellFormed_of_fromSlice h := ((argumentOf_eq_some (utf8_injective.comp printed_injective)).1 h).1.1
  nesting_of_fromSlice h := ((argumentOf_eq_some (utf8_injective.comp printed_injective)).1 h).1.2
  text_of_toVec value := ⟨value.printed, rfl⟩
  text_of_fromSlice h := ⟨_, ((argumentOf_eq_some (utf8_injective.comp printed_injective)).1 h).2.symm⟩
  fromUtf8Lossy_utf8 s := by
    rw [(argumentOf_eq_some utf8_injective).2 ⟨trivial, rfl⟩]
    rfl
  isFinite_f32ToF64 x _ := by
    rw [F64.isFinite, decide_eq_true_iff]
    intro heq
    have hlow := toNat_low_and x.bits 0x7FF0000000000000
    rw [heq] at hlow
    exact absurd hlow (by decide)
  inF32Range_f32ToF64 x _ := by
    rw [F64.inF32Range, decide_eq_true_iff, UInt64.le_iff_toNat_le]
    exact (toNat_low_and x.bits 0x7FFFFFFFFFFFFFFF).le.trans (by decide)
  f64ToF32_f32ToF64 x _ := by simp

end Pooler
