import Mathlib

/-! Ordered keys. A type whose values are told apart by a list of strings is
ordered by that list, which is enough to use its values as keys of an
extensional tree map. -/

namespace Pooler.Lib

open Std.ExtTreeSet

/-- The values of `α` are told apart by a list of strings. -/
class StringKeyed (α : Type) where
  key : α → List String
  key_injective : Function.Injective key

namespace StringKeyed

variable {α : Type} [StringKeyed α]

/-- Lexicographic comparison of the keys. -/
def cmp (a b : α) : Ordering := compareOn key a b

instance : Std.TransCmp (cmp (α := α)) := inferInstanceAs (Std.TransCmp (compareOn (key (α := α))))

instance : Std.LawfulEqCmp (cmp (α := α)) where
  eq_of_compare h := key_injective (Std.LawfulEqOrd.eq_of_compare h)

theorem cmp_eq_iff (a b : α) : cmp a b = .eq ↔ a = b := Std.LawfulEqCmp.compare_eq_iff_eq

end StringKeyed

instance : StringKeyed String where
  key s := [s]
  key_injective _ _ h := by simpa using h

/-- A finite map keyed by string-keyed values, equal when it has the same entries. -/
abbrev Table (α β : Type) [StringKeyed α] : Type := Std.ExtTreeMap α β StringKeyed.cmp

/-- A finite set of string-keyed values, listed in key order. -/
abbrev KeySet (α : Type) [StringKeyed α] : Type := Std.ExtTreeSet α StringKeyed.cmp

variable {α : Type} {a : α}

theorem KeySet.contains_eq_false [StringKeyed α] {s : KeySet α} : s.contains a = false ↔ a ∉ s := by
  rw [← contains_iff_mem, Bool.not_eq_true]

theorem KeySet.mem_insert [StringKeyed α] {s : KeySet α} {b : α} : b ∈ s.insert a ↔ a = b ∨ b ∈ s := by
  rw [Std.ExtTreeSet.mem_insert, StringKeyed.cmp_eq_iff]

/-- A set that is not full, or that has the element, stays within its bound. -/
theorem KeySet.size_insert_le [StringKeyed α] {s : KeySet α} {n : ℕ} (hs : s.size ≤ n)
    (ha : a ∈ s ∨ s.size < n) : (s.insert a).size ≤ n := by
  rw [size_insert]
  split_ifs with hc
  · exact hs
  · rcases ha with ha | ha
    · exact absurd (contains_iff_mem.2 ha) hc
    · exact ha

theorem KeySet.mem_insertMany [StringKeyed α] [DecidableEq α] {s : KeySet α} {l : List α} :
    a ∈ s.insertMany l ↔ a ∈ s ∨ a ∈ l := by
  have : Std.LawfulBEqCmp (StringKeyed.cmp (α := α)) := ⟨fun {x y} => by rw [StringKeyed.cmp_eq_iff, beq_iff_eq]⟩
  rw [mem_insertMany_list, List.contains_iff_mem]

namespace Table

variable {α β : Type} [StringKeyed α] (t : Table α β)

/-- Rewrites the entry of `k`, starting from `d` where there is none. -/
def upsert (k : α) (d : β) (f : β → β) : Table α β := t.insert k (f (t[k]?.getD d))

theorem get_filter (f : α → β → Bool) (a : α) : (t.filter f)[a]? = t[a]?.filter (f a) := Std.ExtTreeMap.getElem?_filter'

theorem get_map {γ : Type} (t : Table α β) (f : α → β → γ) (a : α) :
    (t.map f)[a]? = t[a]?.map (f a) := Std.ExtTreeMap.getElem?_map

variable [DecidableEq α]

theorem get_insert (k a : α) (v : β) : (t.insert k v)[a]? = if k = a then some v else t[a]? := by
  rw [Std.ExtTreeMap.getElem?_insert]
  simp only [StringKeyed.cmp_eq_iff]

theorem get_erase (k a : α) : (t.erase k)[a]? = if k = a then none else t[a]? := by
  rw [Std.ExtTreeMap.getElem?_erase]
  simp only [StringKeyed.cmp_eq_iff]

theorem get_upsert (k a : α) (d : β) (f : β → β) :
    (t.upsert k d f)[a]? = if k = a then some (f (t[a]?.getD d)) else t[a]? := by
  rw [upsert, get_insert]
  split_ifs with h
  · rw [h]
  · rfl

end Table

end Pooler.Lib
