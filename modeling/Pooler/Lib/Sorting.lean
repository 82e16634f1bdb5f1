import Mathlib

/-! Stable sorting by a key, and when the order of the input does not matter. -/

namespace Pooler.Lib

open List

variable {α β κ : Type} [LinearOrder κ] (key : α → κ)

def sortBy (l : List α) : List α := l.insertionSort fun a b => key a ≤ key b

theorem perm_sortBy (l : List α) : (sortBy key l).Perm l := perm_insertionSort _ l

@[simp] theorem mem_sortBy {key : α → κ} {l} {a : α} : a ∈ sortBy key l ↔ a ∈ l := (perm_sortBy key l).mem_iff

theorem pairwise_sortBy (l : List α) : (sortBy key l).Pairwise fun a b => key a ≤ key b := by
  have : Std.Total fun a b => key a ≤ key b := ⟨fun a b => le_total (key a) (key b)⟩
  have : IsTrans α fun a b => key a ≤ key b := ⟨fun _ _ _ => le_trans⟩
  exact pairwise_insertionSort _ l

/-- The input's order does not matter where the key tells its elements apart. -/
theorem sortBy_eq_of_perm {key : α → κ} {l l'} (h : l.Perm l')
    (hkey : ∀ a ∈ l, ∀ b ∈ l, key a = key b → a = b) : sortBy key l = sortBy key l' := by
  refine List.Perm.eq_of_pairwise ?_ (pairwise_sortBy key l) (pairwise_sortBy key l')
    ((perm_sortBy key l).trans (h.trans (perm_sortBy key l').symm))
  intro a b ha hb hab hba
  exact hkey a (mem_sortBy.1 ha) b (h.mem_iff.2 (mem_sortBy.1 hb)) (le_antisymm hab hba)

section Related

variable {R : α → β → Prop} {key : α → κ} {key' : β → κ}

theorem forall₂_orderedInsert (hkey : ∀ a b, R a b → key a = key' b) {a : α} {b : β} (hab : R a b)
    {l l'} (h : Forall₂ R l l') :
    Forall₂ R (l.orderedInsert (fun a b => key a ≤ key b) a) (l'.orderedInsert (fun a b => key' a ≤ key' b) b) := by
  induction h with
  | nil => exact .cons hab .nil
  | cons hcd h ih =>
    simp only [List.orderedInsert, hkey _ _ hab, hkey _ _ hcd]
    split_ifs
    · exact .cons hab (.cons hcd h)
    · exact .cons hcd ih

/-- Lists related element by element, under keys that agree, are sorted alike. -/
theorem forall₂_sortBy (hkey : ∀ a b, R a b → key a = key' b) {l l'}
    (h : Forall₂ R l l') : Forall₂ R (sortBy key l) (sortBy key' l') := by
  induction h with
  | nil => exact .nil
  | cons hab h ih => exact forall₂_orderedInsert hkey hab ih

end Related

/-- In a strictly ordered list the place of an element counts the elements before it. -/
theorem idxOf_eq_countP {l : List κ} (h : l.Pairwise (· < ·)) {a : κ} (ha : a ∈ l) :
    l.idxOf a = l.countP fun b => decide (b < a) := by
  induction l with
  | nil => cases ha
  | cons b l ih =>
    obtain ⟨hb, hl⟩ := pairwise_cons.1 h
    by_cases hba : b = a
    · subst hba
      rw [idxOf_cons_self, countP_cons_of_neg (by simp), countP_eq_zero.2]
      intro c hc
      simpa using le_of_lt (hb c hc)
    · have ha' : a ∈ l := (mem_cons.1 ha).resolve_left (Ne.symm hba)
      rw [idxOf_cons_ne _ hba, ih hl ha', countP_cons_of_pos (by simpa using hb a ha')]

end Pooler.Lib
