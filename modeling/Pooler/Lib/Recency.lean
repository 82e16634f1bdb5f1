import Mathlib

/-! Order of last use. A list is kept by moving what is used to its end; the history of uses says
which of two elements was used last. Also finite maps with a weight on their entries. -/

namespace Pooler.Lib

open List AList

variable {κ : Type*} [DecidableEq κ]

/-- Moves an element to the end, or adds it there. -/
def touch (k : κ) (l : List κ) : List κ := l.filter (· ≠ k) ++ [k]

theorem mem_touch {k a : κ} {l} : a ∈ touch k l ↔ a = k ∨ a ∈ l := by
  by_cases h : a = k <;> simp [touch, h]

theorem nodup_touch {k : κ} {l} (h : l.Nodup) : (touch k l).Nodup := by
  rw [touch, nodup_append]
  refine ⟨h.filter _, nodup_singleton k, ?_⟩
  rintro a ha b hb rfl
  rw [mem_singleton] at hb
  simp [hb] at ha

/-- When an element was used last, counted from one; zero if it never was. -/
def lastUse (uses : List κ) (k : κ) : ℕ := uses.length - uses.reverse.idxOf k

theorem lastUse_append_self (uses : List κ) (k : κ) : lastUse (uses ++ [k]) k = uses.length + 1 := by
  simp [lastUse]

theorem lastUse_append_of_ne {uses} {k a : κ} (h : a ≠ k) : lastUse (uses ++ [k]) a = lastUse uses a := by
  simp [lastUse, idxOf_cons_ne _ (Ne.symm h)]

/-- The list has its elements by last use, the latest at the end. -/
def ByLastUse (uses l : List κ) : Prop := l.Pairwise (fun a b => lastUse uses a < lastUse uses b)

theorem ByLastUse.sublist {uses l r : List κ} (h : ByLastUse uses r) (hs : l.Sublist r) : ByLastUse uses l :=
  Pairwise.sublist hs h

theorem ByLastUse.touch {uses l} (h : ByLastUse uses l) (k : κ) : ByLastUse (uses ++ [k]) (touch k l) := by
  have hne : ∀ a ∈ l.filter (· ≠ k), a ≠ k := fun a ha => by simpa using (mem_filter.1 ha).2
  rw [Lib.touch, ByLastUse, pairwise_append]
  refine ⟨?_, pairwise_singleton _ _, ?_⟩
  · refine (Pairwise.sublist filter_sublist h).imp_of_mem fun {a b} ha hb hab => ?_
    rw [lastUse_append_of_ne (hne a ha), lastUse_append_of_ne (hne b hb)]
    exact hab
  · intro a ha b hb
    rw [mem_singleton] at hb
    rw [hb, lastUse_append_self, lastUse_append_of_ne (hne a ha)]
    exact Nat.lt_succ_of_le (Nat.sub_le _ _)

section Weighted

variable {β : Type*} (w : κ → β → ℕ)

/-- The total weight of the values of a finite map. -/
def total (m : AList (fun _ : κ => β)) : ℕ := (m.entries.map (fun e => w e.1 e.2)).sum

variable {m : AList (fun _ : κ => β)}

theorem total_erase {w} {k : κ} {v : β} (h : m.lookup k = some v) : total w (m.erase k) + w k v = total w m := by
  have hm : k ∈ m.entries.keys := lookup_isSome.1 (by rw [h]; rfl)
  obtain ⟨v', l, r, hl, hents, herase⟩ := exists_of_kerase hm
  have hv : v' = v := by
    have hlook : m.lookup k = some v' := mem_lookup_iff.2 (by rw [hents]; simp)
    exact Option.some.inj (hlook.symm.trans h)
  rw [total, total, show (m.erase k).entries = m.entries.kerase k from rfl, herase, hents, hv]
  simp only [map_append, sum_append, map_cons, sum_cons]
  omega

theorem erase_eq_self {k : κ} (h : m.lookup k = none) : m.erase k = m := by
  have hm : k ∉ m.entries.keys := lookup_eq_none.1 h
  exact AList.ext (kerase_of_notMem_keys hm)

theorem total_insert (m : AList (fun _ : κ => β)) (k : κ) (v : β) :
    total w (m.insert k v) = w k v + total w (m.erase k) := by
  rw [total, entries_insert, map_cons, sum_cons]
  rfl

theorem total_congr {w w'} (h : ∀ k v, m.lookup k = some v → w k v = w' k v) : total w m = total w' m := by
  rw [total, total]
  refine congrArg List.sum (map_congr_left fun e he => h e.1 e.2 ?_)
  exact mem_lookup_iff.2 he

end Weighted

end Pooler.Lib
