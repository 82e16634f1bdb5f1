import Mathlib

/-! Picking the extreme element of a list under a comparison, with the ties broken
as iterators break them: the first of the least and the last of the greatest. -/

namespace Pooler.Lib

open List Std.TransCmp

variable {α : Type*} (cmp : α → α → Ordering)

/-- `Iterator::min_by`. -/
def minBy : List α → Option α
  | [] => none
  | a :: l => some (l.foldl (fun best x => if cmp best x = .gt then x else best) a)

/-- `Iterator::max_by`. -/
def maxBy : List α → Option α
  | [] => none
  | a :: l => some (l.foldl (fun best x => if cmp best x = .gt then best else x) a)

/-- A fold that keeps either its accumulator or the element ends at one of them. -/
theorem foldl_choice_mem {f} (hf : ∀ a b, f a b = a ∨ f a b = b) (l : List α) : ∀ a, l.foldl f a ∈ a :: l := by
  induction l with
  | nil => intro a; exact mem_singleton.2 rfl
  | cons b l ih =>
    intro a
    rw [foldl_cons]
    rcases mem_cons.1 (ih (f a b)) with h | h
    · rw [h]
      rcases hf a b with h | h <;> rw [h] <;> simp
    · exact mem_cons_of_mem _ (mem_cons_of_mem _ h)

variable {cmp : α → α → Ordering} {l : List α} {a : α}

theorem minBy_mem (h : minBy cmp l = some a) : a ∈ l := by
  cases l with
  | nil => cases h
  | cons b l =>
    cases h
    exact foldl_choice_mem (fun x y => by by_cases hc : cmp x y = .gt <;> simp [hc]) l b

theorem maxBy_mem (h : maxBy cmp l = some a) : a ∈ l := by
  cases l with
  | nil => cases h
  | cons b l =>
    cases h
    exact foldl_choice_mem (fun x y => by by_cases hc : cmp x y = .gt <;> simp [hc]) l b

/-- Under a transitive comparison the first least element is below every other. -/
theorem minBy_le [Std.TransCmp cmp] (h : minBy cmp l = some a) : ∀ b ∈ l, (cmp a b).isLE := by
  have key : ∀ (l : List α) (a : α),
      (cmp (l.foldl (fun best x => if cmp best x = .gt then x else best) a) a).isLE ∧
        ∀ b ∈ l, (cmp (l.foldl (fun best x => if cmp best x = .gt then x else best) a) b).isLE := by
    intro l
    induction l with
    | nil => intro a; exact ⟨Std.ReflCmp.isLE_rfl, by simp⟩
    | cons c l ih =>
      intro a
      rw [foldl_cons]
      obtain ⟨h1, h2⟩ := ih (if cmp a c = .gt then c else a)
      by_cases hc : cmp a c = .gt
      · simp only [hc, if_true] at h1 h2 ⊢
        have hca : (cmp c a).isLE := by rw [show cmp c a = (cmp a c).swap from Std.OrientedCmp.eq_swap, hc]; rfl
        refine ⟨isLE_trans h1 hca, ?_⟩
        simpa using ⟨h1, h2⟩
      · simp only [hc, if_false] at h1 h2 ⊢
        have hac : (cmp a c).isLE := by cases hcmp : cmp a c <;> simp_all [Ordering.isLE]
        refine ⟨h1, ?_⟩
        simpa using ⟨isLE_trans h1 hac, h2⟩
  cases l with
  | nil => cases h
  | cons c l =>
    cases h
    intro b hb
    rcases mem_cons.1 hb with rfl | hb
    · exact (key l b).1
    · exact (key l c).2 b hb

theorem headD_mem (h : l ≠ []) (d : α) : l.headD d ∈ l := by
  cases l with
  | nil => exact absurd rfl h
  | cons => exact mem_cons_self

theorem getD_maxBy_mem {d : α} (hd : d ∈ l) : (maxBy cmp l).getD d ∈ l := by
  cases h : maxBy cmp l with
  | none => exact hd
  | some => exact maxBy_mem h

theorem getD_minBy_mem {d : α} (hd : d ∈ l) : (minBy cmp l).getD d ∈ l := by
  cases h : minBy cmp l with
  | none => exact hd
  | some => exact minBy_mem h

/-- A running minimum is below its start and every element. -/
theorem foldl_min_le (f : α → ℕ) (l : List α) :
    ∀ a, l.foldl (fun best x => min best (f x)) a ≤ a ∧ ∀ x ∈ l, l.foldl (fun best x => min best (f x)) a ≤ f x := by
  induction l with
  | nil => intro a; exact ⟨le_rfl, by simp⟩
  | cons y l ih =>
    intro a
    rw [foldl_cons]
    obtain ⟨h1, h2⟩ := ih (min a (f y))
    refine ⟨le_trans h1 (min_le_left _ _), ?_⟩
    intro x hx
    rcases mem_cons.1 hx with rfl | hx
    · exact le_trans h1 (min_le_right _ _)
    · exact h2 x hx

/-- A running minimum is its start or one of the elements. -/
theorem foldl_min_attained (f : α → ℕ) (l : List α) :
    ∀ a, l.foldl (fun best x => min best (f x)) a = a ∨ ∃ x ∈ l, l.foldl (fun best x => min best (f x)) a = f x := by
  induction l with
  | nil => intro a; exact .inl rfl
  | cons y l ih =>
    intro a
    rw [foldl_cons]
    rcases ih (min a (f y)) with h | ⟨x, hx, h⟩
    · rcases min_choice a (f y) with hm | hm
      · exact .inl (h.trans hm)
      · exact .inr ⟨y, mem_cons_self, h.trans hm⟩
    · exact .inr ⟨x, mem_cons_of_mem _ hx, h⟩

/-- An element whose image a filter leaves out fails the filter's test. -/
theorem filter_eq_false_of_notMem {β : Type*} {f : α → β} {p} (ha : a ∈ l)
    (h : f a ∉ (l.filter p).map f) : p a = false := by
  by_contra hp
  exact h (mem_map_of_mem (mem_filter.2 ⟨ha, by simpa using hp⟩))

end Pooler.Lib
