import Mathlib

/-! Half-open spans of positions in a list: merging those that touch, and putting a replacement in
the place of each. -/

namespace Pooler.Lib

open List

/-- First position, and the first one after it that is outside. -/
abbrev Span := ℕ × ℕ

variable (spans : List Span)

/-- Some span holds the position. -/
def Covers (i : ℕ) : Prop := ∃ span ∈ spans, span.1 ≤ i ∧ i < span.2

instance (spans : List Span) (i : ℕ) : Decidable (Covers spans i) :=
  inferInstanceAs (Decidable (∃ span ∈ spans, span.1 ≤ i ∧ i < span.2))

theorem Covers.mono {spans more} {i : ℕ} (h : Covers spans i) (hsub : spans ⊆ more) : Covers more i :=
  h.imp fun _ hspan => ⟨hsub hspan.1, hspan.2⟩

def Span.le (a b : Span) : Prop := a.1 < b.1 ∨ a.1 = b.1 ∧ a.2 ≤ b.2

instance : DecidableRel Span.le := fun a b => inferInstanceAs (Decidable (a.1 < b.1 ∨ a.1 = b.1 ∧ a.2 ≤ b.2))

instance : Std.Total Span.le := ⟨fun a b => by unfold Span.le; omega⟩

instance : IsTrans Span Span.le := ⟨fun a b c => by unfold Span.le; omega⟩

/-- Adds a span to the merged ones, the last of which comes first. -/
def mergeStep (merged : List Span) (span : Span) : List Span :=
  if span.2 ≤ span.1 then merged
  else match merged with
    | [] => [span]
    | last :: rest => if span.1 ≤ last.2 then (last.1, max last.2 span.2) :: rest else span :: last :: rest

def mergeSpans : List Span := ((spans.insertionSort Span.le).foldl mergeStep []).reverse

variable {span : Span}

theorem covers_cons {spans} {i : ℕ} : Covers (span :: spans) i ↔ (span.1 ≤ i ∧ i < span.2) ∨ Covers spans i := by
  simp [Covers]

variable {merged : List Span}

/-- A span that starts no earlier than the others and touches the last one continues it. -/
theorem mergeStep_covers {i : ℕ}
    (hst : ∀ last ∈ merged, last.1 ≤ span.1) : Covers (mergeStep merged span) i ↔ Covers (span :: merged) i := by
  unfold mergeStep
  split
  next =>
    rw [covers_cons]
    exact ⟨.inr, fun h => h.resolve_left (by omega)⟩
  · cases merged with
    | nil => rfl
    | cons last =>
      have hlast := hst last mem_cons_self
      simp only
      split
      next =>
        rw [covers_cons, covers_cons, covers_cons, ← or_assoc]
        apply or_congr_left
        simp only
        omega
      · rfl

theorem mergeStep_starts {bound : ℕ} (hspan : span.1 ≤ bound)
    (hst : ∀ last ∈ merged, last.1 ≤ bound) : ∀ last ∈ mergeStep merged span, last.1 ≤ bound := by
  unfold mergeStep
  split
  · exact hst
  · cases merged with
    | nil => simpa using hspan
    | cons =>
      simp only [forall_mem_cons] at hst
      simp only
      split <;> simp only [forall_mem_cons]
      · exact hst
      · exact ⟨hspan, hst⟩

theorem mergeStep_sorted (hst : ∀ last ∈ merged, last.1 ≤ span.1)
    (hsort : merged.Pairwise (fun a b => b.1 ≤ a.1)) : (mergeStep merged span).Pairwise (fun a b => b.1 ≤ a.1) := by
  unfold mergeStep
  split
  · exact hsort
  · cases merged with
    | nil => exact pairwise_singleton _ _
    | cons =>
      simp only
      split
      · simp only [pairwise_cons] at hsort ⊢
        exact hsort
      · exact pairwise_cons.2 ⟨hst, hsort⟩

/-- Merging neither loses nor adds a position, and the merged spans stand in the order of their starts. -/
theorem foldl_mergeStep : ∀ merged, spans.Pairwise Span.le →
    (∀ span ∈ spans, ∀ last ∈ merged, last.1 ≤ span.1) → merged.Pairwise (fun a b => b.1 ≤ a.1) →
    (∀ i, Covers (spans.foldl mergeStep merged) i ↔ Covers spans i ∨ Covers merged i) ∧
      (spans.foldl mergeStep merged).Pairwise (fun a b => b.1 ≤ a.1) := by
  induction spans with
  | nil => exact fun merged _ _ hsort => ⟨fun i => by simp [Covers], hsort⟩
  | cons span spans ih =>
    intro merged hle hst hsort
    have hnext := pairwise_cons.1 hle
    have hhead := hst span mem_cons_self
    obtain ⟨hcov, hres⟩ := ih (mergeStep merged span) hnext.2
      (fun s hs => mergeStep_starts (by have := hnext.1 s hs; unfold Span.le at this; omega)
        (hst s (mem_cons_of_mem _ hs))) (mergeStep_sorted hhead hsort)
    refine ⟨fun i => ?_, hres⟩
    rw [foldl_cons, hcov, mergeStep_covers hhead, covers_cons, covers_cons]
    tauto

theorem mergeSpans_covers (i : ℕ) : Covers (mergeSpans spans) i ↔ Covers spans i := by
  obtain ⟨hcov, -⟩ := foldl_mergeStep (spans.insertionSort Span.le) []
    (pairwise_insertionSort _ _) (fun _ _ => nofun) Pairwise.nil
  have hp := perm_insertionSort Span.le spans
  have hrev : Covers (mergeSpans spans) i ↔ Covers ((spans.insertionSort Span.le).foldl mergeStep []) i :=
    exists_congr fun s => and_congr_left fun _ => mem_reverse
  rw [hrev, hcov i]
  constructor
  · rintro (h | ⟨_, h, -⟩)
    · exact h.mono hp.subset
    · cases h
  · exact fun h => .inl (h.mono hp.symm.subset)

theorem mergeSpans_sorted : (mergeSpans spans).Pairwise (fun a b => a.1 ≤ b.1) :=
  pairwise_reverse.2 (foldl_mergeStep (spans.insertionSort Span.le) [] (pairwise_insertionSort _ _)
    (fun _ _ => nofun) Pairwise.nil).2

variable {α β : Type*}

/-- The text from the cursor on, with the replacement in the place of each span. -/
def replaceFrom (text replacement : List α) : ℕ → List Span → List α
  | cursor, [] => text.drop cursor
  | cursor, (start, stop) :: spans =>
    (if cursor < start then (text.take start).drop cursor else []) ++ replacement ++
      replaceFrom text replacement (max stop cursor) spans

def replaceSpans (text : List α) (spans : List Span) (replacement : List α) : List α :=
  replaceFrom text replacement 0 spans

theorem map_replaceFrom (f : α → β) (text replacement : List α) (spans : List Span) : ∀ cursor,
    (replaceFrom text replacement cursor spans).map f = replaceFrom (text.map f) (replacement.map f) cursor spans := by
  induction spans with
  | nil => intro cursor; simp [replaceFrom]
  | cons span spans ih =>
    intro cursor
    simp only [replaceFrom, map_append, ih]
    split <;> simp

/-- What stands in the result comes from the replacement or from a position outside every span. -/
theorem mem_replaceFrom {text replacement} {x : α} {spans} (hsort : spans.Pairwise (fun a b => a.1 ≤ b.1)) : ∀ {cursor},
    x ∈ replaceFrom text replacement cursor spans →
      x ∈ replacement ∨ ∃ j, cursor ≤ j ∧ text[j]? = some x ∧ ¬Covers spans j := by
  induction spans with
  | nil =>
    intro cursor hx
    obtain ⟨k, hk⟩ := mem_iff_getElem?.1 hx
    rw [replaceFrom, getElem?_drop] at hk
    exact .inr ⟨cursor + k, by omega, hk, by simp [Covers]⟩
  | cons span spans ih =>
    obtain ⟨hfst, hr⟩ := pairwise_cons.1 hsort
    intro cursor hx
    simp only [replaceFrom, mem_append, or_assoc] at hx
    rcases hx with hx | hx | hx
    · -- copied before the first span, hence before all of them
      split at hx
      · obtain ⟨k, hk⟩ := mem_iff_getElem?.1 hx
        rw [getElem?_drop, getElem?_take] at hk
        split at hk
        · refine .inr ⟨cursor + k, by omega, hk, ?_⟩
          rintro ⟨s, hs, hi⟩
          rcases mem_cons.1 hs with rfl | hs
          · omega
          · have := hfst s hs; omega
        · cases hk
      · cases hx
    · exact .inl hx
    · refine (ih hr hx).imp_right ?_
      rintro ⟨j, hj, hg, hout⟩
      refine ⟨j, by omega, hg, ?_⟩
      rintro ⟨s, hs, hi⟩
      rcases mem_cons.1 hs with rfl | hs
      · omega
      · exact hout ⟨s, hs, hi⟩

/-- At most `limit` elements, and then a mark that some are missing. No limit if it is zero. -/
def truncate (limit : ℕ) (mark l : List α) : List α := if 0 < limit ∧ limit < l.length then l.take limit ++ mark else l

theorem map_truncate (f : α → β) (limit : ℕ) (mark l : List α) :
    (truncate limit mark l).map f = truncate limit (mark.map f) (l.map f) := by
  unfold truncate
  rw [length_map]
  split <;> simp

theorem mem_of_mem_truncate {limit : ℕ} {mark l} {x : α} (h : x ∈ truncate limit mark l) : x ∈ l ∨ x ∈ mark := by
  unfold truncate at h
  split at h
  · exact (mem_append.1 h).imp_left mem_of_mem_take
  · exact .inl h

end Pooler.Lib
