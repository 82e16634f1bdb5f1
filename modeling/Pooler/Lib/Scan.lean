import Mathlib

/-! Looking for a pattern from left to right, each search starting after the last match. -/

namespace Pooler.Lib

open List

variable {α : Type*}

/-- The pattern stands at position `i` of the text. -/
def StandsAt (pattern text : List α) (i : ℕ) : Prop := pattern <+: text.drop i

variable {pattern text : List α}

theorem StandsAt.getElem?_mem {p i : ℕ} (h : StandsAt pattern text p) (hle : p ≤ i)
    (hlt : i < p + pattern.length) : ∃ x ∈ pattern, text[i]? = some x := by
  obtain ⟨rest, hr⟩ := h
  have hin : i - p < pattern.length := by omega
  refine ⟨pattern[i - p], getElem_mem hin, ?_⟩
  have : (text.drop p)[i - p]? = some pattern[i - p] := by
    rw [← hr, getElem?_append_left hin, getElem?_eq_getElem hin]
  rw [getElem?_drop, Nat.add_sub_cancel' hle] at this
  exact this

variable [DecidableEq α]

/-- The first position of the pattern. -/
def find (pattern : List α) : List α → Option ℕ
  | [] => if pattern.isEmpty then some 0 else none
  | x :: xs => if pattern.isPrefixOf (x :: xs) then some 0 else (find pattern xs).map (· + 1)

theorem find_eq_none : ∀ {text}, find pattern text = none → ∀ i, ¬StandsAt pattern text i := by
  intro text
  induction text with
  | nil =>
    intro h i hat
    rw [StandsAt, drop_nil, prefix_nil] at hat
    simp [find, hat] at h
  | cons x xs ih =>
    intro h i hat
    rw [find] at h
    split at h
    · cases h
    next hhead =>
      rw [Option.map_eq_none_iff] at h
      cases i with
      | zero => exact hhead (List.isPrefixOf_iff_prefix.2 hat)
      | succ i => exact ih h i hat

theorem find_eq_some : ∀ {text n}, find pattern text = some n →
    StandsAt pattern text n ∧ ∀ i < n, ¬StandsAt pattern text i := by
  intro text
  induction text with
  | nil =>
    intro n h
    rw [find] at h
    split at h
    next hemp =>
      cases h
      rw [List.isEmpty_iff] at hemp
      exact ⟨by simp [StandsAt, hemp], nofun⟩
    · cases h
  | cons x xs ih =>
    intro n h
    rw [find] at h
    split at h
    next hhead =>
      cases h
      exact ⟨List.isPrefixOf_iff_prefix.1 hhead, nofun⟩
    next hhead =>
      obtain ⟨m, hm, rfl⟩ := Option.map_eq_some_iff.1 h
      obtain ⟨hat, hfst⟩ := ih hm
      refine ⟨hat, fun i hi hi' => ?_⟩
      cases i with
      | zero => exact hhead (List.isPrefixOf_iff_prefix.2 hi')
      | succ i => exact hfst i (by omega) hi'

/-- The matches of a scan that goes on behind each match. The fuel bounds the number of searches. -/
def occurrences (pattern text : List α) : ℕ → ℕ → List ℕ
  | 0, _ => []
  | fuel + 1, searchFrom =>
    if searchFrom < text.length then
      match find pattern (text.drop searchFrom) with
      | none => []
      | some relative =>
        (searchFrom + relative) :: occurrences pattern text fuel (searchFrom + relative + pattern.length)
    else []

theorem standsAt_of_mem_occurrences {p : ℕ} : ∀ {fuel searchFrom},
    p ∈ occurrences pattern text fuel searchFrom → StandsAt pattern text p := by
  intro fuel
  induction fuel with
  | zero => intro searchFrom h; cases h
  | succ fuel ih =>
    intro searchFrom h
    rw [occurrences] at h
    split at h
    · split at h
      · cases h
      next hsome =>
        rcases mem_cons.1 h with rfl | h
        · have := (find_eq_some hsome).1
          rwa [StandsAt, drop_drop] at this
        · exact ih h
    · cases h

/-- The scan passes over no match unless an earlier match reaches into it. -/
theorem mem_occurrences (hne : pattern ≠ []) {p : ℕ} (hat : StandsAt pattern text p)
    (halone : ∀ q, StandsAt pattern text q → q < p → q + pattern.length ≤ p) :
    ∀ {fuel searchFrom}, searchFrom ≤ p → text.length ≤ fuel + searchFrom →
      p ∈ occurrences pattern text fuel searchFrom := by
  have hpos : 0 < pattern.length := length_pos_iff.2 hne
  have hp : p < text.length := by
    have := hat.length_le
    rw [length_drop] at this
    omega
  intro fuel
  induction fuel with
  | zero => intro searchFrom h hfuel; omega
  | succ fuel ih =>
    intro searchFrom h hfuel
    rw [occurrences, if_pos (by omega)]
    have hrel : ∀ i, StandsAt pattern (text.drop searchFrom) i ↔ StandsAt pattern text (searchFrom + i) := by
      intro i
      rw [StandsAt, StandsAt, drop_drop]
    split
    next hn =>
      refine absurd ?_ (find_eq_none hn (p - searchFrom))
      rw [hrel, Nat.add_sub_cancel' h]
      exact hat
    next relative hsome =>
      obtain ⟨hfd, hfst⟩ := find_eq_some hsome
      rw [hrel] at hfd
      rcases lt_trichotomy (searchFrom + relative) p with hlt | heq | hgt
      · exact mem_cons_of_mem _ (ih (halone _ hfd hlt) (by omega))
      · exact heq ▸ mem_cons_self
      · refine absurd ?_ (hfst (p - searchFrom) (by omega))
        rw [hrel, Nat.add_sub_cancel' h]
        exact hat

end Pooler.Lib
