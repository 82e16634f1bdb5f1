import Mathlib

/-! Asking a list in turn. Each element answers, refuses for all that come after it, or passes the
question on. -/

namespace Pooler.Lib

open List

variable {α β ε : Type*}

inductive Answer (β ε : Type*) where
  | served (value : β)
  | passed
  | failed (error : ε)

/-- The answer of the first element that does not pass. -/
def settle (ask : α → Answer β ε) (exhausted : ε) : List α → Except ε β
  | [] => .error exhausted
  | x :: xs =>
    match ask x with
    | .served value => .ok value
    | .failed error => .error error
    | .passed => settle ask exhausted xs

section
variable {ask : α → Answer β ε} {exhausted : ε} {x : α}

theorem settle_cons_served {value : β} (h : ask x = .served value) (xs : List α) :
    settle ask exhausted (x :: xs) = .ok value := by
  simp [settle, h]

theorem settle_cons_failed {error : ε} (h : ask x = .failed error) (xs : List α) :
    settle ask exhausted (x :: xs) = .error error := by
  simp [settle, h]

theorem settle_cons_passed (h : ask x = .passed) (xs : List α) :
    settle ask exhausted (x :: xs) = settle ask exhausted xs := by
  simp [settle, h]

/-- Whoever gives an answer was asked. -/
theorem settle_ok_mem {value : β} {xs} (h : settle ask exhausted xs = .ok value) : ∃ x ∈ xs, ask x = .served value := by
  induction xs with
  | nil => cases h
  | cons x xs ih =>
    cases hx : ask x with
    | served =>
      rw [settle_cons_served hx] at h
      cases h
      exact ⟨x, mem_cons_self, hx⟩
    | failed =>
      rw [settle_cons_failed hx] at h
      cases h
    | passed =>
      rw [settle_cons_passed hx] at h
      obtain ⟨y, hy, hs⟩ := ih h
      exact ⟨y, mem_cons_of_mem x hy, hs⟩

theorem settle_append_passed {before} (h : ∀ y ∈ before, ask y = .passed) (after : List α) :
    settle ask exhausted (before ++ after) = settle ask exhausted after := by
  induction before with
  | nil => rfl
  | cons y before ih =>
    rw [cons_append, settle_cons_passed (h y mem_cons_self)]
    exact ih fun z hz => h z (mem_cons_of_mem y hz)

/-- A refusal with no answer before it is the end. -/
theorem settle_append_failed (exhausted : ε) {before} (hserv : ∀ y ∈ before, ∀ value, ask y ≠ .served value)
    (hfail : ∃ y ∈ before, ∃ error, ask y = .failed error) (after : List α) :
    ∃ error, settle ask exhausted (before ++ after) = .error error := by
  induction before with
  | nil =>
    obtain ⟨y, hy, -⟩ := hfail
    cases hy
  | cons y before ih =>
    rw [cons_append]
    cases hy : ask y with
    | served value => exact absurd hy (hserv y mem_cons_self value)
    | failed error => exact ⟨error, settle_cons_failed hy _⟩
    | passed =>
      rw [settle_cons_passed hy]
      refine ih (fun z hz => hserv z (mem_cons_of_mem y hz)) ?_
      obtain ⟨z, hz, error, he⟩ := hfail
      rcases mem_cons.1 hz with rfl | hz
      · rw [hy] at he
        cases he
      · exact ⟨z, hz, error, he⟩

/-- One that has passed may be left out of the rest. -/
theorem settle_filter_passed (q : α → Bool) {xs} (h : ∀ y ∈ xs, q y = false → ask y = .passed) :
    settle ask exhausted (xs.filter q) = settle ask exhausted xs := by
  induction xs with
  | nil => rfl
  | cons y xs ih =>
    have hr := ih fun z hz => h z (mem_cons_of_mem y hz)
    cases hq : q y with
    | false => rw [filter_cons_of_neg (by simp [hq]), hr, settle_cons_passed (h y mem_cons_self hq)]
    | true =>
      rw [filter_cons_of_pos hq]
      simp [settle, hr]

/-- Nobody is worth asking twice. -/
theorem settle_cons_filter [DecidableEq α] (xs : List α) :
    settle ask exhausted (x :: xs.filter (· ≠ x)) = settle ask exhausted (x :: xs) := by
  cases hx : ask x with
  | served => rw [settle_cons_served hx, settle_cons_served hx]
  | failed => rw [settle_cons_failed hx, settle_cons_failed hx]
  | passed =>
    rw [settle_cons_passed hx, settle_cons_passed hx]
    refine settle_filter_passed _ fun y _ hy => ?_
    have hyx : y = x := by simpa using hy
    rw [hyx, hx]

/-- Two that answer alike are as good as the second alone. -/
theorem settle_cons_alike {y : α} (h : ask x = ask y) (xs : List α) :
    settle ask exhausted (x :: y :: xs) = settle ask exhausted (y :: xs) := by
  cases hy : ask y with
  | served => rw [settle_cons_served (h.trans hy), settle_cons_served hy]
  | failed => rw [settle_cons_failed (h.trans hy), settle_cons_failed hy]
  | passed => rw [settle_cons_passed (h.trans hy)]

end

/-- The first element with a property. -/
theorem exists_first {p : α → Prop} {xs} (h : ∃ x ∈ xs, p x) :
    ∃ before x after, xs = before ++ x :: after ∧ (∀ y ∈ before, ¬p y) ∧ p x := by
  induction xs with
  | nil =>
    obtain ⟨x, hx, -⟩ := h
    cases hx
  | cons x xs ih =>
    by_cases hx : p x
    · exact ⟨[], x, xs, rfl, by simp, hx⟩
    · obtain ⟨y, hy, hp⟩ := h
      have hne : y ≠ x := by
        rintro rfl
        exact hx hp
      obtain ⟨before, z, after, rfl, hbef, hz⟩ := ih ⟨y, mem_of_ne_of_mem hne hy, hp⟩
      refine ⟨x :: before, z, after, rfl, ?_, hz⟩
      simpa [hx] using hbef

end Pooler.Lib
