import Mathlib

/-! Loops with a bound on their turns, the invariant rule, and the measure that shows the bound to
be large enough. -/

namespace Pooler.Lib

variable {σ : Type*}

/-- Makes at most `fuel` turns, each while the condition holds. -/
def whileLoop (condition : σ → Bool) (turn : σ → σ) : ℕ → σ → σ
  | 0, s => s
  | fuel + 1, s => if condition s then whileLoop condition turn fuel (turn s) else s

variable {condition : σ → Bool} {turn : σ → σ}

theorem whileLoop_invariant (inv : σ → Prop) (hturn : ∀ s, inv s → condition s = true → inv (turn s)) (fuel : ℕ) :
    ∀ s, inv s → inv (whileLoop condition turn fuel s) := by
  induction fuel with
  | zero => intro s hs; exact hs
  | succ fuel ih =>
    intro s hs
    rw [whileLoop]
    split_ifs with hc
    · exact ih _ (hturn s hs hc)
    · exact hs

/-- The loop ends by its condition when every turn lowers a measure that the fuel covers. -/
theorem whileLoop_done (inv : σ → Prop) (measure : σ → ℕ)
    (hturn : ∀ s, inv s → condition s = true → inv (turn s) ∧ measure (turn s) < measure s) (fuel : ℕ) :
    ∀ s, inv s → measure s ≤ fuel → condition (whileLoop condition turn fuel s) = false := by
  induction fuel with
  | zero =>
    intro s hs hle
    rw [whileLoop, Bool.eq_false_iff]
    intro hc
    have := (hturn s hs hc).2
    omega
  | succ fuel ih =>
    intro s hs hle
    rw [whileLoop]
    split_ifs with hc
    · obtain ⟨hinv, hlt⟩ := hturn s hs hc
      exact ih _ hinv (by omega)
    · exact Bool.eq_false_iff.2 hc

end Pooler.Lib
