import Mathlib

/-! Checks that collect the reasons against a candidate. Most checks let the next one
run whatever they found; some end the list, and only with a reason. -/

namespace Pooler.Lib

open List

/-- The outcome of some checks. A stopped list of checks has found a reason. -/
structure Checks (ρ : Type) where
  reasons : List ρ
  stopped : Bool
  stopped_ne : stopped = true → reasons ≠ []

namespace Checks

variable {ρ : Type}

/-- Collects the reasons and goes on. -/
def note (reasons : List ρ) : Checks ρ := ⟨reasons, false, by simp⟩

/-- One reason, if the condition holds. -/
def refuse (condition : Bool) (reason : ρ) : Checks ρ := note (if condition then [reason] else [])

/-- Ends the checks with a reason. -/
def halt (reason : ρ) : Checks ρ := ⟨[reason], true, by simp⟩

/-- A check made only where something is required. -/
def forSome {β : Type} (required : Option β) (check : β → Checks ρ) : Checks ρ :=
  match required with
  | none => note []
  | some x => check x

def andThen (c d : Checks ρ) : Checks ρ :=
  if h : c.stopped then c
  else ⟨c.reasons ++ d.reasons, d.stopped, fun hd => by
    intro hnil
    exact d.stopped_ne hd (append_eq_nil_iff.1 hnil).2⟩

/-- The checks in order, up to the first that stops. -/
def all : List (Checks ρ) → Checks ρ
  | [] => note []
  | c :: cs => c.andThen (all cs)

@[simp] theorem note_reasons (reasons : List ρ) : (note reasons).reasons = reasons := rfl

@[simp] theorem halt_reasons (reason : ρ) : (halt reason).reasons = [reason] := rfl

@[simp] theorem refuse_reasons_eq_nil (cond : Bool) (reason : ρ) :
    (refuse cond reason).reasons = [] ↔ cond = false := by
  cases cond <;> simp [refuse]

@[simp] theorem forSome_reasons_eq_nil {β : Type} (required : Option β) (check : β → Checks ρ) :
    (forSome required check).reasons = [] ↔ ∀ x, required = some x → (check x).reasons = [] := by
  cases required <;> simp [forSome]

theorem andThen_reasons_eq_nil (c d : Checks ρ) : (c.andThen d).reasons = [] ↔ c.reasons = [] ∧ d.reasons = [] := by
  unfold andThen
  split_ifs with h
  · constructor
    · intro hnil; exact absurd hnil (c.stopped_ne h)
    · intro hnil; exact hnil.1
  · exact append_eq_nil_iff

/-- Nothing was found exactly when no check found anything: an early end hides no pass. -/
theorem all_reasons_eq_nil (cs : List (Checks ρ)) : (all cs).reasons = [] ↔ ∀ c ∈ cs, c.reasons = [] := by
  induction cs with
  | nil => simp [all]
  | cons c cs ih => rw [all, andThen_reasons_eq_nil, ih, forall_mem_cons]

end Checks

end Pooler.Lib
