import Mathlib

/-! Runs of a deterministic step function over a list of events, and the rules by
which a property of one step becomes a property of a whole run. -/

namespace Pooler.Lib

open List

variable {σ ε : Type*}

/-- The state reached from `s` by the events, first event first. -/
def run (step : σ → ε → σ) (s : σ) (events : List ε) : σ := events.foldl step s

variable {step : σ → ε → σ}

@[simp] theorem run_nil (s : σ) : run step s [] = s := rfl

@[simp] theorem run_cons (s : σ) (e : ε) (es : List ε) : run step s (e :: es) = run step (step s e) es := rfl

theorem run_append (s : σ) (es fs : List ε) : run step s (es ++ fs) = run step (run step s es) fs := foldl_append

/-- Every step of the run meets the condition `ok` in the state it starts from. -/
def StepsMeet (step : σ → ε → σ) (ok : σ → ε → Prop) (s : σ) : List ε → Prop
  | [] => True
  | e :: es => ok s e ∧ StepsMeet step ok (step s e) es

instance StepsMeet.decidable {ok : σ → ε → Prop} [∀ s e, Decidable (ok s e)] :
    ∀ (es : List ε) (s : σ), Decidable (StepsMeet step ok s es)
  | [], _ => .isTrue trivial
  | e :: es, s => @instDecidableAnd _ _ _ (StepsMeet.decidable es (step s e))

theorem stepsMeet_of_forall {ok : ε → Prop} (es : List ε) :
    ∀ s, (∀ e ∈ es, ok e) → StepsMeet step (fun _ e => ok e) s es := by
  induction es with
  | nil => intro s _; exact trivial
  | cons e es ih =>
    intro s h
    exact ⟨h e mem_cons_self, ih _ (fun e' he' => h e' (mem_cons_of_mem _ he'))⟩

/-- A property kept by every step that meets `ok` holds at the end of a run whose steps all do. -/
theorem run_of_stepsMeet {ok} {inv : σ → Prop} (hstep : ∀ s e, ok s e → inv s → inv (step s e)) (es : List ε) :
    ∀ s, StepsMeet step ok s es → inv s → inv (run step s es) := by
  induction es with
  | nil => intro s _ h; exact h
  | cons e es ih => intro s hok h; exact ih _ hok.2 (hstep s e hok.1 h)

/-- A property kept by every step holds at the end of every run. -/
theorem run_invariant {inv : σ → Prop} (hstep : ∀ s e, inv s → inv (step s e)) (es : List ε) :
    ∀ s, inv s → inv (run step s es) := by
  induction es with
  | nil => intro s h; exact h
  | cons e es ih => intro s h; exact ih _ (hstep s e h)

/-- A task whose next step is always enabled, and which no event sets back, is finished in every run
that contains its steps in order. -/
theorem run_finishes {inv : σ → Prop} {allowed : ε → Prop} {todo : σ → List ε}
    (hinv : ∀ s e, allowed e → inv s → inv (step s e))
    (hkeep : ∀ s e, allowed e → inv s → (todo (step s e)).Sublist (todo s))
    (hnext : ∀ s e rest, allowed e → inv s → todo s = e :: rest → (todo (step s e)).Sublist rest)
    (es : List ε) : ∀ s, (∀ e ∈ es, allowed e) → inv s → (todo s).Sublist es →
      inv (run step s es) ∧ todo (run step s es) = [] := by
  induction es with
  | nil => intro s _ h hsub; exact ⟨h, sublist_nil.1 hsub⟩
  | cons e es ih =>
    intro s hall h hsub
    have he := hall e mem_cons_self
    refine ih _ (fun e' he' => hall e' (mem_cons_of_mem _ he')) (hinv s e he h) ?_
    obtain hskip | ⟨rest, hr, hsub⟩ := sublist_cons_iff.1 hsub
    · exact (hkeep s e he h).trans hskip
    · exact (hnext s e rest he h hr).trans hsub

end Pooler.Lib
