import Mathlib

/-! Early exits. A function that leaves early on the first of several conditions is a list of
conditions, each with what it leaves with; a function that leaves on the first error is a chain
of results. -/

namespace Pooler.Lib

open List

variable {ρ : Type*}

/-- The result of the first guard whose condition holds. -/
def firstGuard : List (Bool × ρ) → Option ρ
  | [] => none
  | (condition, result) :: guards => if condition then some result else firstGuard guards

@[simp] theorem firstGuard_cons_eq_none (cond : Bool) (res : ρ) (guards : List (Bool × ρ)) :
    firstGuard ((cond, res) :: guards) = none ↔ cond = false ∧ firstGuard guards = none := by
  cases cond <;> simp [firstGuard]

section Results

variable {ε ε' α β σ : Type} {x : Except ε α}

theorem bind_eq_ok {f} {b : β} : (x >>= f) = .ok b ↔ ∃ a, x = .ok a ∧ f a = .ok b := by
  cases x with
  | error => exact ⟨nofun, nofun⟩
  | ok a => exact ⟨fun h => ⟨a, rfl, h⟩, fun ⟨_, ha, h⟩ => by cases ha; exact h⟩

theorem map_eq_ok {f} {b : β} : f <$> x = .ok b ↔ ∃ a, x = .ok a ∧ b = f a := by
  cases x with
  | error => exact ⟨nofun, nofun⟩
  | ok a => exact ⟨fun h => ⟨a, rfl, by cases h; rfl⟩, fun ⟨_, ha, hb⟩ => by cases ha; rw [hb]; rfl⟩

theorem exists_of_map_eq_ok {f} {b : β} (h : x.map f = .ok b) : ∃ a, x = .ok a ∧ f a = b := by
  obtain ⟨a, ha, hb⟩ := map_eq_ok.1 h
  exact ⟨a, ha, hb.symm⟩

theorem mapError_eq_ok {f : ε → ε'} {a : α} : x.mapError f = .ok a ↔ x = .ok a := by
  cases x with
  | error => exact ⟨nofun, nofun⟩
  | ok => exact ⟨fun h => by cases h; rfl, fun h => by cases h; rfl⟩

variable {as : List α}

theorem forM_eq_ok {f : α → Except ε Unit} : as.forM f = .ok () ↔ ∀ a ∈ as, f a = .ok () := by
  induction as with
  | nil => simp [pure, Except.pure]
  | cons a as ih =>
    change (f a >>= fun _ => as.forM f) = .ok () ↔ _
    rw [bind_eq_ok, forall_mem_cons, ← ih]
    exact ⟨fun ⟨_, ha, has⟩ => ⟨ha, has⟩, fun ⟨ha, has⟩ => ⟨(), ha, has⟩⟩

variable {step : σ → α → Except ε σ}

/-- A property kept by every step that succeeds holds at the end of a loop that succeeds. -/
theorem foldlM_ok_invariant {p : σ → Prop} (hstep : ∀ s a s', a ∈ as → p s → step s a = .ok s' → p s') :
    ∀ {s s'}, p s → as.foldlM step s = .ok s' → p s' := by
  induction as with
  | nil => intro s s' hs h; cases h; exact hs
  | cons a as ih =>
    intro s s' hs h
    rw [foldlM_cons, bind_eq_ok] at h
    obtain ⟨mid, hmid, h⟩ := h
    exact ih (fun s b s' hb => hstep s b s' (mem_cons_of_mem _ hb)) (hstep s a mid mem_cons_self hs hmid) h

/-- The same with the elements that have been through the loop. -/
theorem foldlM_ok_passed {p : List α → σ → Prop}
    (hstep : ∀ passed s a s', p passed s → step s a = .ok s' → p (passed ++ [a]) s') (as : List α) :
    ∀ {passed s s'}, p passed s → as.foldlM step s = .ok s' → p (passed ++ as) s' := by
  induction as with
  | nil => intro passed s s' hs h; cases h; rwa [append_nil]
  | cons a as ih =>
    intro passed s s' hs h
    rw [foldlM_cons, bind_eq_ok] at h
    obtain ⟨mid, hmid, h⟩ := h
    have := ih (hstep passed s a mid hs hmid) h
    rwa [append_assoc] at this

/-- A loop that succeeds from a state in which nothing has passed. -/
theorem foldlM_ok_all (p : List α → σ → Prop)
    (hstep : ∀ passed s a s', p passed s → step s a = .ok s' → p (passed ++ [a]) s') {s s' : σ}
    (hs : p [] s) (h : as.foldlM step s = .ok s') : p as s' :=
  foldlM_ok_passed hstep as hs h

/-! ### Results up to the error -/

theorem toOption_bind (x : Except ε α) (f : α → Except ε β) :
    (x >>= f).toOption = x.toOption.bind fun a => (f a).toOption := by
  cases x <;> rfl

theorem toOption_bind_congr {x y} {f g : α → Except ε β} (h : x.toOption = y.toOption)
    (hfg : ∀ a, (f a).toOption = (g a).toOption) : (x >>= f).toOption = (y >>= g).toOption := by
  rw [toOption_bind, toOption_bind, h]
  exact congrArg _ (funext hfg)

/-- Loops whose steps succeed alike succeed alike. -/
theorem toOption_foldlM_congr {R} {f : σ → α → Except ε σ} {g : σ → β → Except ε σ}
    (hstep : ∀ s a b, R a b → (f s a).toOption = (g s b).toOption) {bs}
    (h : Forall₂ R as bs) : ∀ s, (as.foldlM f s).toOption = (bs.foldlM g s).toOption := by
  induction h with
  | nil => intro s; rfl
  | cons hab _ ih =>
    intro s
    rw [foldlM_cons, foldlM_cons]
    exact toOption_bind_congr (hstep s _ _ hab) ih

end Results

end Pooler.Lib
