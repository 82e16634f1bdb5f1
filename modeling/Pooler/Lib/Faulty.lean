import Mathlib.Data.List.Basic

/-! # Programs over a durable state that may fail or be cut short

A program asks its environment to look at the state or to change it. The environment answers each
request: it is done, it failed with nothing changed, or it was reported as failed although the
change happened. A crash is a list of answers that ends before the program does. -/

namespace Pooler.Lib

inductive Outcome where
  | done
  | failed
  /-- Reported as failed after it took effect. -/
  | torn
  deriving DecidableEq, Repr

inductive Faulty (σ α : Type) where
  | ret (result : α)
  | read (next : Option σ → Faulty σ α)
  | act (effect : σ → σ) (tears : Bool) (next : Bool → Faulty σ α)

namespace Faulty

variable {σ α β ε : Type}

def bind : Faulty σ α → (α → Faulty σ β) → Faulty σ β
  | .ret result, f => f result
  | .read next, f => .read fun seen => (next seen).bind f
  | .act effect tears next, f => .act effect tears fun reported => (next reported).bind f

/-- Goes on after a success and hands an error on. -/
def andThen (p : Faulty σ (Except ε α)) (f : α → Faulty σ (Except ε β)) : Faulty σ (Except ε β) :=
  p.bind fun
    | .ok a => f a
    | .error e => .ret (.error e)

/-- The state a crash leaves when the environment's answers end. -/
def crashed : Faulty σ α → List Outcome → σ → σ
  | .ret _, _, s => s
  | .read _, [], s => s
  | .read next, .done :: rest, s => (next (some s)).crashed rest s
  | .read next, _ :: rest, s => (next none).crashed rest s
  | .act _ _ _, [], s => s
  | .act effect _ next, .done :: rest, s => (next true).crashed rest (effect s)
  | .act _ _ next, .failed :: rest, s => (next false).crashed rest s
  | .act effect tears next, .torn :: rest, s => (next false).crashed rest (if tears then effect s else s)

/-- What the program returned and where it left the state, if the answers lasted. -/
def finished : Faulty σ α → List Outcome → σ → Option (α × σ)
  | .ret result, _, s => some (result, s)
  | .read _, [], _ => none
  | .read next, .done :: rest, s => (next (some s)).finished rest s
  | .read next, _ :: rest, s => (next none).finished rest s
  | .act _ _ _, [], _ => none
  | .act effect _ next, .done :: rest, s => (next true).finished rest (effect s)
  | .act _ _ next, .failed :: rest, s => (next false).finished rest s
  | .act effect tears next, .torn :: rest, s => (next false).finished rest (if tears then effect s else s)

/-- The run in which nothing fails. -/
def smooth : Faulty σ α → σ → α × σ
  | .ret result, s => (result, s)
  | .read next, s => (next (some s)).smooth s
  | .act effect _ next, s => (next true).smooth (effect s)

@[simp] theorem smooth_ret (result : α) (s : σ) : (ret result : Faulty σ α).smooth s = (result, s) := rfl

@[simp] theorem smooth_read (next : Option σ → Faulty σ α) (s : σ) :
    (read next).smooth s = (next (some s)).smooth s := rfl

@[simp] theorem smooth_act (effect : σ → σ) (tears : Bool) (next : Bool → Faulty σ α) (s : σ) :
    (act effect tears next).smooth s = (next true).smooth (effect s) := rfl

theorem smooth_bind (p : Faulty σ α) (f : α → Faulty σ β) (s : σ) :
    (p.bind f).smooth s = (f (p.smooth s).1).smooth (p.smooth s).2 := by
  induction p generalizing s with
  | ret => rfl
  | read next ih => exact ih _ s
  | act effect tears next ih => exact ih _ (effect s)

variable {f : α → Faulty σ (Except ε β)}

theorem smooth_andThen {p : Faulty σ (Except ε α)} {s t : σ} {a : α}
    (h : p.smooth s = (.ok a, t)) : (p.andThen f).smooth s = (f a).smooth t := by
  unfold andThen
  rw [smooth_bind, h]

/-- Every state on the way satisfies `inv`, and every return satisfies `post`. -/
def Safe (inv : σ → Prop) (post : α → σ → Prop) : Faulty σ α → σ → Prop
  | .ret result, s => inv s ∧ post result s
  | .read next, s => inv s ∧ Safe inv post (next none) s ∧ Safe inv post (next (some s)) s
  | .act effect tears next, s =>
    inv s ∧ Safe inv post (next true) (effect s) ∧ Safe inv post (next false) s ∧
      (tears = true → Safe inv post (next false) (effect s))

variable {inv : σ → Prop} {post : α → σ → Prop} {p : Faulty σ α} {s : σ}

theorem Safe.crashed (h : p.Safe inv post s) (outcomes : List Outcome) : inv (p.crashed outcomes s) := by
  induction p generalizing s outcomes with
  | ret => exact h.1
  | read next ih =>
    match outcomes with
    | [] => exact h.1
    | .done :: rest => exact ih _ h.2.2 rest
    | .failed :: rest | .torn :: rest => exact ih _ h.2.1 rest
  | act effect tears next ih =>
    match outcomes with
    | [] => exact h.1
    | .done :: rest => exact ih _ h.2.1 rest
    | .failed :: rest => exact ih _ h.2.2.1 rest
    | .torn :: rest =>
      cases tears with
      | false => exact ih _ h.2.2.1 rest
      | true => exact ih _ (h.2.2.2 rfl) rest

theorem Safe.finished (h : p.Safe inv post s) {outcomes} {a : α} {t : σ}
    (hend : p.finished outcomes s = some (a, t)) : post a t := by
  induction p generalizing s outcomes with
  | ret =>
    simp only [Faulty.finished, Option.some.injEq, Prod.mk.injEq] at hend
    rw [← hend.1, ← hend.2]
    exact h.2
  | read next ih =>
    match outcomes with
    | [] => cases hend
    | .done :: rest => exact ih _ h.2.2 hend
    | .failed :: rest | .torn :: rest => exact ih _ h.2.1 hend
  | act effect tears next ih =>
    match outcomes with
    | [] => cases hend
    | .done :: rest => exact ih _ h.2.1 hend
    | .failed :: rest => exact ih _ h.2.2.1 hend
    | .torn :: rest =>
      cases tears with
      | false => exact ih _ h.2.2.1 hend
      | true => exact ih _ (h.2.2.2 rfl) hend

theorem Safe.mono {inv' post'} (h : p.Safe inv post s)
    (hinv : ∀ t, inv t → inv' t) (hpost : ∀ a t, post a t → post' a t) : p.Safe inv' post' s := by
  induction p generalizing s with
  | ret => exact ⟨hinv _ h.1, hpost _ _ h.2⟩
  | read next ih => exact ⟨hinv _ h.1, ih _ h.2.1, ih _ h.2.2⟩
  | act effect tears next ih => exact ⟨hinv _ h.1, ih _ h.2.1, ih _ h.2.2.1, fun htears => ih _ (h.2.2.2 htears)⟩

theorem Safe.bind {f} {post' : β → σ → Prop} (h : p.Safe inv post s)
    (hf : ∀ a t, inv t → post a t → (f a).Safe inv post' t) : (p.bind f).Safe inv post' s := by
  induction p generalizing s with
  | ret => exact hf _ _ h.1 h.2
  | read next ih => exact ⟨h.1, ih _ h.2.1, ih _ h.2.2⟩
  | act effect tears next ih => exact ⟨h.1, ih _ h.2.1, ih _ h.2.2.1, fun htears => ih _ (h.2.2.2 htears)⟩

/-- The postcondition of a program that may report an error. -/
def Ends (good : α → σ → Prop) (bad : σ → Prop) : Except ε α → σ → Prop
  | .ok a, s => good a s
  | .error _, s => bad s

theorem Safe.andThen {p : Faulty σ (Except ε α)} {Q Q' bad} (h : p.Safe inv (Ends Q bad) s)
    (hf : ∀ a t, Q a t → (f a).Safe inv (Ends Q' bad) t) : (p.andThen f).Safe inv (Ends Q' bad) s := by
  refine h.bind fun result t hinv hpost => ?_
  match result, hpost with
  | .ok a, hpost => exact hf a t hpost
  | .error _, hpost => exact ⟨hinv, hpost⟩

theorem Safe.weaken {p : Faulty σ (Except ε α)} {Q Q' bad bad'}
    (h : p.Safe inv (Ends Q bad) s) (hgood : ∀ a t, Q a t → Q' a t) (hbad : ∀ t, bad t → bad' t) :
    p.Safe inv (Ends Q' bad') s := by
  refine h.mono (fun _ ht => ht) fun result t ht => ?_
  match result, ht with
  | .ok a, ht => exact hgood a t ht
  | .error _, ht => exact hbad t ht

end Faulty

end Pooler.Lib
