import Mathlib

/-! Programs that may fail and that keep a journal of what they did. What such a program returns is
described by a relation that follows its steps, so that a program is read by rewriting. -/

namespace Pooler.Lib

open List

/-- A program that fails, or returns a value and the notes it took, the first one first. -/
structure Journal (ν ε α : Type) where
  run : Except ε (α × List ν)

namespace Journal

variable {ν ε α β : Type}

protected def bind (p : Journal ν ε α) (f : α → Journal ν ε β) : Journal ν ε β :=
  ⟨p.run >>= fun first => (f first.1).run >>= fun second => .ok (second.1, first.2 ++ second.2)⟩

instance : Monad (Journal ν ε) where
  pure a := ⟨.ok (a, [])⟩
  bind := Journal.bind

instance : MonadLift (Except ε) (Journal ν ε) where
  monadLift x := ⟨x.map fun a => (a, [])⟩

/-- A program that fails. -/
def fail (e : ε) : Journal ν ε α := ⟨.error e⟩

def note (n : ν) : Journal ν ε Unit := ⟨.ok ((), [n])⟩

def noteIf (condition : Bool) (n : ν) : Journal ν ε Unit := if condition then note n else pure ()

variable {f : α → Journal ν ε β} {a : α}

theorem bind_ok {notes} :
    (⟨.ok (a, notes)⟩ >>= f : Journal ν ε β) = ⟨(f a).run.map fun second => (second.1, notes ++ second.2)⟩ := by
  change (⟨(f a).run >>= _⟩ : Journal ν ε β) = _
  cases (f a).run with
  | error | ok => rfl

instance : LawfulMonad (Journal ν ε) := LawfulMonad.mk' _
  (by
    rintro α ⟨e | ⟨a, notes⟩⟩
    · rfl
    · change (⟨.ok (a, notes ++ [])⟩ : Journal ν ε α) = _
      rw [append_nil])
  (by
    intro α β a f
    change (⟨.ok (a, [])⟩ >>= f) = f a
    rw [bind_ok]
    obtain ⟨e | ⟨b, notes⟩⟩ := f a
    · rfl
    · rfl)
  (by
    rintro α β γ ⟨e | ⟨a, notes⟩⟩ f g
    · rfl
    · rw [bind_ok, bind_ok]
      obtain ⟨e | ⟨b, more⟩⟩ := f a
      · rfl
      · rw [bind_ok]
        change (⟨.ok (b, notes ++ more)⟩ >>= g : Journal ν ε γ) = _
        rw [bind_ok]
        obtain ⟨e | ⟨c, most⟩⟩ := g b
        · rfl
        · change (⟨.ok (c, notes ++ more ++ most)⟩ : Journal ν ε γ) = ⟨.ok (c, notes ++ (more ++ most))⟩
          rw [append_assoc])

/-! ### What a program returns -/

/-- The program returns the value, with notes that are all acceptable. -/
def Returns (ok : ν → Prop) (p : Journal ν ε α) (a : α) : Prop := ∃ notes, p.run = .ok (a, notes) ∧ ∀ n ∈ notes, ok n

variable {ok : ν → Prop}

@[simp] theorem returns_pure {b : α} : Returns ok (pure a : Journal ν ε α) b ↔ b = a := by
  constructor
  · rintro ⟨notes, h, -⟩
    cases h
    rfl
  · rintro rfl
    exact ⟨[], rfl, nofun⟩

variable {p : Journal ν ε α}

@[simp] theorem returns_bind {b : β} : Returns ok (p >>= f) b ↔ ∃ a, Returns ok p a ∧ Returns ok (f a) b := by
  obtain ⟨e | ⟨a, before⟩⟩ := p
  · constructor
    · rintro ⟨notes, h, -⟩; cases h
    · rintro ⟨a, ⟨notes, h, -⟩, -⟩; cases h
  · rw [bind_ok]
    constructor
    · rintro ⟨notes, h, hok⟩
      cases hf : (f a).run with
      | error => rw [hf] at h; cases h
      | ok second =>
        rw [hf] at h
        cases h
        exact ⟨a, ⟨before, rfl, fun n hn => hok n (mem_append_left _ hn)⟩,
          ⟨second.2, hf, fun n hn => hok n (mem_append_right _ hn)⟩⟩
    · rintro ⟨_, ⟨_, h, hbef⟩, ⟨more, hf, hmore⟩⟩
      cases h
      refine ⟨before ++ more, by rw [hf]; rfl, ?_⟩
      exact fun n hn => (mem_append.1 hn).elim (hbef n) (hmore n)

@[simp] theorem returns_map {f} {b : β} : Returns ok (f <$> p) b ↔ ∃ a, Returns ok p a ∧ b = f a := by
  rw [map_eq_pure_bind, returns_bind]
  simp

@[simp] theorem returns_lift {x : Except ε α} : Returns ok (liftM x : Journal ν ε α) a ↔ x = .ok a := by
  cases x with
  | error =>
    constructor
    · rintro ⟨notes, h, -⟩; cases h
    · intro h; cases h
  | ok =>
    constructor
    · rintro ⟨notes, h, -⟩; cases h; rfl
    · rintro h; cases h; exact ⟨[], rfl, nofun⟩

@[simp] theorem returns_fail {e : ε} : ¬Returns ok (fail e : Journal ν ε α) a := by
  rintro ⟨notes, h, -⟩
  cases h

@[simp] theorem returns_note {n : ν} {u} : Returns ok (note n : Journal ν ε Unit) u ↔ ok n := by
  constructor
  · rintro ⟨notes, h, hok⟩
    cases h
    exact hok n mem_cons_self
  · intro hn
    exact ⟨[n], rfl, fun m hm => mem_singleton.1 hm ▸ hn⟩

@[simp] theorem returns_noteIf {condition} {n : ν} {u} :
    Returns ok (noteIf condition n : Journal ν ε Unit) u ↔ (condition = true → ok n) := by
  cases condition with
  | true | false => simp [noteIf]

theorem returns_mapM {as bs} : Returns ok (as.mapM f) bs ↔ Forall₂ (fun a b => Returns ok (f a) b) as bs := by
  induction as generalizing bs with
  | nil => simp
  | cons a as ih =>
    rw [mapM_cons, returns_bind]
    simp only [returns_bind, returns_pure, ih]
    constructor
    · rintro ⟨b, hb, rest, hr, rfl⟩
      exact .cons hb hr
    · intro h
      cases h with
      | cons hb hr => exact ⟨_, hb, _, hr, rfl⟩

theorem returns_forM {f : α → Journal ν ε Unit} {as : List α} {u} :
    Returns ok (as.forM f) u ↔ ∀ a ∈ as, Returns ok (f a) () := by
  induction as with
  | nil => simp
  | cons a as ih =>
    change Returns ok (f a >>= fun _ => as.forM f) u ↔ _
    rw [returns_bind, forall_mem_cons, ← ih]
    constructor
    · rintro ⟨⟨⟩, hfst, hr⟩
      exact ⟨hfst, hr⟩
    · rintro ⟨hfst, hr⟩
      exact ⟨(), hfst, hr⟩

theorem Returns.unique {ok'} {b : α} (h : Returns ok p a) (h' : Returns ok' p b) : a = b := by
  obtain ⟨notes, hp, -⟩ := h
  obtain ⟨notes', hp', -⟩ := h'
  rw [hp] at hp'
  cases hp'
  rfl

end Journal

end Pooler.Lib
