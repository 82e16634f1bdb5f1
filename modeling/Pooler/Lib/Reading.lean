import Mathlib

/-! Programs that read a store key by key while it may be changed between any two reads. Read in one
moment, a program depends on what it reads and on nothing else. -/

namespace Pooler.Lib

open List

/-- A program that asks for the value of one key after the other. -/
inductive Reading (κ β α : Type) where
  | done (a : α)
  | read (k : κ) (next : Option β → Reading κ β α)

namespace Reading

variable {κ β α γ : Type}

def bind : Reading κ β α → (α → Reading κ β γ) → Reading κ β γ
  | done a, f => f a
  | read k next, f => read k fun v => (next v).bind f

/-- What the program returns if the store is the same all along. -/
def value (store : κ → Option β) : Reading κ β α → α
  | done a => a
  | read k next => (next (store k)).value store

/-- The keys that it reads then. -/
def keys (store : κ → Option β) : Reading κ β α → List κ
  | done _ => []
  | read k next => k :: (next (store k)).keys store

variable {store store' : κ → Option β}

@[simp] theorem value_done (a : α) : (done a : Reading κ β α).value store = a := rfl

@[simp] theorem keys_done (a : α) : (done a : Reading κ β α).keys store = [] := rfl

@[simp] theorem value_read (k : κ) (next : Option β → Reading κ β α) :
    (read k next).value store = (next (store k)).value store := rfl

@[simp] theorem keys_read (k : κ) (next : Option β → Reading κ β α) :
    (read k next).keys store = k :: (next (store k)).keys store := rfl

variable (p : Reading κ β α) (f : α → Reading κ β γ)

@[simp] theorem value_bind : (p.bind f).value store = (f (p.value store)).value store := by
  induction p with
  | done => rfl
  | read k next ih => exact ih _

@[simp] theorem keys_bind : (p.bind f).keys store = p.keys store ++ (f (p.value store)).keys store := by
  induction p with
  | done => rfl
  | read k next ih => exact congrArg (k :: ·) (ih _)

/-- Goes on unless there is an error. -/
def andThen {ε : Type} (p : Reading κ β (Except ε α)) (f : α → Reading κ β (Except ε γ)) : Reading κ β (Except ε γ) :=
  p.bind fun
    | .error e => done (.error e)
    | .ok a => f a

theorem value_andThen {ε : Type} {p : Reading κ β (Except ε α)} {f} {c : γ} :
    (p.andThen f).value store = .ok c ↔ ∃ a, p.value store = .ok a ∧ (f a).value store = .ok c := by
  rw [andThen, value_bind]
  cases p.value store with
  | error => exact ⟨nofun, nofun⟩
  | ok a => exact ⟨fun h => ⟨a, rfl, h⟩, fun ⟨_, ha, h⟩ => by cases ha; exact h⟩

/-- The keys of the second part are read only after the first has gone well. -/
theorem mem_keys_andThen {ε : Type} {p : Reading κ β (Except ε α)} {f : α → Reading κ β (Except ε γ)} {k : κ} :
    k ∈ (p.andThen f).keys store ↔ k ∈ p.keys store ∨ ∃ a, p.value store = .ok a ∧ k ∈ (f a).keys store := by
  rw [andThen, keys_bind, mem_append]
  refine or_congr_right ?_
  cases p.value store with
  | error => exact ⟨nofun, nofun⟩
  | ok a => exact ⟨fun h => ⟨a, rfl, h⟩, fun ⟨_, ha, h⟩ => by cases ha; exact h⟩

/-- Stores that agree on what is read give the same value. -/
theorem value_congr (h : ∀ k ∈ p.keys store, store' k = store k) : p.value store' = p.value store := by
  induction p with
  | done => rfl
  | read k next ih =>
    obtain ⟨hk, hnext⟩ := forall_mem_cons.1 h
    rw [value, value, hk]
    exact ih _ hnext

/-! ### Reading a store that changes -/

variable [DecidableEq κ]

/-- The store after some edits, first edit first. -/
def edited (store : κ → Option β) (edits : List (κ × Option β)) : κ → Option β :=
  edits.foldl (fun store edit => Function.update store edit.1 edit.2) store

/-- Carries the program out with the edits of the schedule before each of its reads. -/
def play : Reading κ β α → (κ → Option β) → List (List (κ × Option β)) → α × (κ → Option β)
  | done a, store, _ => (a, store)
  | read k next, store, schedule =>
    let store := edited store (schedule.headD [])
    (next (store k)).play store schedule.tail

/-- What is done with a result without further reads comes after the edits. -/
theorem play_map (f : α → γ) (store : κ → Option β) (schedule : List (List (κ × Option β))) :
    (p.bind fun a => done (f a)).play store schedule = (f (p.play store schedule).1, (p.play store schedule).2) := by
  induction p generalizing store schedule with
  | done => rfl
  | read k next ih => exact ih _ _ _

/-- No edit falls between the reads. -/
def Quiet (schedule : List (List (κ × Option β))) : Prop := ∀ edits ∈ schedule, edits = []

theorem play_quiet {schedule} (h : Quiet schedule) : p.play store schedule = (p.value store, store) := by
  induction p generalizing schedule with
  | done => rfl
  | read k next ih =>
    have hhead : schedule.headD [] = [] := by
      cases schedule with
      | nil => rfl
      | cons edits => exact h edits mem_cons_self
    rw [play, hhead]
    exact ih _ fun edits hedits => h edits (mem_of_mem_tail hedits)

end Reading

end Pooler.Lib
