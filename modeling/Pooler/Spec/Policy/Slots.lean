import Pooler.Spec.Policy.Registration

/-! The slots of a registry: one entry per binding, filed under that binding. -/

namespace Pooler

open Lib Table Std.ExtTreeMap

structure RegistryEntry where
  registration : CredentialRegistration
  enabled : Bool
  (inFlight order : ℕ)
  deriving DecidableEq

/-- A map of entries in which every entry stands under its own binding. -/
structure Slots where
  table : Table BindingKey RegistryEntry
  keyed : ∀ (b : BindingKey) (e : RegistryEntry), table[b]? = some e → e.registration.binding = b

namespace Slots

def empty : Slots := ⟨∅, by intro b e h; simp at h⟩

variable (s : Slots)

def get (b : BindingKey) : Option RegistryEntry := s.table[b]?

theorem binding_of_get {s : Slots} {b : BindingKey} {e : RegistryEntry} (h : s.get b = some e) :
    e.registration.binding = b := s.keyed b e h

/-- Files an entry, replacing the one that stands there. -/
def put (e : RegistryEntry) : Slots where
  table := s.table.insert e.registration.binding e
  keyed := by
    intro b e' h
    rw [get_insert] at h
    split_ifs at h with hb
    · cases h; exact hb
    · exact s.keyed b e' h

def remove (bs : List BindingKey) : Slots where
  table := s.table.filter (fun b _ => b ∉ bs)
  keyed := by
    intro b e h
    rw [get_filter] at h
    exact s.keyed b e (Option.filter_eq_some_iff.1 h).1

/-- Rewrites every entry that meets `p`, leaving its registration alone. -/
def update (p : RegistryEntry → Bool) (f : RegistryEntry → RegistryEntry)
    (hf : ∀ e, (f e).registration = e.registration := by intro _; rfl) : Slots where
  table := s.table.map (fun _ e => if p e then f e else e)
  keyed := by
    intro b e h
    rw [get_map] at h
    obtain ⟨e', h', rfl⟩ := Option.map_eq_some_iff.1 h
    split_ifs
    · rw [hf]; exact s.keyed b e' h'
    · exact s.keyed b e' h'

/-- The entries, in the order of their bindings. -/
def values : List RegistryEntry := s.table.toList.map Prod.snd

def bindings : List BindingKey := s.table.toList.map Prod.fst

theorem get_put (e : RegistryEntry) (b : BindingKey) :
    (s.put e).get b = if e.registration.binding = b then some e else s.get b :=
  get_insert _ _ _ _

theorem get_remove (bs : List BindingKey) (b : BindingKey) :
    (s.remove bs).get b = if b ∈ bs then none else s.get b := by
  unfold get remove
  rw [get_filter]
  cases s.table[b]? <;> by_cases h : b ∈ bs <;> simp [h]

theorem get_update (p : RegistryEntry → Bool) (f : RegistryEntry → RegistryEntry)
    (hf : ∀ e, (f e).registration = e.registration) (b : BindingKey) :
    (s.update p f hf).get b = (s.get b).map (fun e => if p e then f e else e) :=
  get_map _ _ _

theorem mem_values {s : Slots} {e : RegistryEntry} : e ∈ s.values ↔ s.get e.registration.binding = some e := by
  simp only [values, List.mem_map, Prod.exists, mem_toList_iff_getElem?_eq_some]
  constructor
  · rintro ⟨b, e', h, rfl⟩
    rw [s.keyed b e' h]
    exact h
  · intro h
    exact ⟨_, e, h, rfl⟩

theorem mem_bindings {s : Slots} {b : BindingKey} : b ∈ s.bindings ↔ ∃ e, s.get b = some e := by
  simp only [bindings, List.mem_map, Prod.exists, mem_toList_iff_getElem?_eq_some, get]
  constructor
  · rintro ⟨b', e, h, rfl⟩; exact ⟨e, h⟩
  · rintro ⟨e, h⟩; exact ⟨b, e, h, rfl⟩

end Slots

end Pooler
