import Mathlib

/-! Maps as lists of entries in the order of their keys. -/

namespace Pooler.Lib

open List Option

/-- The entries of a map. -/
abbrev Assoc (κ β : Type*) := List (κ × β)

namespace Assoc

variable {κ β : Type*} [LinearOrder κ]

def get : Assoc κ β → κ → Option β
  | [], _ => none
  | (l, w) :: entries, k => if l = k then some w else get entries k

/-- Puts the entry in the place of an old one for the same key. -/
def insert : Assoc κ β → κ → β → Assoc κ β
  | [], k, v => [(k, v)]
  | (l, w) :: entries, k, v =>
    if k < l then (k, v) :: (l, w) :: entries
    else if k = l then (k, v) :: entries
    else (l, w) :: insert entries k v

variable (entries : Assoc κ β)

def erase (k : κ) : Assoc κ β := entries.filter (fun entry => entry.1 ≠ k)

def contains (k : κ) : Bool := (entries.get k).isSome

/-- Puts the entry if there is a value for it. -/
def insertSome (k : κ) : Option β → Assoc κ β
  | none => entries
  | some v => entries.insert k v

/-- The map of a list of entries; a later entry takes the place of an earlier one. -/
def ofList (entries : List (κ × β)) : Assoc κ β := entries.foldl (fun m entry => m.insert entry.1 entry.2) []

/-- The keys strictly increase. -/
def Sorted : Prop := entries.Pairwise (fun a b => a.1 < b.1)

@[simp] theorem get_nil (k : κ) : get ([] : Assoc κ β) k = none := rfl

section

variable (entries : Assoc κ β)

theorem get_insert (k a : κ) (v : β) : (entries.insert k v).get a = if k = a then some v else entries.get a := by
  induction entries with
  | nil => simp [insert, get]
  | cons entry entries ih =>
    obtain ⟨l, w⟩ := entry
    rw [insert]
    by_cases hlt : k < l
    · rw [if_pos hlt, get]
    · by_cases heq : k = l
      · rw [if_neg hlt, if_pos heq, get, get, heq]
        by_cases ha : l = a
        · rw [if_pos ha, if_pos ha]
        · rw [if_neg ha, if_neg ha, if_neg ha]
      · rw [if_neg hlt, if_neg heq, get, get, ih]
        by_cases ha : k = a
        · rw [if_pos ha, if_neg (fun h => heq (ha.trans h.symm)), if_pos ha]
        · rw [if_neg ha, if_neg ha]

@[simp] theorem get_insert_self (k : κ) (v : β) : (entries.insert k v).get k = some v := by
  rw [get_insert, if_pos rfl]

theorem get_filter (p : κ → Bool) (k : κ) :
    get (entries.filter fun entry => p entry.1) k = if p k then entries.get k else none := by
  induction entries with
  | nil => simp
  | cons entry entries ih =>
    obtain ⟨l, w⟩ := entry
    rw [filter_cons, get]
    by_cases hl : l = k
    · subst hl
      by_cases hp : p l
      · rw [if_pos hp, get, if_pos rfl, if_pos hp, if_pos rfl]
      · rw [if_neg hp, ih, if_neg hp, if_neg hp]
    · rw [if_neg hl]
      split
      · rw [get, if_neg hl, ih]
      · exact ih

theorem get_erase (k a : κ) : (entries.erase k).get a = if k = a then none else entries.get a := by
  rw [erase, get_filter entries fun l => decide (l ≠ k)]
  by_cases ha : k = a
  · simp [ha]
  · simp [ha, Ne.symm ha]

end

variable {entries : Assoc κ β} {k : κ} {v : β}

theorem mem_insert {entry} (h : entry ∈ entries.insert k v) : entry = (k, v) ∨ entry ∈ entries := by
  induction entries with
  | nil => exact .inl (mem_singleton.1 h)
  | cons first entries ih =>
    obtain ⟨l, w⟩ := first
    rw [insert] at h
    split_ifs at h with hlt heq
    · exact mem_cons.1 h
    · exact (mem_cons.1 h).imp_right (mem_cons_of_mem _)
    · rcases mem_cons.1 h with rfl | h
      · exact .inr mem_cons_self
      · exact (ih h).imp_right (mem_cons_of_mem _)

theorem mem_of_get (h : entries.get k = some v) : (k, v) ∈ entries := by
  induction entries with
  | nil => cases h
  | cons first entries ih =>
    obtain ⟨l, w⟩ := first
    rw [get] at h
    split_ifs at h with hl
    · cases h; exact hl ▸ mem_cons_self
    · exact mem_cons_of_mem _ (ih h)

theorem Sorted.insert (h : entries.Sorted) (k : κ) (v : β) : (entries.insert k v).Sorted := by
  induction entries with
  | nil => exact pairwise_singleton _ _
  | cons first entries ih =>
    obtain ⟨l, w⟩ := first
    obtain ⟨hfst, hr⟩ := pairwise_cons.1 h
    rw [Assoc.insert]
    split_ifs with hlt heq
    · refine pairwise_cons.2 ⟨?_, h⟩
      intro entry hent
      rcases mem_cons.1 hent with rfl | hent
      · exact hlt
      · exact hlt.trans (hfst entry hent)
    · subst heq
      exact pairwise_cons.2 ⟨hfst, hr⟩
    · refine pairwise_cons.2 ⟨?_, ih hr⟩
      intro entry hent
      rcases mem_insert hent with rfl | hent
      · exact lt_of_le_of_ne (not_lt.1 hlt) (Ne.symm heq)
      · exact hfst entry hent

theorem Sorted.erase (h : entries.Sorted) (k : κ) : (entries.erase k).Sorted := h.filter _

theorem Sorted.get_of_mem (h : entries.Sorted) (hm : (k, v) ∈ entries) : entries.get k = some v := by
  induction entries with
  | nil => cases hm
  | cons first entries ih =>
    obtain ⟨l, w⟩ := first
    obtain ⟨hfst, hr⟩ := pairwise_cons.1 h
    rw [get]
    rcases mem_cons.1 hm with heq | hm
    · cases heq; rw [if_pos rfl]
    · rw [if_neg (hfst _ hm).ne, ih hr hm]

/-- Two maps are equal when every key has the same value in both. -/
theorem Sorted.ext {a b : Assoc κ β} (ha : a.Sorted) (hb : b.Sorted) (h : ∀ k, a.get k = b.get k) : a = b := by
  have hnd : ∀ {l : Assoc κ β}, l.Sorted → l.Nodup :=
    fun hl => hl.imp (fun hlt heq => hlt.ne (congrArg Prod.fst heq))
  have hm : ∀ entry, entry ∈ a ↔ entry ∈ b := by
    rintro ⟨k, v⟩
    constructor
    · exact fun hk => mem_of_get ((h k).symm.trans (ha.get_of_mem hk))
    · exact fun hk => mem_of_get ((h k).trans (hb.get_of_mem hk))
  exact ((perm_ext_iff_of_nodup (hnd ha) (hnd hb)).2 hm).eq_of_pairwise
    (fun x y _ _ hxy hyx => absurd hyx hxy.not_gt) ha hb

theorem Sorted.erase_eq_self (hs : entries.Sorted) (h : entries.get k = none) : entries.erase k = entries := by
  refine filter_eq_self.2 fun entry hent => ?_
  have hne : entry.1 ≠ k := by
    rintro rfl
    rw [hs.get_of_mem hent] at h
    cases h
  simpa using hne

theorem perm_of_get_eq_some (hs : entries.Sorted) (h : entries.get k = some v) :
    entries.Perm ((k, v) :: entries.erase k) := by
  induction entries with
  | nil => cases h
  | cons first entries ih =>
    obtain ⟨l, w⟩ := first
    obtain ⟨hfst, hr⟩ := pairwise_cons.1 hs
    rw [get] at h
    by_cases hl : l = k
    · rw [if_pos hl] at h
      cases h
      have hkeep : Assoc.erase entries k = entries :=
        filter_eq_self.2 fun entry hent => by simpa using hl ▸ (hfst entry hent).ne'
      rw [Assoc.erase, filter_cons, if_neg (by simp [hl])]
      change List.Perm ((l, v) :: entries) ((k, v) :: Assoc.erase entries k)
      rw [hkeep, hl]
    · rw [if_neg hl] at h
      rw [Assoc.erase, filter_cons, if_pos (by simpa using hl)]
      exact ((ih hr h).cons _).trans (List.Perm.swap _ _ _)

theorem Sorted.perm_insert (hs : entries.Sorted) (k : κ) (v : β) :
    (entries.insert k v).Perm ((k, v) :: entries.erase k) := by
  have herase : (entries.insert k v).erase k = entries.erase k := by
    apply Sorted.ext ((hs.insert k v).erase k) (hs.erase k)
    intro a
    rw [get_erase, get_erase, get_insert]
    split_ifs with ha
    · rfl
    · rfl
  have := perm_of_get_eq_some (hs.insert k v) (get_insert_self entries k v)
  rwa [herase] at this

theorem Sorted.perm_insert_new (hs : entries.Sorted) (v : β) (h : entries.get k = none) :
    (entries.insert k v).Perm ((k, v) :: entries) :=
  (hs.perm_insert k v).trans (by rw [hs.erase_eq_self h])

/-! ### Maps of lists of entries -/

theorem sorted_nil : Sorted ([] : Assoc κ β) := List.Pairwise.nil

theorem ofList_append_singleton (entries : List (κ × β)) (k : κ) (v : β) :
    ofList (entries ++ [(k, v)]) = (ofList entries).insert k v := by
  rw [ofList, foldl_append]
  rfl

theorem sorted_ofList (entries : List (κ × β)) : (ofList entries).Sorted := by
  induction entries using List.reverseRecOn with
  | nil => exact sorted_nil
  | append_singleton entries entry ih =>
    rw [ofList_append_singleton]
    exact ih.insert _ _

theorem mem_of_mem_ofList {entries} {entry : κ × β} (h : entry ∈ ofList entries) : entry ∈ entries := by
  induction entries using List.reverseRecOn with
  | nil => cases h
  | append_singleton entries last ih =>
    rw [ofList_append_singleton] at h
    rcases mem_insert h with rfl | h
    · exact mem_append_right _ mem_cons_self
    · exact mem_append_left _ (ih h)

/-- An entry is found under its key where the keys are distinct. -/
theorem get_ofList {entries} (hkeys : (entries.map Prod.fst).Nodup)
    (h : (k, v) ∈ entries) : (ofList entries).get k = some v := by
  induction entries using List.reverseRecOn with
  | nil => cases h
  | append_singleton entries last ih =>
    rw [map_append, nodup_append] at hkeys
    obtain ⟨hkeys, -, hlast⟩ := hkeys
    rw [ofList_append_singleton, get_insert]
    obtain h | h := mem_append.1 h
    · have hne : k ≠ last.1 := hlast k (mem_map_of_mem h) last.1 mem_cons_self
      rw [if_neg hne.symm, ih hkeys h]
    · obtain rfl := mem_singleton.1 h
      rw [if_pos rfl]

/-- A new greatest key stands at the end. -/
theorem insert_of_forall_lt (v : β) (h : ∀ entry ∈ entries, entry.1 < k) :
    entries.insert k v = entries ++ [(k, v)] := by
  induction entries with
  | nil => rfl
  | cons first entries ih =>
    obtain ⟨l, w⟩ := first
    have hl : l < k := h (l, w) mem_cons_self
    rw [insert, if_neg hl.not_gt, if_neg hl.ne', ih fun entry hent => h entry (mem_cons_of_mem _ hent)]
    rfl

theorem Sorted.ofList_eq (h : entries.Sorted) : ofList entries = entries := by
  induction entries using List.reverseRecOn with
  | nil => rfl
  | append_singleton entries last ih =>
    obtain ⟨hsort, -, hlast⟩ := pairwise_append.1 h
    rw [ofList_append_singleton, ih hsort]
    exact insert_of_forall_lt _ fun entry hent => hlast entry hent last mem_cons_self

/-! ### Entries that may be missing -/

theorem get_insertSome (entries : Assoc κ β) (k a : κ) (v : Option β) :
    (entries.insertSome k v).get a = if k = a then v.or (entries.get a) else entries.get a := by
  cases v with
  | none => simp [insertSome]
  | some v => exact get_insert entries k a v

theorem Sorted.insertSome (h : entries.Sorted) (k : κ) (v : Option β) : (entries.insertSome k v).Sorted := by
  cases v with
  | none => exact h
  | some v => exact h.insert k v

/-! ### Properties of all values -/

section All

variable {P : β → Prop}

def All (P : β → Prop) (entries : Assoc κ β) : Prop := ∀ entry ∈ entries, P entry.2

theorem All.get (h : entries.All P) {k : κ} {v : β} (hg : entries.get k = some v) : P v := h (k, v) (mem_of_get hg)

theorem All.insert {k : κ} {v : β} (h : entries.All P) (hv : P v) : (entries.insert k v).All P := by
  intro entry hent
  rcases mem_insert hent with rfl | hent
  · exact hv
  · exact h entry hent

theorem All.insertSome {k : κ} {v} (h : entries.All P) (hv : ∀ w ∈ v, P w) : (entries.insertSome k v).All P := by
  cases v with
  | none => exact h
  | some v => exact h.insert (hv v rfl)

theorem all_ofList {entries : List (κ × β)} (h : ∀ entry ∈ entries, P entry.2) : (ofList entries).All P :=
  fun entry hent => h entry (mem_of_mem_ofList hent)

end All

end Assoc

/-- A finite map, listed in the order of its keys. -/
structure OrderedMap (κ β : Type) [LinearOrder κ] where
  entries : Assoc κ β
  sorted : entries.Sorted

namespace OrderedMap

variable {κ β : Type} [LinearOrder κ]

def empty : OrderedMap κ β := ⟨[], List.Pairwise.nil⟩

variable (m : OrderedMap κ β)

def get (k : κ) : Option β := m.entries.get k

def insert (k : κ) (v : β) : OrderedMap κ β := ⟨m.entries.insert k v, m.sorted.insert k v⟩

def ofList (entries : List (κ × β)) : OrderedMap κ β := ⟨Assoc.ofList entries, Assoc.sorted_ofList entries⟩

def erase (k : κ) : OrderedMap κ β := ⟨m.entries.erase k, m.sorted.erase k⟩

def contains (k : κ) : Bool := (m.get k).isSome

/-- Keeps the entries that pass. -/
def retain (p : κ × β → Bool) : OrderedMap κ β := ⟨m.entries.filter p, m.sorted.filter p⟩

def values : List β := m.entries.map Prod.snd

def size : ℕ := m.entries.length

theorem eq_empty {m : OrderedMap κ β} (h : m.entries = []) : m = .empty := by
  obtain ⟨entries, sorted⟩ := m
  subst h
  rfl

theorem get_of_mem {m : OrderedMap κ β} {k : κ} {v : β} (h : (k, v) ∈ m.entries) : m.get k = some v :=
  m.sorted.get_of_mem h

theorem mem_entries {m : OrderedMap κ β} {k : κ} {v : β} : (k, v) ∈ m.entries ↔ m.get k = some v :=
  ⟨get_of_mem, Assoc.mem_of_get⟩

section

variable (m : OrderedMap κ β)

theorem nodup_keys : (m.entries.map Prod.fst).Nodup := pairwise_map.2 (m.sorted.imp fun h => h.ne)

section

variable (k : κ)

@[simp] theorem get_empty : (empty : OrderedMap κ β).get k = none := rfl

/-- The map with one entry. -/
def single (k : κ) (v : β) : OrderedMap κ β := empty.insert k v

variable (v : β)

@[simp] theorem size_empty : (empty : OrderedMap κ β).size = 0 := rfl

@[simp] theorem values_single : (single k v).values = [v] := rfl

theorem get_single (k a : κ) (v : β) : (single k v).get a = if k = a then some v else none := Assoc.get_insert [] k a v

@[simp] theorem insert_single (v w : β) : (single k v).insert k w = single k w := by
  simp [single, insert, empty, Assoc.insert]

@[simp] theorem erase_single : (single k v).erase k = empty := by
  simp [single, insert, empty, erase, Assoc.insert, Assoc.erase]

theorem get_insert (k a : κ) (v : β) : (m.insert k v).get a = if k = a then some v else m.get a :=
  Assoc.get_insert m.entries k a v

@[simp] theorem get_insert_self : (m.insert k v).get k = some v := Assoc.get_insert_self m.entries k v

theorem forall_insert {p : κ → β → Prop} {m : OrderedMap κ β} {k : κ} {v : β} (hself : p k v)
    (hoths : ∀ a b, k ≠ a → m.get a = some b → p a b) : ∀ a b, (m.insert k v).get a = some b → p a b := by
  intro a b hg
  rw [get_insert] at hg
  split_ifs at hg with ha
  · cases hg
    exact ha ▸ hself
  · exact hoths a b ha hg

/-- A map rebuilt entry by entry. -/
theorem get_foldl_insert {γ : Type} {f : κ → β → γ} {entries : List (κ × β)}
    (hkeys : (entries.map Prod.fst).Nodup) (k : κ) (w : γ) :
    (entries.foldl (fun m entry => m.insert entry.1 (f entry.1 entry.2)) (empty : OrderedMap κ γ)).get k = some w ↔
      ∃ v, (k, v) ∈ entries ∧ f k v = w := by
  induction entries using List.reverseRecOn with
  | nil => exact ⟨fun h => absurd h nofun, fun ⟨_, h, _⟩ => absurd h not_mem_nil⟩
  | append_singleton entries last ih =>
    rw [map_append, nodup_append] at hkeys
    obtain ⟨hkeys, -, hlast⟩ := hkeys
    have hoth : ∀ v, (k, v) ∈ entries → k ≠ last.1 := fun v hv => hlast k (mem_map_of_mem hv) last.1 mem_cons_self
    rw [foldl_append, foldl_cons, foldl_nil, get_insert]
    split_ifs with hk
    · subst hk
      constructor
      · intro h
        exact ⟨last.2, mem_append_right _ mem_cons_self, some.inj h⟩
      · rintro ⟨v, hv, rfl⟩
        obtain hv | hv := mem_append.1 hv
        · exact absurd rfl (hoth v hv)
        · rw [← mem_singleton.1 hv]
    · rw [ih hkeys]
      refine exists_congr fun v => and_congr_left fun _ => ⟨mem_append_left _, fun hv => ?_⟩
      obtain hv | hv := mem_append.1 hv
      · exact hv
      · obtain rfl := mem_singleton.1 hv
        exact absurd rfl hk

theorem get_erase (k a : κ) : (m.erase k).get a = if k = a then none else m.get a := Assoc.get_erase m.entries k a

@[simp] theorem get_erase_self : (m.erase k).get k = none := by
  rw [get_erase, if_pos rfl]

theorem get_retain {m : OrderedMap κ β} {p} {k : κ} {v : β} :
    (m.retain p).get k = some v ↔ m.get k = some v ∧ p (k, v) = true := by
  constructor
  · intro h
    obtain ⟨hm, hp⟩ := mem_filter.1 (Assoc.mem_of_get h)
    exact ⟨get_of_mem hm, hp⟩
  · rintro ⟨h, hp⟩
    exact get_of_mem (mem_filter.2 ⟨Assoc.mem_of_get h, hp⟩)

theorem contains_iff {m : OrderedMap κ β} {k : κ} : m.contains k = true ↔ ∃ v, m.get k = some v := isSome_iff_exists

theorem contains_insert (k a : κ) (v : β) : (m.insert k v).contains a = (decide (k = a) || m.contains a) := by
  rw [contains, get_insert]
  split_ifs with h
  · simp [h]
  · simp [h, contains]

/-- An entry that is there goes away alone. -/
theorem size_erase {m : OrderedMap κ β} {k : κ} (h : m.contains k) : (m.erase k).size + 1 = m.size := by
  obtain ⟨v, hv⟩ := contains_iff.1 h
  exact (Assoc.perm_of_get_eq_some m.sorted hv).length_eq.symm

theorem size_retain_le (p : κ × β → Bool) : (m.retain p).size ≤ m.size := length_filter_le _ _

theorem size_insert : (m.insert k v).size = if m.contains k then m.size else m.size + 1 := by
  have hlen : (m.insert k v).size = (m.erase k).size + 1 := (m.sorted.perm_insert k v).length_eq
  rw [hlen]
  split_ifs with hc
  · exact size_erase hc
  · have hn : m.get k = none := not_isSome_iff_eq_none.1 hc
    exact congrArg (·.length + 1) (m.sorted.erase_eq_self hn)

/-- Every entry of the smaller map is one of the larger. -/
def Within (smaller larger : OrderedMap κ β) : Prop := ∀ k v, smaller.get k = some v → larger.get k = some v

theorem Within.refl : m.Within m := fun _ _ h => h

theorem Within.trans {l m n : OrderedMap κ β} (h : l.Within m) (h' : m.Within n) : l.Within n :=
  fun k v hv => h' k v (h k v hv)

theorem within_retain (p : κ × β → Bool) : (m.retain p).Within m := fun _ _ h => (get_retain.1 h).1

theorem within_erase : (m.erase k).Within m := by
  intro a v h
  rw [get_erase] at h
  split_ifs at h
  exact h

end

end

/-! ### What the entries of a map contribute to a list -/

variable {γ : Type} {f : κ × β → Option γ} {m : OrderedMap κ β} {k : κ} {v : β} {c : γ}

def collect (m : OrderedMap κ β) (f : κ × β → Option γ) : List γ := m.entries.filterMap f

theorem mem_collect : c ∈ m.collect f ↔ ∃ k v, m.get k = some v ∧ f (k, v) = some c := by
  rw [collect, mem_filterMap]
  constructor
  · rintro ⟨⟨k, v⟩, hm, hf⟩
    exact ⟨k, v, get_of_mem hm, hf⟩
  · rintro ⟨k, v, hg, hf⟩
    exact ⟨(k, v), Assoc.mem_of_get hg, hf⟩

theorem mem_collect_key {p} :
    k ∈ m.collect (fun entry => if p entry.2 then some entry.1 else none) ↔ (m.get k).any p = true := by
  rw [mem_collect, Option.any_eq_true]
  constructor
  · rintro ⟨key, v, hg, hblk⟩
    obtain ⟨ho, heq⟩ := Option.ite_none_right_eq_some.1 hblk
    cases heq
    exact ⟨v, hg, ho⟩
  · rintro ⟨v, hg, ho⟩
    exact ⟨k, v, hg, if_pos ho⟩

theorem collect_ite (m : OrderedMap κ β) (p : κ × β → Bool) (g : κ × β → γ) :
    m.collect (fun entry => if p entry then some (g entry) else none) = (m.entries.filter p).map g := by
  unfold collect
  induction m.entries with
  | nil => rfl
  | cons =>
    rw [filterMap_cons, filter_cons]
    split <;> simp_all

theorem perm_collect_insert (m : OrderedMap κ β) (k : κ) (v : β) (f : κ × β → Option γ) :
    ((m.insert k v).collect f).Perm ((f (k, v)).toList ++ (m.entries.erase k).filterMap f) := by
  have hperm := (m.sorted.perm_insert k v).filterMap f
  rw [filterMap_cons] at hperm
  cases hf : f (k, v) with
  | none => rwa [hf] at hperm
  | some => rwa [hf] at hperm

theorem perm_collect (m : OrderedMap κ β) (k : κ) (f : κ × β → Option γ) :
    (m.collect f).Perm (((m.get k).bind fun v => f (k, v)).toList ++ (m.entries.erase k).filterMap f) := by
  cases hg : m.get k with
  | none =>
    rw [m.sorted.erase_eq_self hg]
    exact List.Perm.refl _
  | some v =>
    have hperm := (Assoc.perm_of_get_eq_some m.sorted hg).filterMap f
    rw [filterMap_cons] at hperm
    rw [bind_some]
    cases hf : f (k, v) with
    | none => rwa [hf] at hperm
    | some => rwa [hf] at hperm

theorem collect_insert_same (h : ((m.get k).bind fun v => f (k, v)) = f (k, v)) :
    ((m.insert k v).collect f).Perm (m.collect f) :=
  (perm_collect_insert m k v f).trans (h ▸ (perm_collect m k f).symm)

theorem collect_insert_more (hold : ((m.get k).bind fun v => f (k, v)) = none) (hw : f (k, v) = some c) :
    ((m.insert k v).collect f).Perm (c :: m.collect f) := by
  have haft := perm_collect_insert m k v f
  have hbef := perm_collect m k f
  rw [hw] at haft
  rw [hold] at hbef
  exact haft.trans (hbef.symm.cons c)

theorem collect_insert_less (hold : ((m.get k).bind fun v => f (k, v)) = some c) (hw : f (k, v) = none) :
    (m.collect f).Perm (c :: (m.insert k v).collect f) := by
  have haft := perm_collect_insert m k v f
  have hbef := perm_collect m k f
  rw [hw] at haft
  rw [hold] at hbef
  exact hbef.trans (haft.symm.cons c)

end OrderedMap

end Pooler.Lib
