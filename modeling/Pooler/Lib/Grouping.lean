import Mathlib

/-! A list with one group for each key, built element by element: an element joins the group of its
key, or starts one. -/

namespace Pooler.Lib

open List

variable {α γ κ : Type}

/-- Rewrites the first group that passes. -/
def modifyFirst (p : γ → Bool) (f : γ → γ) : List γ → List γ
  | [] => []
  | g :: groups => if p g then f g :: groups else g :: modifyFirst p f groups

/-- Rewrites the first group that passes, or adds a new one at the end. -/
def joinOrStart (p : γ → Bool) (f : γ → γ) (new : γ) (groups : List γ) : List γ :=
  if groups.any p then modifyFirst p f groups else groups ++ [new]

variable {groups : List γ} {f : γ → γ}

theorem joinOrStart_congr {p q} {new : γ}
    (h : ∀ g ∈ groups, p g = q g) : joinOrStart p f new groups = joinOrStart q f new groups := by
  have hboth : groups.any p = groups.any q ∧ modifyFirst p f groups = modifyFirst q f groups := by
    induction groups with
    | nil => exact ⟨rfl, rfl⟩
    | cons g groups ih =>
      obtain ⟨hany, hmod⟩ := ih fun g' hg' => h g' (mem_cons_of_mem _ hg')
      rw [any_cons, any_cons, modifyFirst, modifyFirst, h g mem_cons_self, hany, hmod]
      exact ⟨rfl, rfl⟩
  rw [joinOrStart, joinOrStart, hboth.1, hboth.2]

/-- How elements form groups. -/
structure GroupRule (α γ κ : Type) where
  key : α → κ
  label : γ → κ
  start : α → γ
  join : γ → α → γ
  label_start : ∀ a, label (start a) = key a
  label_join : ∀ g a, label (join g a) = label g

namespace GroupRule

/-- The group that elements form together. -/
def fold (rule : GroupRule α γ κ) : List α → Option γ
  | [] => none
  | a :: as => some (as.foldl rule.join (rule.start a))

variable {as : List α}

theorem fold_append {rule : GroupRule α γ κ} {g : γ} (h : rule.fold as = some g) (a : α) :
    rule.fold (as ++ [a]) = some (rule.join g a) := by
  cases as with
  | nil => cases h
  | cons =>
    cases h
    rw [cons_append, GroupRule.fold, foldl_append]
    rfl

theorem map_label_modifyFirst {rule : GroupRule α γ κ} {p}
    (hf : ∀ g, rule.label (f g) = rule.label g) (groups : List γ) :
    (modifyFirst p f groups).map rule.label = groups.map rule.label := by
  induction groups with
  | nil => rfl
  | cons g groups ih =>
    rw [modifyFirst]
    split_ifs
    · rw [map_cons, map_cons, hf]
    · rw [map_cons, map_cons, ih]

variable [DecidableEq κ] (rule : GroupRule α γ κ)

def step (groups : List γ) (a : α) : List γ :=
  joinOrStart (fun g => rule.label g = rule.key a) (fun g => rule.join g a) (rule.start a) groups

/-- The elements of a key. -/
def members (as : List α) (k : κ) : List α := as.filter fun a => rule.key a = k

/-- The groups are those of the elements, one for each key. -/
structure Groups (as : List α) (groups : List γ) : Prop where
  distinct : (groups.map rule.label).Nodup
  fold : ∀ g ∈ groups, rule.fold (rule.members as (rule.label g)) = some g
  covers : ∀ a ∈ as, ∃ g ∈ groups, rule.label g = rule.key a

variable {rule}

theorem members_append (as : List α) (a : α) (k : κ) :
    rule.members (as ++ [a]) k = if rule.key a = k then rule.members as k ++ [a] else rule.members as k := by
  rw [members, filter_append, filter_singleton]
  split_ifs with h
  · rw [decide_eq_true h]
    rfl
  · rw [decide_eq_false h, cond_false, append_nil]
    rfl

/-- With distinct labels the first group that passes is the only one. -/
theorem mem_modifyFirst {k : κ} {g : γ} : ∀ {groups}, (groups.map rule.label).Nodup →
    g ∈ modifyFirst (fun g => rule.label g = k) f groups →
    (g ∈ groups ∧ rule.label g ≠ k) ∨ ∃ old ∈ groups, rule.label old = k ∧ g = f old := by
  intro groups
  induction groups with
  | nil => intro _ hg; cases hg
  | cons first groups ih =>
    intro hnd hg
    obtain ⟨hfst, hnd⟩ := nodup_cons.1 hnd
    rw [modifyFirst] at hg
    split_ifs at hg with hk
    · have hk : rule.label first = k := by simpa using hk
      obtain rfl | hg := mem_cons.1 hg
      · exact .inr ⟨first, mem_cons_self, hk, rfl⟩
      · refine .inl ⟨mem_cons_of_mem _ hg, fun hlab => hfst ?_⟩
        exact mem_map.2 ⟨g, hg, hlab.trans hk.symm⟩
    · have hk : rule.label first ≠ k := by simpa using hk
      obtain rfl | hg := mem_cons.1 hg
      · exact .inl ⟨mem_cons_self, hk⟩
      · obtain ⟨hg, hlab⟩ | ⟨old, hold, hlab, rfl⟩ := ih hnd hg
        · exact .inl ⟨mem_cons_of_mem _ hg, hlab⟩
        · exact .inr ⟨old, mem_cons_of_mem _ hold, hlab, rfl⟩

theorem Groups.nil : rule.Groups [] [] := ⟨nodup_nil, nofun, nofun⟩

theorem Groups.join (h : rule.Groups as groups) {a : α} (hany : ∃ g ∈ groups, rule.label g = rule.key a) :
    rule.Groups (as ++ [a]) (modifyFirst (fun g => rule.label g = rule.key a) (fun g => rule.join g a) groups) := by
  have hlabels : (modifyFirst (fun g => rule.label g = rule.key a) (fun g => rule.join g a) groups).map
      rule.label = groups.map rule.label := map_label_modifyFirst (fun g => rule.label_join g a) groups
  refine ⟨hlabels ▸ h.distinct, fun g hg => ?_, fun b hb => ?_⟩
  · obtain ⟨hg, hlab⟩ | ⟨old, hold, hlab, rfl⟩ := mem_modifyFirst h.distinct hg
    · rw [members_append, if_neg (Ne.symm hlab), h.fold g hg]
    · rw [rule.label_join, members_append, if_pos hlab.symm]
      exact fold_append (h.fold old hold) a
  · have hold : ∃ g ∈ groups, rule.label g = rule.key b := by
      obtain hb | hb := mem_append.1 hb
      · exact h.covers b hb
      · obtain rfl := mem_singleton.1 hb
        exact hany
    obtain ⟨g, hg, hlab⟩ := hold
    have : rule.key b ∈ groups.map rule.label := mem_map.2 ⟨g, hg, hlab⟩
    rw [← hlabels] at this
    exact mem_map.1 this

theorem Groups.start (h : rule.Groups as groups) {a : α}
    (hn : ∀ g ∈ groups, rule.label g ≠ rule.key a) : rule.Groups (as ++ [a]) (groups ++ [rule.start a]) := by
  -- no element has had the key before
  have hmems : rule.members as (rule.key a) = [] := by
    refine filter_eq_nil_iff.2 fun b hb => ?_
    obtain ⟨g, hg, hlab⟩ := h.covers b hb
    simpa using hlab ▸ hn g hg
  refine ⟨?_, fun g hg => ?_, fun b hb => ?_⟩
  · rw [map_append, nodup_append]
    refine ⟨h.distinct, nodup_singleton _, fun k hk k' hk' hkk' => ?_⟩
    obtain ⟨g, hg, rfl⟩ := mem_map.1 hk
    obtain rfl : k' = rule.key a := by simpa [rule.label_start] using hk'
    exact hn g hg hkk'
  · obtain hg | hg := mem_append.1 hg
    · rw [members_append, if_neg (Ne.symm (hn g hg)), h.fold g hg]
    · obtain rfl := mem_singleton.1 hg
      rw [rule.label_start, members_append, if_pos rfl, hmems]
      rfl
  · obtain hb | hb := mem_append.1 hb
    · obtain ⟨g, hg, hlab⟩ := h.covers b hb
      exact ⟨g, mem_append_left _ hg, hlab⟩
    · obtain rfl := mem_singleton.1 hb
      exact ⟨rule.start b, mem_append_right _ mem_cons_self, rule.label_start b⟩

theorem Groups.step (h : rule.Groups as groups) (a : α) : rule.Groups (as ++ [a]) (rule.step groups a) := by
  rw [GroupRule.step, joinOrStart]
  split_ifs with hany
  · obtain ⟨g, hg, hlab⟩ := any_eq_true.1 hany
    exact h.join ⟨g, hg, by simpa using hlab⟩
  · refine h.start fun g hg hlab => hany ?_
    exact any_eq_true.2 ⟨g, hg, by simpa using hlab⟩

end GroupRule

end Pooler.Lib
