import Mathlib

/-! Counters fenced by generations. A slot counts the tickets it has handed out; a slot that is
closed and opened again gets a generation of its own, so that the tickets of the old one leave
the new count alone. -/

namespace Pooler.Lib

open List Function

structure FencedSlot where
  (generation held : ℕ)
  deriving DecidableEq

structure FencedTicket (κ : Type*) where
  slot : κ
  generation : ℕ
  released : Bool

/-- Slots by key, a bound above every generation used for a key, every ticket handed out so far,
and the released ones, latest first. -/
@[ext]
structure Fenced (κ : Type*) where
  slots : κ → Option FencedSlot
  bound : κ → ℕ
  tickets : List (FencedTicket κ)
  log : List ℕ

namespace Fenced

variable {κ : Type*} [DecidableEq κ] {p q : Fenced κ}

/-- The unreleased tickets of one generation of a slot. -/
def live (p : Fenced κ) (k : κ) (generation : ℕ) : ℕ :=
  p.tickets.countP (fun t => t.slot = k && t.generation = generation && !t.released)

/-- The slot of a ticket after its release: another generation is left alone. -/
def giveBack (t : FencedTicket κ) (slots : κ → Option FencedSlot) : κ → Option FencedSlot :=
  Function.update slots t.slot ((slots t.slot).map
    (fun s => if s.generation = t.generation then { s with held := s.held - 1 } else s))

/-- One change of the system. -/
inductive Step : Fenced κ → Fenced κ → Prop
  | opened (p : Fenced κ) (k : κ) (generation : ℕ) (bound : κ → ℕ) (grows : ∀ k, p.bound k ≤ bound k)
      (fresh : p.bound k ≤ generation) (used : generation < bound k) :
      Step p { p with slots := Function.update p.slots k (some ⟨generation, 0⟩), bound }
  | closed (p : Fenced κ) (gone : κ → Bool) :
      Step p { p with slots := fun k => if gone k then none else p.slots k }
  | granted (p : Fenced κ) (k : κ) (s : FencedSlot) (present : p.slots k = some s) :
      Step p { p with slots := Function.update p.slots k (some { s with held := s.held + 1 })
                      tickets := p.tickets ++ [⟨k, s.generation, false⟩] }
  | released (p : Fenced κ) (i : ℕ) (t : FencedTicket κ) (issued : p.tickets[i]? = some t)
      (unreleased : t.released = false) :
      Step p ⟨giveBack t p.slots, p.bound, p.tickets.set i { t with released := true }, i :: p.log⟩

abbrev Steps : Fenced κ → Fenced κ → Prop := Relation.ReflTransGen Step

/-- Every slot counts its own unreleased tickets, the log has each released ticket once, and the
bound is above every generation in use. -/
structure Exact (p : Fenced κ) : Prop where
  held : ∀ k s, p.slots k = some s → s.held = p.live k s.generation
  slot_lt : ∀ k s, p.slots k = some s → s.generation < p.bound k
  ticket_lt : ∀ t ∈ p.tickets, t.generation < p.bound t.slot
  nodup : p.log.Nodup
  logged : ∀ i ∈ p.log, ∃ t, p.tickets[i]? = some t ∧ t.released = true

/-- The ticket was issued for slot `k`, which is now closed or of another generation. -/
def Stale (i : ℕ) (k : κ) (p : Fenced κ) : Prop :=
  ∃ t, p.tickets[i]? = some t ∧ t.slot = k ∧ ∀ s, p.slots k = some s → s.generation ≠ t.generation

variable {t : FencedTicket κ} {i : ℕ}

theorem live_set (hi : p.tickets[i]? = some t)
    (hr : t.released = false) (slots : κ → Option FencedSlot) (bound : κ → ℕ) (log : List ℕ) (k : κ) (g : ℕ) :
    live ⟨slots, bound, p.tickets.set i { t with released := true }, log⟩ k g =
      p.live k g - if t.slot = k ∧ t.generation = g then 1 else 0 := by
  obtain ⟨hlt, rfl⟩ := List.getElem?_eq_some_iff.1 hi
  unfold live
  rw [countP_set hlt]
  simp [hr]

theorem live_append (slots : κ → Option FencedSlot) (bound : κ → ℕ) (log : List ℕ) (k k' : κ) (g g' : ℕ) :
    live ⟨slots, bound, p.tickets ++ [⟨k', g', false⟩], log⟩ k g = p.live k g + if k' = k ∧ g' = g then 1 else 0 := by
  unfold live
  rw [countP_append]
  simp [countP_cons]

variable {k : κ} {slots : κ → Option FencedSlot}

/-- A released slot was there before, under the same generation. -/
theorem giveBack_eq_some {s} (h : giveBack t slots k = some s) :
    ∃ s', slots k = some s' ∧ s.generation = s'.generation ∧
      s.held = s'.held - if t.slot = k ∧ t.generation = s'.generation then 1 else 0 := by
  simp only [giveBack, update_apply] at h
  split_ifs at h with hk
  · subst hk
    obtain ⟨s', hs', rfl⟩ := Option.map_eq_some_iff.1 h
    refine ⟨s', hs', ?_⟩
    by_cases hg : s'.generation = t.generation
    · simp [hg]
    · simp [hg, Ne.symm hg]
  · exact ⟨s, h, rfl, by simp [Ne.symm hk]⟩

theorem forall_update {c} {r : κ → FencedSlot → Prop} (hself : r k c)
    (hoths : ∀ k' s, k' ≠ k → slots k' = some s → r k' s) :
    ∀ k' s, Function.update slots k (some c) k' = some s → r k' s := by
  intro k' s hs
  rw [update_apply] at hs
  split_ifs at hs with hk
  · cases hs
    exact hk ▸ hself
  · exact hoths k' s hk hs

theorem Exact.opened (h : Exact p) {generation : ℕ} {bound}
    (grows : ∀ k, p.bound k ≤ bound k) (fresh : p.bound k ≤ generation) (used : generation < bound k) :
    Exact { p with slots := Function.update p.slots k (some ⟨generation, 0⟩), bound } := by
  refine ⟨forall_update ?_ fun k' s _ => h.held k' s, forall_update used fun k' s _ hs => ?_,
    fun t ht => lt_of_lt_of_le (h.ticket_lt t ht) (grows _), h.nodup, h.logged⟩
  · -- no ticket of this generation was ever issued
    symm
    show p.live k generation = 0
    rw [live, countP_eq_zero]
    intro t ht hl
    simp only [Bool.and_eq_true, decide_eq_true_eq] at hl
    obtain ⟨⟨rfl, rfl⟩, -⟩ := hl
    exact absurd (h.ticket_lt t ht) (not_lt.2 fresh)
  · exact lt_of_lt_of_le (h.slot_lt k' s hs) (grows _)

theorem Exact.closed (h : Exact p) (gone : κ → Bool) :
    Exact { p with slots := fun k => if gone k then none else p.slots k } := by
  refine ⟨?_, ?_, h.ticket_lt, h.nodup, h.logged⟩
  all_goals
    intro k s hs
    simp only at hs
    split_ifs at hs
  · exact h.held k s hs
  · exact h.slot_lt k s hs

theorem Exact.granted (h : Exact p) {s} (present : p.slots k = some s) :
    Exact { p with slots := Function.update p.slots k (some { s with held := s.held + 1 })
                   tickets := p.tickets ++ [⟨k, s.generation, false⟩] } := by
  refine ⟨forall_update ?_ fun k' s' hk hs => ?_, forall_update (h.slot_lt k s present) fun k' s' _ => h.slot_lt k' s',
    ?_, h.nodup, ?_⟩
  · rw [live_append, if_pos ⟨rfl, rfl⟩, h.held _ _ present]
  · rw [live_append, if_neg (fun hkk => hk hkk.1.symm), h.held k' s' hs]
    rfl
  · intro t ht
    rcases mem_append.1 ht with ht | ht
    · exact h.ticket_lt t ht
    · cases mem_singleton.1 ht
      exact h.slot_lt k s present
  · intro i hi
    obtain ⟨t, ht, hr⟩ := h.logged i hi
    exact ⟨t, List.getElem?_append_left (List.getElem?_eq_some_iff.1 ht).1 ▸ ht, hr⟩

theorem Exact.released (h : Exact p) (issued : p.tickets[i]? = some t) (unreleased : t.released = false) :
    Exact ⟨giveBack t p.slots, p.bound, p.tickets.set i { t with released := true }, i :: p.log⟩ := by
  have hlt : i < p.tickets.length := (List.getElem?_eq_some_iff.1 issued).1
  refine ⟨?_, ?_, ?_, ?_, ?_⟩
  · intro k s hs
    obtain ⟨s', hs', hg, hheld⟩ := giveBack_eq_some hs
    rw [live_set issued unreleased, hg, hheld, h.held k s' hs']
  · intro k s hs
    obtain ⟨s', hs', hg, -⟩ := giveBack_eq_some hs
    rw [hg]
    exact h.slot_lt k s' hs'
  · intro t' ht'
    rcases mem_or_eq_of_mem_set ht' with ht' | rfl
    · exact h.ticket_lt t' ht'
    · exact h.ticket_lt t (mem_of_getElem? issued)
  · refine nodup_cons.2 ⟨?_, h.nodup⟩
    intro hi
    obtain ⟨t', ht', hr⟩ := h.logged i hi
    rw [issued] at ht'
    cases ht'
    rw [unreleased] at hr
    cases hr
  · intro j hj
    show ∃ t', (p.tickets.set i { t with released := true })[j]? = some t' ∧ t'.released = true
    rw [getElem?_set]
    by_cases hij : i = j
    · rw [if_pos hij, if_pos hlt]
      exact ⟨_, rfl, rfl⟩
    · rw [if_neg hij]
      exact h.logged j ((mem_cons.1 hj).resolve_left (Ne.symm hij))

theorem Step.exact (hstep : Step p q) (h : Exact p) : Exact q := by
  cases hstep with
  | opened k generation bound grows fresh used => exact h.opened grows fresh used
  | closed gone => exact h.closed gone
  | granted k s present => exact h.granted present
  | released i t issued unreleased => exact h.released issued unreleased

theorem Steps.exact (hsteps : Steps p q) (h : Exact p) : Exact q := by
  induction hsteps with
  | refl => exact h
  | tail _ hstep ih => exact hstep.exact ih

/-- A stale ticket stays stale: its generation is never used again for its slot. -/
theorem Step.stale (hstep : Step p q) (hex : Exact p) (h : Stale i k p) : Stale i k q := by
  obtain ⟨t, hi, hk, hne⟩ := h
  cases hstep with
  | opened k' generation bound grows fresh =>
    refine ⟨t, hi, hk, fun s hs => ?_⟩
    refine @forall_update _ _ _ _ _ (fun k' s => k' = k → s.generation ≠ t.generation) ?_ ?_ k s hs rfl
    · rintro rfl
      exact (lt_of_lt_of_le (hk ▸ hex.ticket_lt t (mem_of_getElem? hi)) fresh).ne'
    · rintro _ s' - hs' rfl
      exact hne s' hs'
  | closed =>
    refine ⟨t, hi, hk, ?_⟩
    intro s hs
    simp only at hs
    split_ifs at hs
    exact hne s hs
  | granted k' s present =>
    refine ⟨t, List.getElem?_append_left (List.getElem?_eq_some_iff.1 hi).1 ▸ hi, hk, ?_⟩
    intro s' hs
    simp only [update_apply] at hs
    split_ifs at hs with hkk
    · cases hs
      subst hkk
      exact hne s present
    · exact hne s' hs
  | released j t' issued =>
    have hslots : ∀ s, giveBack t' p.slots k = some s → s.generation ≠ t.generation := by
      intro s hs
      obtain ⟨s', hs', hg, -⟩ := giveBack_eq_some hs
      rw [hg]
      exact hne s' hs'
    by_cases hij : j = i
    · subst hij
      rw [hi] at issued
      cases issued
      refine ⟨{ t with released := true }, ?_, hk, hslots⟩
      simp [(List.getElem?_eq_some_iff.1 hi).1]
    · refine ⟨t, ?_, hk, hslots⟩
      show (p.tickets.set j { t' with released := true })[i]? = some t
      rw [List.getElem?_set, if_neg hij, hi]

theorem Steps.stale (hsteps : Steps p q) (hex : Exact p) (h : Stale i k p) : Stale i k q := by
  induction hsteps with
  | refl => exact h
  | tail hpre hstep ih => exact hstep.stale (Steps.exact hpre hex) ih

end Fenced

end Pooler.Lib
