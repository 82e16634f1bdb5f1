import Pooler.Spec.Http.Cache

/-! The store of a response cache: the byte counter and the order of use follow the stored
responses through lookups, replacements and evictions, and evictions take the front of the order. -/

namespace Pooler

open Lib AList Nat

namespace CacheState

variable {κ : Type} [DecidableEq κ] {policy : CachePolicy} {state : CacheState κ}

def bodyLens (_ : κ) (entry : CacheEntry) : ℕ := entry.response.bodyLen

/-- The counter and the order agree with the stored responses. -/
structure Consistent (state : CacheState κ) : Prop where
  bytes_eq : state.bytes = total bodyLens state.entries
  order_perm : state.order.Perm state.entries.keys

/-- Consistent, and within the bounds of the policy. -/
structure Stored (policy : CachePolicy) (state : CacheState κ) : Prop extends Consistent state where
  bytes_le : state.bytes ≤ policy.maxBytes
  size_le : state.entries.keys.length ≤ policy.maxEntries

variable {key : κ} {entry : CacheEntry}

namespace Consistent

omit [DecidableEq κ] in
theorem order_nodup (h : state.Consistent) : state.order.Nodup := h.order_perm.nodup_iff.2 state.entries.keys_nodup

omit [DecidableEq κ] in
theorem mem_order (h : state.Consistent) : key ∈ state.order ↔ key ∈ state.entries := by
  rw [h.order_perm.mem_iff, mem_keys]

theorem bytes_sub (h : state.Consistent) (key : κ) :
    state.bytes - (state.entries.lookup key).elim 0 (·.response.bodyLen) =
      total bodyLens (state.entries.erase key) := by
  rw [h.bytes_eq]
  cases hlook : state.entries.lookup key with
  | none => rw [erase_eq_self hlook]; rfl
  | some =>
    have := total_erase (w := bodyLens) hlook
    rw [Option.elim_some, ← this]
    exact Nat.add_sub_cancel _ _

theorem perm_erase (h : state.Consistent) (key : κ) :
    (state.order.filter (· ≠ key)).Perm (state.entries.keys.erase key) := by
  have hfilt : state.order.filter (· ≠ key) = state.order.erase key := by
    rw [h.order_nodup.erase_eq_filter key]
    exact List.filter_congr fun a _ => by by_cases ha : a = key <;> simp [ha]
  rw [hfilt]
  exact h.order_perm.erase key

theorem removeEntry (h : state.Consistent) (key : κ) : (state.removeEntry key).Consistent := by
  constructor
  · exact h.bytes_sub key
  · rw [CacheState.removeEntry, keys_erase]
    exact h.perm_erase key

theorem insertEntry (h : state.Consistent)
    (hsum : total bodyLens (state.entries.erase key) + entry.response.bodyLen ≤ usizeMax) :
    (state.insertEntry key entry).Consistent := by
  constructor
  · change satAdd usizeMax (state.bytes - _) _ = _
    rw [h.bytes_sub, satAdd_eq_add hsum, CacheState.insertEntry, total_insert, add_comm]
    rfl
  · change (touch key state.order).Perm (state.entries.insert key entry).keys
    rw [keys_insert, touch]
    exact (List.perm_append_singleton key _).trans ((h.perm_erase key).cons key)

end Consistent

theorem total_erase_le (state : CacheState κ) (key : κ) :
    total bodyLens (state.entries.erase key) ≤ total bodyLens state.entries := by
  cases hlook : state.entries.lookup key with
  | none => rw [erase_eq_self hlook]
  | some =>
    have := total_erase (w := bodyLens) hlook
    omega

theorem Stored.removeEntry (h : Stored policy state) (key : κ) : Stored policy (state.removeEntry key) where
  toConsistent := h.toConsistent.removeEntry key
  bytes_le := le_trans (sub_le _ _) h.bytes_le
  size_le := by
    have hkeys := List.length_erase_le (a := key) (l := state.entries.keys)
    rw [← keys_erase] at hkeys
    exact hkeys.trans h.size_le

theorem Stored.touch (h : Stored policy state) (hkey : key ∈ state.entries) :
    Stored policy { state with order := Lib.touch key state.order } where
  bytes_eq := h.bytes_eq
  order_perm := by
    refine List.Perm.trans ?_ h.order_perm
    rw [List.perm_ext_iff_of_nodup (nodup_touch h.order_nodup) h.order_nodup]
    intro a
    rw [mem_touch, or_iff_right_of_imp]
    rintro rfl
    exact h.mem_order.2 hkey
  bytes_le := h.bytes_le
  size_le := h.size_le

/-- A lookup finds a response that has not expired. -/
def hit (policy : CachePolicy) (key : κ) (now : ℕ) (state : CacheState κ) : Bool :=
  policy.usable && (state.entries.lookup key).elim false (fun entry => now < entry.expiresAt)

theorem get_cases (policy : CachePolicy) (key : κ) (now : ℕ) (state : CacheState κ) :
    (state.hit policy key now = false ∧
      ((state.get policy key now).1 = state ∨ (state.get policy key now).1 = state.removeEntry key)) ∨
    (state.hit policy key now = true ∧ key ∈ state.entries ∧
      (state.get policy key now).1 = { state with order := Lib.touch key state.order }) := by
  unfold get hit
  cases husab : policy.usable with
  | false => simp
  | true =>
    cases hlook : state.entries.lookup key with
    | none => simp
    | some entry =>
      have hm : key ∈ state.entries := lookup_isSome.1 (by rw [hlook]; rfl)
      by_cases hexp : entry.expiresAt ≤ now
      · simp [hexp]
      · simp [hexp, hm, not_le.1 hexp]

theorem get_flights (policy : CachePolicy) (key : κ) (now : ℕ) (state : CacheState κ) :
    (state.get policy key now).1.flights = state.flights ∧
      (state.get policy key now).1.flightBytes = state.flightBytes := by
  rcases get_cases policy key now state with ⟨-, heq | heq⟩ | ⟨-, -, heq⟩
  · rw [heq]; exact ⟨rfl, rfl⟩
  · rw [heq]; exact ⟨rfl, rfl⟩
  · rw [heq]; exact ⟨rfl, rfl⟩

theorem Stored.get (h : Stored policy state) (key : κ) (now : ℕ) : Stored policy (state.get policy key now).1 := by
  rcases get_cases policy key now state with ⟨-, heq | heq⟩ | ⟨-, hm, heq⟩
  · rw [heq]; exact h
  · rw [heq]; exact h.removeEntry key
  · rw [heq]; exact h.touch hm

theorem removeEntry_oldest {oldest : κ} {rest} (h : state.order = oldest :: rest) :
    { state with order := rest }.removeEntry oldest = state.removeEntry oldest := by
  simp [CacheState.removeEntry, h]

/-- What the loop has done when it ends. -/
structure Evicted (policy : CachePolicy) (before after : CacheState κ) : Prop where
  consistent : after.Consistent
  fits : after.overfull policy = false
  suffix : after.order <:+ before.order
  lookup : ∀ key ∈ after.order, after.entries.lookup key = before.entries.lookup key

omit [DecidableEq κ] in
theorem overfull_of_order_nil (h : state.Consistent) (hord : state.order = []) : state.overfull policy = false := by
  have hkeys : state.entries.keys = [] := (h.order_perm.symm.trans (hord ▸ List.Perm.refl _)).eq_nil
  have hents : state.entries.entries = [] := List.map_eq_nil_iff.1 hkeys
  have hbyt : state.bytes = 0 := by rw [h.bytes_eq, total, hents]; rfl
  simp [overfull, hkeys, hbyt]

theorem order_removeEntry_oldest {oldest : κ} {rest} (h : state.Consistent)
    (hord : state.order = oldest :: rest) : (state.removeEntry oldest).order = rest := by
  have hnd := h.order_nodup
  rw [hord, List.nodup_cons] at hnd
  change state.order.filter (· ≠ oldest) = rest
  rw [hord, List.filter_cons_of_neg (by simp), List.filter_eq_self]
  intro a ha
  have hne : a ≠ oldest := fun h => hnd.1 (h ▸ ha)
  simpa using hne

theorem evict_spec : ∀ {fuel} {state : CacheState κ}, state.Consistent → state.order.length ≤ fuel →
    Evicted policy state (state.evict policy fuel) := by
  intro fuel
  induction fuel with
  | zero =>
    intro state h hlen
    have hnil := List.length_eq_zero_iff.1 (le_zero.1 hlen)
    exact ⟨h, overfull_of_order_nil h hnil, List.suffix_rfl, fun _ _ => rfl⟩
  | succ fuel ih =>
    intro state h hlen
    rw [evict]
    cases hover : state.overfull policy with
    | false => exact ⟨h, hover, List.suffix_rfl, fun _ _ => rfl⟩
    | true =>
      cases hord : state.order with
      | nil => rw [overfull_of_order_nil h hord] at hover; cases hover
      | cons oldest rest =>
        have hr := order_removeEntry_oldest h hord
        have hle : (state.removeEntry oldest).order.length ≤ fuel := by
          rw [hr]
          rw [hord, List.length_cons] at hlen
          exact le_of_succ_le_succ hlen
        have hstep := ih (h.removeEntry oldest) hle
        have hnd := h.order_nodup
        rw [hord, List.nodup_cons] at hnd
        simp only [if_true]
        rw [show ({ state with order := rest } : CacheState κ).removeEntry oldest = state.removeEntry oldest from
          removeEntry_oldest hord]
        refine ⟨hstep.consistent, hstep.fits, ?_, fun key hkey => ?_⟩
        · have hsuf := hstep.suffix
          rw [hr] at hsuf
          rw [hord]
          exact hsuf.trans (List.suffix_cons oldest rest)
        · have hne : key ≠ oldest := by
            rintro rfl
            exact hnd.1 (hr ▸ hstep.suffix.subset hkey)
          rw [hstep.lookup key hkey]
          exact lookup_erase_ne hne

theorem overfull_single (h : state.Consistent) (hord : state.order = [key])
    (hlook : state.entries.lookup key = some entry) (hents : 0 < policy.maxEntries)
    (hsm : entry.response.bodyLen ≤ policy.maxBytes) : state.overfull policy = false := by
  have hp : state.entries.keys.Perm [key] := hord ▸ h.order_perm.symm
  have hkeys : state.entries.keys = [key] := List.perm_singleton.1 hp
  have herase : (state.entries.erase key).entries = [] := by
    apply List.map_eq_nil_iff.1
    change (state.entries.erase key).keys = []
    rw [keys_erase, hkeys, List.erase_cons_head]
  have hbyt : state.bytes = entry.response.bodyLen := by
    have htot := total_erase (w := bodyLens) hlook
    rw [total, herase] at htot
    rw [h.bytes_eq, ← htot, List.map_nil, List.sum_nil, zero_add, bodyLens]
  simp only [overfull, hkeys, hbyt, List.length_singleton, Bool.or_eq_false_iff, decide_eq_false_iff_not, not_lt]
  exact ⟨hents, hsm⟩

theorem mem_evict (hents : 0 < policy.maxEntries)
    (hsm : entry.response.bodyLen ≤ policy.maxBytes) : ∀ {fuel} {state : CacheState κ},
    state.Consistent → state.order.getLast? = some key → state.entries.lookup key = some entry →
    key ∈ (state.evict policy fuel).order := by
  intro fuel
  induction fuel with
  | zero => intro state _ hlast _; exact List.mem_of_getLast? hlast
  | succ fuel ih =>
    intro state h hlast hlook
    rw [evict]
    cases hover : state.overfull policy with
    | false => exact List.mem_of_getLast? hlast
    | true =>
      cases hord : state.order with
      | nil => rw [hord] at hlast; cases hlast
      | cons oldest rest =>
        have hne : key ≠ oldest := by
          rintro rfl
          have hnd := h.order_nodup
          rw [hord, List.nodup_cons] at hnd
          rw [hord, List.getLast?_cons] at hlast
          cases rest with
          | nil => rw [overfull_single h hord hlook hents hsm] at hover; cases hover
          | cons =>
            refine hnd.1 (List.mem_of_getLast? ?_)
            simpa [List.getLast?_cons] using hlast
        have hr := order_removeEntry_oldest h hord
        simp only [if_true]
        rw [show ({ state with order := rest } : CacheState κ).removeEntry oldest = state.removeEntry oldest from
          removeEntry_oldest hord]
        refine ih (h.removeEntry oldest) ?_ ?_
        · rw [hr]
          rw [hord, List.getLast?_cons] at hlast
          cases rest with
          | nil => exact absurd (Option.some.inj hlast).symm hne
          | cons => simpa [List.getLast?_cons] using hlast
        · exact (lookup_erase_ne hne).trans hlook

/-- What storing a response that fits does: the response is put in, and then old ones may go. -/
theorem store_spec (h : Stored policy state) (key : κ) {response} (now : ℕ)
    (hents : 0 < policy.maxEntries) (hsm : response.bodyLen ≤ policy.maxBytes) :
    Evicted policy (state.insertEntry key ⟨response, now + policy.ttl⟩) (state.store policy key response now) ∧
      (state.store policy key response now).entries.lookup key = some ⟨response, now + policy.ttl⟩ := by
  have hsum : total bodyLens (state.entries.erase key) + response.bodyLen ≤ usizeMax := by
    have hle := le_trans (state.total_erase_le key) (h.bytes_eq ▸ h.bytes_le)
    have := policy.maxBytes_le
    omega
  have hfil : (state.insertEntry key ⟨response, now + policy.ttl⟩).Consistent := h.insertEntry hsum
  rw [store, if_pos hsm]
  have hevic : Evicted policy _ (evict policy _ _) := evict_spec hfil le_rfl
  have hlook : (state.insertEntry key ⟨response, now + policy.ttl⟩).entries.lookup key =
      some ⟨response, now + policy.ttl⟩ := lookup_insert _
  refine ⟨hevic, ?_⟩
  rw [← hlook]
  refine hevic.lookup key (mem_evict hents hsm hfil ?_ hlook)
  change (touch key state.order).getLast? = some key
  rw [touch, List.getLast?_append]
  rfl

theorem Stored.store (h : Stored policy state) (key : κ) (response : CachedResponse) (now : ℕ)
    (hents : 0 < policy.maxEntries) : Stored policy (state.store policy key response now) := by
  by_cases hsm : response.bodyLen ≤ policy.maxBytes
  · obtain ⟨hevic, -⟩ := store_spec h key now hents hsm
    have hf := hevic.fits
    simp only [overfull, Bool.or_eq_false_iff, decide_eq_false_iff_not, not_lt] at hf
    exact ⟨hevic.consistent, hf.2, hf.1⟩
  · rw [CacheState.store, if_neg hsm]
    exact h

theorem store_flights (policy : CachePolicy) (state : CacheState κ) (key : κ) (response : CachedResponse) (now : ℕ) :
    (state.store policy key response now).flights = state.flights ∧
      (state.store policy key response now).flightBytes = state.flightBytes := by
  have hevict : ∀ (fuel : ℕ) (state : CacheState κ), (state.evict policy fuel).flights = state.flights ∧
      (state.evict policy fuel).flightBytes = state.flightBytes := by
    intro fuel
    induction fuel with
    | zero => intro state; exact ⟨rfl, rfl⟩
    | succ fuel ih =>
      intro state
      rw [evict]
      split
      · split
        · exact ⟨rfl, rfl⟩
        · exact ih _
      · exact ⟨rfl, rfl⟩
  rw [CacheState.store]
  split
  · exact hevict _ _
  · exact ⟨rfl, rfl⟩

end CacheState

end Pooler
