import Pooler.Lib.Trace
import Pooler.Sanity.Flights

/-! The store of a response cache over every run: its two byte counters, its bounds, its order of
use, and which responses an eviction takes. -/

namespace Pooler

open Lib Nat List CacheState

namespace Cache

variable {κ : Type} [DecidableEq κ] {policy : CachePolicy} {cache cache' : Cache κ} {uses used : List κ}

/-- The cache, with the history of uses that its order follows. -/
structure Sound (policy : CachePolicy) (uses : List κ) (cache : Cache κ) : Prop where
  flying : cache.Flying
  stored : cache.state.Stored policy
  usable : cache.leaders ≠ [] → policy.usable = true
  flightBytes_eq : cache.state.flightBytes = total (fun _ i => cache.reserved i) cache.state.flights
  flightBytes_le : cache.state.flightBytes ≤ policy.maxBytes
  recent : ByLastUse uses cache.state.order

theorem sound_empty : Sound policy [] (Cache.empty : Cache κ) where
  flying := flying_empty
  stored := ⟨⟨rfl, Perm.refl _⟩, zero_le _, zero_le _⟩
  usable := fun h => absurd rfl h
  flightBytes_eq := rfl
  flightBytes_le := zero_le _
  recent := Pairwise.nil

theorem maxEntries_pos (h : policy.usable = true) : 0 < policy.maxEntries := by
  simp only [CachePolicy.usable, Bool.and_eq_true, decide_eq_true_eq] at h
  exact h.1.2

theorem maxBytes_lt (policy : CachePolicy) : policy.maxBytes < usizeMax := by
  have := policy.maxBytes_le
  simp only [usizeMax] at this ⊢
  omega

section Reserved

variable {i : ℕ} {leader leader' : Leader κ}

omit [DecidableEq κ] in
theorem reserved_eq (hi : cache.leaders[i]? = some leader) : cache.reserved i = leader.flight.reservedBytes := by
  rw [reserved, hi]
  rfl

omit [DecidableEq κ] in
theorem reserved_set_ne (hlead : cache'.leaders = cache.leaders.set i leader') {m : ℕ} (hm : m ≠ i) :
    cache'.reserved m = cache.reserved m := by
  rw [reserved, reserved, hlead, getElem?_set_ne (Ne.symm hm)]

omit [DecidableEq κ] in
theorem reserved_set_self (hlead : cache'.leaders = cache.leaders.set i leader')
    (hi : cache.leaders[i]? = some leader) : cache'.reserved i = leader'.flight.reservedBytes := by
  apply reserved_eq
  rw [hlead, List.getElem?_set_self (List.getElem?_eq_some_iff.1 hi).1]

omit [DecidableEq κ] in
theorem reserved_set (hlead : cache'.leaders = cache.leaders.set i leader') (hi : cache.leaders[i]? = some leader)
    (hs : leader'.flight.reservedBytes = leader.flight.reservedBytes) (m : ℕ) :
    cache'.reserved m = cache.reserved m := by
  by_cases hm : m = i
  · rw [hm, reserved_set_self hlead hi, reserved_eq hi, hs]
  · exact reserved_set_ne hlead hm

end Reserved

theorem Sound.frame (h : Sound policy uses cache) {announced} (ht : Transition policy cache [] announced cache')
    (hstate : cache'.state = cache.state) (hlead : cache'.leaders.length = cache.leaders.length)
    (hres : ∀ m, cache'.reserved m = cache.reserved m) : Sound policy (uses ++ []) cache' where
  flying := h.flying.transition ht
  stored := hstate ▸ h.stored
  usable := fun hne => h.usable fun hnil => hne (length_eq_zero_iff.1 (by rw [hlead, hnil]; rfl))
  flightBytes_eq := by
    rw [hstate, h.flightBytes_eq]
    exact total_congr fun _ m _ => (hres m).symm
  flightBytes_le := hstate ▸ h.flightBytes_le
  recent := by
    rw [append_nil, hstate]
    exact h.recent

theorem recent_get {state : CacheState κ} (h : ByLastUse uses state.order) (key : κ) (now : ℕ) :
    ByLastUse (uses ++ if state.hit policy key now then [key] else []) (state.get policy key now).1.order := by
  rcases get_cases policy key now state with ⟨hhit, heq | heq⟩ | ⟨hhit, -, heq⟩
  · rw [heq, hhit]
    simpa using h
  · rw [heq, hhit, if_neg Bool.false_ne_true, append_nil]
    exact h.sublist filter_sublist
  · rw [heq, hhit]
    exact h.touch key

theorem Sound.looked (h : Sound policy uses cache) (key : κ) (now : ℕ)
    (hstate : cache'.state = (cache.state.get policy key now).1) (hlead : cache'.leaders = cache.leaders)
    (hfly : cache'.Flying) : Sound policy (uses ++ if cache.state.hit policy key now then [key] else []) cache' where
  flying := hfly
  stored := hstate ▸ h.stored.get key now
  usable := fun hne => h.usable (hlead ▸ hne)
  flightBytes_eq := by
    obtain ⟨hflig, hbyt⟩ := get_flights policy key now cache.state
    rw [hstate, hflig, hbyt, h.flightBytes_eq]
    refine total_congr fun _ m _ => ?_
    rw [reserved, reserved, hlead]
  flightBytes_le := by
    rw [hstate, (get_flights policy key now cache.state).2]
    exact h.flightBytes_le
  recent := by
    rw [hstate]
    exact recent_get h.recent key now

variable {flight : Flight} {key : κ}

section

variable (h : Sound policy uses cache)
include h

theorem Sound.flightBytes_sub {i : ℕ} (hi : cache.leaders[i]? = some ⟨key, flight, .live⟩) :
    cache.state.flightBytes - (cache.state.flights.lookup key).elim 0 cache.reserved =
      total (fun _ i => cache.reserved i) (cache.state.flights.erase key) := by
  obtain ⟨-, hlook, -⟩ := h.flying.live hi
  rw [h.flightBytes_eq, ← total_erase hlook, hlook, Option.elim_some, Nat.add_sub_cancel]

theorem recent_store (key : κ) (response : CachedResponse) (now : ℕ) (hents : 0 < policy.maxEntries) :
    ByLastUse (uses ++ if response.bodyLen ≤ policy.maxBytes then [key] else [])
      (cache.state.store policy key response now).order := by
  by_cases hsm : response.bodyLen ≤ policy.maxBytes
  · rw [if_pos hsm]
    have hsuf := (store_spec h.stored key now hents hsm).1.suffix
    exact (h.recent.touch key).sublist hsuf.sublist
  · rw [if_neg hsm, CacheState.store, if_neg hsm, append_nil]
    exact h.recent

theorem Sound.published {i : ℕ}
    (hi : cache.leaders[i]? = some ⟨key, flight, .live⟩) (response : CachedResponse) (now : ℕ) :
    Sound policy (uses ++ if response.bodyLen ≤ policy.maxBytes then [key] else [])
      ⟨(cache.state.store policy key response now).removeFlight cache.reserved key,
        cache.leaders.set i ⟨key, { flight with result := some .complete }, .notifying i .complete⟩,
        cache.followers⟩ := by
  have husab := h.usable (ne_nil_of_mem (mem_of_getElem? hi))
  have hents := maxEntries_pos husab
  obtain ⟨hflig, hbyt⟩ := store_flights policy cache.state key response now
  have hstd := h.stored.store key response now hents
  have ht : Transition policy cache _ _ _ := .published i key flight hi response now
  refine ⟨h.flying.transition ht,
    ⟨⟨hstd.bytes_eq, hstd.order_perm⟩, hstd.bytes_le, hstd.size_le⟩, fun _ => husab, ?_, ?_,
    recent_store h key response now hents⟩
  · change (cache.state.store policy key response now).flightBytes - _ = _
    rw [CacheState.removeFlight, hflig, hbyt, h.flightBytes_sub hi]
    exact total_congr fun _ m _ => Eq.symm (reserved_set rfl hi (by rfl) m)
  · change (cache.state.store policy key response now).flightBytes - _ ≤ _
    rw [hbyt]
    exact le_trans (sub_le _ _) h.flightBytes_le

theorem Sound.failed {i : ℕ} (hi : cache.leaders[i]? = some ⟨key, flight, .live⟩) :
    Sound policy (uses ++ []) ⟨cache.state.removeFlight cache.reserved key,
      cache.leaders.set i ⟨key, flight, .failing i⟩, cache.followers⟩ := by
  have ht : Transition policy cache _ _ _ := .failed i key flight hi
  refine ⟨h.flying.transition ht,
    ⟨⟨h.stored.bytes_eq, h.stored.order_perm⟩, h.stored.bytes_le, h.stored.size_le⟩,
    fun _ => h.usable (ne_nil_of_mem (mem_of_getElem? hi)), ?_,
    le_trans (sub_le _ _) h.flightBytes_le, ?_⟩
  · exact (h.flightBytes_sub hi).trans (total_congr fun _ m _ => Eq.symm (reserved_set rfl hi (by rfl) m))
  · rw [append_nil]
    exact h.recent

/-- One flight reserves more, within the bound on everything the cache holds. -/
theorem Sound.reserved {i bytes : ℕ} (hi : cache.leaders[i]? = some ⟨key, flight, .live⟩)
    (hrm : satAdd usizeMax (satAdd usizeMax cache.state.bytes cache.state.flightBytes) bytes ≤ policy.maxBytes) :
    Sound policy (uses ++ []) ⟨{ cache.state with flightBytes := satAdd usizeMax cache.state.flightBytes bytes },
      cache.leaders.set i ⟨key, flight.addReservedBytes bytes, .live⟩, cache.followers⟩ := by
  have ht : Transition policy cache _ _ _ := .reserved i key flight hi bytes hrm
  obtain ⟨-, hlook, -⟩ := h.flying.live hi
  have hspl := total_erase (w := fun _ i => cache.reserved i) hlook
  rw [← h.flightBytes_eq, reserved_eq hi] at hspl
  -- nothing saturates below the bound
  have hlt := maxBytes_lt policy
  have hinn := (satAdd_le_iff hlt).1 (le_trans (le_add_right _ _) ((satAdd_le_iff hlt).1 hrm))
  rw [satAdd_le_iff hlt, satAdd_eq_add (le_trans hinn hlt.le)] at hrm
  have hcap : cache.state.flightBytes + bytes ≤ usizeMax := by omega
  have hown : flight.reservedBytes + bytes ≤ usizeMax := by
    simp only at hspl
    omega
  refine ⟨h.flying.transition ht, ⟨⟨h.stored.bytes_eq, h.stored.order_perm⟩, h.stored.bytes_le, h.stored.size_le⟩,
    fun _ => h.usable (ne_nil_of_mem (mem_of_getElem? hi)), ?_, ?_, ?_⟩
  · rw [← total_erase hlook, reserved_set_self rfl hi, satAdd_eq_add hcap]
    have hoths : total (fun _ i => cache.reserved i) (cache.state.flights.erase key) =
        total (fun _ m => (⟨{ cache.state with flightBytes := cache.state.flightBytes + bytes },
          cache.leaders.set i ⟨key, flight.addReservedBytes bytes, .live⟩, cache.followers⟩ : Cache κ).reserved m)
          (cache.state.flights.erase key) := by
      refine total_congr fun k m hk => Eq.symm (reserved_set_ne rfl ?_)
      rintro rfl
      have hne : k ≠ key := by
        rintro rfl
        rw [AList.lookup_erase] at hk
        cases hk
      rw [AList.lookup_erase_ne hne] at hk
      obtain ⟨_, heq⟩ := h.flying.eq_of_lookup hi hk
      exact hne (congrArg Leader.key heq).symm
    rw [← hoths, Flight.addReservedBytes, satAdd_eq_add hown]
    simp only at hspl ⊢
    omega
  · rw [satAdd_eq_add hcap]
    change cache.state.flightBytes + bytes ≤ policy.maxBytes
    omega
  · rw [append_nil]
    exact h.recent

theorem Sound.led {bytes : ℕ} (husab : policy.usable = true) (hfree : cache.state.flights.lookup key = none)
    (hrm : satAdd usizeMax cache.state.flightBytes bytes ≤ policy.maxBytes) :
    Sound policy (uses ++ []) (cache.lead key bytes) := by
  have ht : Transition policy cache _ _ _ := .led key bytes husab hfree hrm
  have hlt := maxBytes_lt policy
  have hsum : cache.state.flightBytes + bytes ≤ usizeMax := le_trans ((satAdd_le_iff hlt).1 hrm) hlt.le
  refine ⟨h.flying.transition ht, ⟨⟨h.stored.bytes_eq, h.stored.order_perm⟩, h.stored.bytes_le, h.stored.size_le⟩,
    fun _ => husab, ?_, hrm, ?_⟩
  · change satAdd usizeMax cache.state.flightBytes bytes =
      total (fun _ i => (cache.lead key bytes).reserved i) (cache.state.flights.insert key cache.leaders.length)
    have hw : (cache.lead key bytes).reserved cache.leaders.length = bytes := by simp [Cache.reserved, lead, Flight.new]
    rw [total_insert, hw, erase_eq_self hfree, satAdd_eq_add hsum, h.flightBytes_eq, add_comm]
    refine congrArg (bytes + ·) (total_congr fun k m hk => ?_)
    obtain ⟨_, hm⟩ := h.flying.table k m hk
    rw [Cache.reserved, Cache.reserved, lead, List.getElem?_append_left (List.getElem?_eq_some_iff.1 hm).1]
  · rw [append_nil]
    exact h.recent

theorem Sound.transition {announced} (ht : Transition policy cache used announced cache') :
    Sound policy (uses ++ used) cache' := by
  have hfly := h.flying.transition ht
  cases ht with
  | same => rwa [append_nil]
  | looked key now => exact h.looked key now rfl rfl hfly
  | joined key i flight hi =>
    exact h.frame (.joined key i flight hi) rfl (length_set ..) (reserved_set rfl hi (by rfl))
  | led key bytes husab hfree hrm => exact h.led husab hfree hrm
  | published i key flight hi response now => exact h.published hi response now
  | reserved i key flight hi bytes hrm => exact h.reserved hi hrm
  | failed i key flight hi => exact h.failed hi
  | failCompleted i key flight hi =>
    exact h.frame (.failCompleted i key flight hi) rfl (length_set ..) (reserved_set rfl hi (by rfl))
  | notified i key flight outcome hi =>
    exact h.frame (.notified i key flight outcome hi) rfl (length_set ..) (reserved_set rfl hi (by rfl))
  | moved j fol phase hj hstays houtc huns hwt =>
    exact h.frame (.moved j fol phase hj hstays houtc huns hwt) rfl rfl fun _ => rfl
  | left j fol leader phase hj hin hi hgone houtc =>
    exact h.frame (.left j fol leader phase hj hin hi hgone houtc) rfl (length_set ..)
      (reserved_set rfl hi (by rfl))
  | collected j key flight outcome now => exact h.looked key now rfl rfl hfly

end

def traced (policy : CachePolicy) (seen : Cache κ × List κ) (event : CacheEvent κ) : Cache κ × List κ :=
  (seen.1.step policy event, seen.2 ++ seen.1.uses policy event)

/-- The state of a traced run is sound for its history. -/
def SoundSeen (policy : CachePolicy) (seen : Cache κ × List κ) : Prop := Sound policy seen.2 seen.1

theorem sound_run (policy : CachePolicy) (evs : List (CacheEvent κ)) :
    SoundSeen policy (run (traced policy) (Cache.empty, []) evs) := by
  have hstep : ∀ (seen : Cache κ × List κ) (event : CacheEvent κ), SoundSeen policy seen →
      SoundSeen policy (traced policy seen event) := fun seen event h =>
    h.transition (step_transition h.flying event)
  exact run_invariant hstep evs _ sound_empty

/-- The response that a live leader publishes is stored; what had to go for it was used before
everything that is kept. -/
theorem Sound.published_kept (h : Sound policy uses cache) {i : ℕ}
    (hi : cache.leaders[i]? = some ⟨key, flight, .live⟩) {response}
    (hsm : response.bodyLen ≤ policy.maxBytes) (now : ℕ) :
    (cache.step policy (.publish i response now)).state.entries.lookup key = some ⟨response, now + policy.ttl⟩ ∧
    ∀ gone ∈ cache.state.entries, gone ∉ (cache.step policy (.publish i response now)).state.entries →
      ∀ kept ∈ (cache.step policy (.publish i response now)).state.entries,
        lastUse (uses ++ [key]) gone < lastUse (uses ++ [key]) kept := by
  have hents := maxEntries_pos (h.usable (ne_nil_of_mem (mem_of_getElem? hi)))
  obtain ⟨hevic, hlook⟩ := store_spec h.stored key now hents hsm
  rw [show cache.step policy (.publish i response now) = cache.publish policy i response now from rfl,
    publish_eq h.flying hi]
  refine ⟨hlook, fun gone hgone hout kept hkept => ?_⟩
  obtain ⟨evicted, hord⟩ := hevic.suffix
  rw [show (cache.state.insertEntry key ⟨response, now + policy.ttl⟩).order = touch key cache.state.order from rfl]
    at hord
  have hkept : kept ∈ (cache.state.store policy key response now).order := hevic.consistent.mem_order.2 hkept
  have hgone : gone ∈ evicted := by
    have hin : gone ∈ touch key cache.state.order := mem_touch.2 (.inr (h.stored.mem_order.2 hgone))
    rw [← hord, mem_append] at hin
    exact hin.resolve_right fun hk => hout (hevic.consistent.mem_order.1 hk)
  have hrec := h.recent.touch key
  rw [← hord] at hrec
  exact (pairwise_append.1 hrec).2.2 gone hgone kept hkept

/-- Whatever was done to a cache, its counters and bounds hold, its order lists the stored keys
once each, a response that is published is kept, and evictions take what was used least recently. -/
theorem cache_store_invariants (policy : CachePolicy) (events : List (CacheEvent κ)) :
    let seen := run (traced policy) (Cache.empty, []) events
    let state := seen.1.state
    (state.bytes = total CacheState.bodyLens state.entries ∧ state.bytes ≤ policy.maxBytes) ∧
    state.entries.keys.length ≤ policy.maxEntries ∧
    (state.order.Nodup ∧ state.order.Perm state.entries.keys) ∧
    (state.flightBytes = total (fun _ i => seen.1.reserved i) state.flights ∧ state.flightBytes ≤ policy.maxBytes) ∧
    ∀ i key flight response now, seen.1.leaders[i]? = some ⟨key, flight, .live⟩ →
      response.bodyLen ≤ policy.maxBytes →
      (seen.1.step policy (.publish i response now)).state.entries.lookup key = some ⟨response, now + policy.ttl⟩ ∧
      ∀ gone ∈ state.entries, gone ∉ (seen.1.step policy (.publish i response now)).state.entries →
        ∀ kept ∈ (seen.1.step policy (.publish i response now)).state.entries,
          lastUse (seen.2 ++ [key]) gone < lastUse (seen.2 ++ [key]) kept := by
  intro seen state
  have h : Sound policy seen.2 seen.1 := sound_run policy events
  refine ⟨⟨h.stored.bytes_eq, h.stored.bytes_le⟩, h.stored.size_le, ⟨h.stored.order_nodup, h.stored.order_perm⟩,
    ⟨h.flightBytes_eq, h.flightBytes_le⟩, ?_⟩
  intro i key flight response now hi hsm
  exact h.published_kept hi hsm now

def oneByte : CachedResponse := ⟨200, 11, [], ⟨[0], by decide⟩⟩

def tinyPolicy : CachePolicy := ⟨true, 5, 1, 8, true, by decide⟩

/-- The second response takes the place of the first. -/
theorem cache_store_evicts :
    let seen := run (traced tinyPolicy) (Cache.empty, [])
      [CacheEvent.begin 'a' 1, .publish 0 oneByte 0, .notify 0, .begin 'b' 1, .reserve 1 2]
    'a' ∈ seen.1.state.entries ∧
    'a' ∉ (seen.1.step tinyPolicy (.publish 1 oneByte 1)).state.entries ∧
    (seen.1.step tinyPolicy (.publish 1 oneByte 1)).state.entries.lookup 'b' = some ⟨oneByte, 6⟩ ∧
    lastUse (seen.2 ++ ['b']) 'a' < lastUse (seen.2 ++ ['b']) 'b' := by
  intro seen
  have hmem : 'a' ∈ seen.1.state.entries := by decide
  have hgone : 'a' ∉ (seen.1.step tinyPolicy (.publish 1 oneByte 1)).state.entries := by decide
  have hkept : 'b' ∈ (seen.1.step tinyPolicy (.publish 1 oneByte 1)).state.entries := by decide
  obtain ⟨-, -, -, -, hpub⟩ := cache_store_invariants tinyPolicy
    [CacheEvent.begin 'a' 1, .publish 0 oneByte 0, .notify 0, .begin 'b' 1, .reserve 1 2]
  obtain ⟨hlook, hlru⟩ := hpub 1 'b' ⟨none, 1, 3⟩ oneByte 1 (by decide) (by decide)
  exact ⟨hmem, hgone, hlook, hlru 'a' hmem hgone 'b' hkept⟩

end Cache

end Pooler
