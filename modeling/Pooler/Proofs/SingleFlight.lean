import Pooler.Lib.Trace
import Pooler.Sanity.Flights

/-! One leader at a time fetches the response of a key, and its followers wait for it. A follower
registers with the notifier after it has looked at the result: an announcement in between reaches
nobody, and the follower waits for one that does not come. -/

namespace Pooler

open Lib List Option

namespace Cache

variable {κ : Type} [DecidableEq κ] {policy : CachePolicy} {cache cache' : Cache κ}

/-- No follower of the flight that is announced has read that there is no result and not yet
registered. -/
def NoLateRegistration (cache : Cache κ) (event : CacheEvent κ) : Prop :=
  ∀ i ∈ announcer event, ∀ follower ∈ cache.followers, follower.flight = i → follower.phase ≠ .unseen

instance (cache : Cache κ) (event : CacheEvent κ) : Decidable (cache.NoLateRegistration event) :=
  inferInstanceAs (Decidable (∀ i ∈ announcer event, ∀ follower ∈ cache.followers,
    follower.flight = i → follower.phase ≠ .unseen))

/-- No follower waits for a flight that was announced. -/
def Announced (cache : Cache κ) : Prop :=
  ∀ i key flight outcome, cache.leaders[i]? = some ⟨key, flight, .done outcome⟩ →
    ∀ follower ∈ cache.followers, follower.flight = i → follower.phase ≠ .unseen ∧ follower.phase ≠ .waiting

omit [DecidableEq κ] in
theorem announced_empty : (Cache.empty : Cache κ).Announced := fun _ _ _ _ h => absurd h (by simp [Cache.empty])

variable {i : ℕ}

omit [DecidableEq κ] in
theorem Announced.update (h : cache.Announced) {leader}
    (hlead : cache'.leaders = cache.leaders.set i leader) (hdone : ∀ outcome, leader.phase ≠ .done outcome)
    (hfols : ∀ follower ∈ cache'.followers, follower ∈ cache.followers ∨
      (follower.phase ≠ .unseen ∧ follower.phase ≠ .waiting)) : cache'.Announced := by
  intro m key flight outcome hm follower hfol hflt
  rw [hlead] at hm
  by_cases him : i = m
  · subst him
    have hlt : i < cache.leaders.length := by simpa using (List.getElem?_eq_some_iff.1 hm).1
    rw [getElem?_set_self hlt] at hm
    exact absurd (congrArg Leader.phase (some.inj hm)) (hdone outcome)
  · rw [getElem?_set_ne him] at hm
    rcases hfols follower hfol with hold | hw
    · exact h m key flight outcome hm follower hold hflt
    · exact hw

omit [DecidableEq κ] in
/-- Only followers change: one that starts to wait has a flight that is not done. -/
theorem Announced.frame (h : cache.Announced) (hlead : cache'.leaders = cache.leaders)
    (hfols : ∀ follower ∈ cache'.followers, follower ∈ cache.followers ∨
      (follower.phase ≠ .unseen ∧ follower.phase ≠ .waiting) ∨
      ∀ key flight outcome, cache.leaders[follower.flight]? ≠ some ⟨key, flight, .done outcome⟩) :
    cache'.Announced := by
  intro m key flight outcome hm follower hfol hflt
  rw [hlead] at hm
  rcases hfols follower hfol with hold | hw | hund
  · exact h m key flight outcome hm follower hold hflt
  · exact hw
  · exact absurd (hflt ▸ hm) (hund key flight outcome)

variable {outcome : FlightResult} {flight : Flight} {key : κ}

theorem Flying.result_of_done (h : cache.Flying)
    (hi : cache.leaders[i]? = some ⟨key, flight, .done outcome⟩) : flight.result = some outcome :=
  (h.leader i _ hi).phase

theorem Announced.moved (hann : cache.Announced) (h : cache.Flying) {j : ℕ} {follower phase}
    (hj : cache.followers[j]? = some follower) (huns : phase = .unseen → cache.result follower.flight = none)
    (hwt : phase = .waiting → follower.phase = .unseen) :
    ({ cache with followers := cache.followers.set j { follower with phase } } : Cache κ).Announced := by
  refine hann.frame rfl fun f hf => ?_
  rcases mem_or_eq_of_mem_set hf with hf | rfl
  · exact .inl hf
  by_cases hph : phase = .unseen ∨ phase = .waiting
  · refine .inr (.inr fun key flight outcome hi => ?_)
    rcases hph with hph | hph
    · have hn := huns hph
      rw [result_eq hi, h.result_of_done hi] at hn
      cases hn
    · exact (hann _ key flight outcome hi follower (mem_of_getElem? hj) rfl).1 (hwt hph)
  · exact .inr (.inl (not_or.1 hph))

omit [DecidableEq κ] in
theorem Announced.notified (hann : cache.Announced)
    (hseen : ∀ follower ∈ cache.followers, follower.flight = i → follower.phase ≠ .unseen) :
    ({ cache.notifyWaiters i with leaders := cache.leaders.set i ⟨key, flight, .done outcome⟩ } :
      Cache κ).Announced := by
  intro m key' flight' outcome' hm f hf hflt
  obtain ⟨g, hg, rfl⟩ := mem_map.1 hf
  rw [flight_notified] at hflt
  by_cases him : i = m
  · rcases notified_eq i g with heq | ⟨-, hwok⟩
    · refine ⟨?_, fun hwt => ?_⟩
      · rw [heq]
        exact hseen g hg (hflt.trans him.symm)
      · rw [heq] at hwt
        have hnot : (g.notified i).phase = .woken := by simp [Follower.notified, hflt.trans him.symm, hwt]
        rw [heq, hwt] at hnot
        cases hnot
    · rw [hwok]
      exact ⟨nofun, nofun⟩
  · simp only [getElem?_set_ne him] at hm
    have hold := hann m key' flight' outcome' hm g hg hflt
    rcases notified_eq i g with heq | ⟨hwt, -⟩
    · rwa [heq]
    · exact absurd hwt hold.2

theorem Announced.transition (hann : cache.Announced) (h : cache.Flying) {used announced}
    (ht : Transition policy cache used announced cache')
    (hseen : ∀ i ∈ announced, ∀ follower ∈ cache.followers, follower.flight = i → follower.phase ≠ .unseen) :
    cache'.Announced := by
  cases ht with
  | same => exact hann
  | looked => exact hann.frame rfl fun f hf => .inl hf
  | joined =>
    refine hann.update rfl (by simp) fun f hf => ?_
    rcases mem_append.1 hf with hf | hf
    · exact .inl hf
    · rw [mem_singleton.1 hf]
      exact .inr ⟨by simp, by simp⟩
  | led =>
    intro m k flight outcome hm follower hf hflt
    have hlt : m < cache.leaders.length := hflt ▸ (h.follower follower hf).flight
    rw [lead, getElem?_append_left hlt] at hm
    exact hann m k flight outcome hm follower hf hflt
  | published i key flight hi response now | reserved i key flight hi bytes hrm | failed i key flight hi
  | failCompleted => exact hann.update rfl (by simp) fun f hf => .inl hf
  | notified i => exact hann.notified (hseen i rfl)
  | moved j follower phase hj hstays hout huns hwt => exact hann.moved h hj huns hwt
  | left j follower leader phase hj hin hi hgone =>
    have hph : phase ≠ .unseen ∧ phase ≠ .waiting := by
      constructor
      · rintro rfl; cases hgone
      · rintro rfl; cases hgone
    intro m k flight outcome hm f hf hflt
    obtain ⟨flight', hold⟩ : ∃ flight', cache.leaders[m]? = some ⟨k, flight', .done outcome⟩ := by
      by_cases hne : follower.flight = m
      · subst hne
        rw [List.getElem?_set_self (List.getElem?_eq_some_iff.1 hi).1] at hm
        obtain ⟨leaderKey, leaderFlight, leaderPhase⟩ := leader
        cases hm
        exact ⟨leaderFlight, hi⟩
      · rw [getElem?_set_ne hne] at hm
        exact ⟨flight, hm⟩
    rcases mem_or_eq_of_mem_set hf with hf | rfl
    · exact hann m k flight' outcome hold f hf hflt
    · exact hph
  | collected =>
    refine hann.frame rfl fun f hf => ?_
    rcases mem_or_eq_of_mem_set hf with hf | rfl
    · exact .inl hf
    · exact .inr (.inl ⟨by simp, by simp⟩)

/-- The table has the same flights, and each flight the same result. -/
structure KeepsFlights (cache cache' : Cache κ) : Prop where
  table : cache'.state.flights = cache.state.flights
  result : ∀ i, cache'.result i = cache.result i

omit [DecidableEq κ] in
theorem keepsFlights_set {state followers leader leader'}
    (hi : cache.leaders[i]? = some leader) (hstate : state.flights = cache.state.flights)
    (hres : leader'.flight.result = leader.flight.result) :
    cache.KeepsFlights ⟨state, cache.leaders.set i leader', followers⟩ := by
  refine ⟨hstate, fun m => ?_⟩
  by_cases him : i = m
  · subst him
    rw [result_eq hi, Cache.result, List.getElem?_set_self (List.getElem?_eq_some_iff.1 hi).1]
    exact hres
  · rw [Cache.result, Cache.result, getElem?_set_ne him]

theorem keepsFlights_join (h : cache.Flying) (hlook : cache.state.flights.lookup key = some i)
    (bytes : ℕ) : cache.KeepsFlights (cache.step policy (.begin key bytes)) := by
  obtain ⟨flight, hi⟩ := h.table key i hlook
  change cache.KeepsFlights (cache.beginWithSize policy key bytes)
  simp only [beginWithSize, hlook]
  split_ifs
  · rcases join_eq h hi with heq | heq
    · rw [heq]; exact ⟨rfl, fun _ => rfl⟩
    · rw [heq]; exact keepsFlights_set hi rfl rfl
  · exact ⟨rfl, fun _ => rfl⟩
  · exact ⟨rfl, fun _ => rfl⟩

theorem keepsFlights_cancel (h : cache.Flying) (j : ℕ) : cache.KeepsFlights (cache.step policy (.cancel j)) := by
  have hleave : ∀ {follower : Follower κ}, cache.followers[j]? = some follower →
      follower.phase.subscribed = true →
      cache.KeepsFlights ((cache.setFollower j .dropped).releaseFollower follower.flight) := by
    intro follower hj hin
    have hlt := (h.follower follower (mem_of_getElem? hj)).flight
    have hi : cache.leaders[follower.flight]? = some cache.leaders[follower.flight] := getElem?_eq_getElem hlt
    rw [releaseFollower_eq h hj hin hi]
    exact keepsFlights_set hi rfl rfl
  change cache.KeepsFlights (cache.cancel j)
  rw [cancel]
  split
  next hj => exact hleave hj rfl
  next hj => exact hleave hj rfl
  next hj => exact hleave hj rfl
  · exact ⟨rfl, fun _ => rfl⟩

/-- A follower of a flight that was announced has seen its result, sees it when it goes on, or is
gone. -/
theorem Announced.observes (hann : cache.Announced) (h : cache.Flying) {j : ℕ}
    (hi : cache.leaders[i]? = some ⟨key, flight, .done outcome⟩) {follower}
    (hj : cache.followers[j]? = some follower) (hflt : follower.flight = i) :
    follower.phase = .dropped ∨
      (((cache.step policy (.wake j)).step policy (.check j)).followers[j]?.bind (·.phase.outcome)) = some outcome := by
  have hmem := mem_of_getElem? hj
  have hlt : j < cache.followers.length := (List.getElem?_eq_some_iff.1 hj).1
  have hres : cache.result i = some outcome := (result_eq hi).trans (h.result_of_done hi)
  obtain ⟨huns, hwt⟩ := hann i key flight outcome hi follower hmem hflt
  have hseen : ∀ seen, follower.phase.outcome = some seen → seen = outcome := fun seen hs =>
    some.inj (((h.follower follower hmem).outcome seen hs).symm.trans (hflt ▸ hres))
  obtain ⟨fkey, fflight, phase⟩ := follower
  obtain rfl : fflight = i := hflt
  change phase = .dropped ∨ (((cache.wake j).check j).followers[j]?.bind (·.phase.outcome)) = some outcome
  cases phase with
  | checking =>
    right
    simp only [wake, hj, check, hres, setFollower]
    rw [modify_eq_set_of_get _ hj, getElem?_set_self hlt]
    rfl
  | unseen => exact absurd rfl huns
  | waiting => exact absurd rfl hwt
  | woken =>
    right
    have hwok : (cache.wake j).followers[j]? = some ⟨fkey, fflight, .checking⟩ := by
      simp only [wake, hj, setFollower]
      rw [modify_eq_set_of_get _ hj, getElem?_set_self hlt]
    have hsame : (cache.wake j).result fflight = some outcome := by
      simp only [wake, hj, setFollower]
      exact hres
    have hlt' : j < (cache.wake j).followers.length := (List.getElem?_eq_some_iff.1 hwok).1
    simp only [check, hwok, hsame, setFollower]
    rw [modify_eq_set_of_get _ hwok, getElem?_set_self hlt']
    rfl
  | observed seen =>
    obtain rfl := hseen seen rfl
    right
    simp [wake, check, hj, FollowerPhase.outcome]
  | returning seen =>
    obtain rfl := hseen seen rfl
    right
    simp [wake, check, hj, FollowerPhase.outcome]
  | returned seen =>
    obtain rfl := hseen seen rfl
    right
    simp [wake, check, hj, FollowerPhase.outcome]
  | dropped => exact .inl rfl

theorem flying_run (policy : CachePolicy) (evs : List (CacheEvent κ)) :
    (run (step policy) (Cache.empty : Cache κ) evs).Flying :=
  run_invariant (fun _ event h => h.transition (step_transition h event)) evs _ flying_empty

theorem announced_run (policy : CachePolicy) (evs : List (CacheEvent κ))
    (hok : StepsMeet (step policy) NoLateRegistration (Cache.empty : Cache κ) evs) :
    (run (step policy) (Cache.empty : Cache κ) evs).Announced := by
  have hstep : ∀ (cache : Cache κ) (event : CacheEvent κ), NoLateRegistration cache event →
      (cache.Flying ∧ cache.Announced) → ((cache.step policy event).Flying ∧ (cache.step policy event).Announced) := by
    intro cache event hlate h
    have ht : Transition policy cache _ _ _ := step_transition h.1 event
    exact ⟨h.1.transition ht, h.2.transition h.1 ht hlate⟩
  exact (run_of_stepsMeet hstep evs _ hok ⟨flying_empty, announced_empty⟩).2

/-- In every state that the cache reaches there is at most one live leader for a key, the table has
the undecided flights of the live leaders, and followers that join or are cancelled leave it alone.
If no flight was announced while a follower of it was about to register, then every follower of a
leader that is done observes its outcome. -/
theorem single_flight (policy : CachePolicy) (events : List (CacheEvent κ)) :
    let cache := run (step policy) (Cache.empty : Cache κ) events
    (∀ (i j : ℕ) (key : κ) (flight other : Flight), cache.leaders[i]? = some ⟨key, flight, .live⟩ →
      cache.leaders[j]? = some ⟨key, other, .live⟩ → i = j) ∧
    (∀ (key : κ) (i : ℕ), cache.state.flights.lookup key = some i →
      ∃ flight, cache.leaders[i]? = some ⟨key, flight, .live⟩ ∧ flight.result = none) ∧
    (∀ (key : κ) (i bytes : ℕ), cache.state.flights.lookup key = some i →
      cache.KeepsFlights (cache.step policy (.begin key bytes))) ∧
    (∀ j, cache.KeepsFlights (cache.step policy (.cancel j))) ∧
    (StepsMeet (step policy) NoLateRegistration (Cache.empty : Cache κ) events →
      ∀ (i : ℕ) (key : κ) (flight : Flight) (outcome : FlightResult),
        cache.leaders[i]? = some ⟨key, flight, .done outcome⟩ →
        flight.result = some outcome ∧
        ∀ (j : ℕ) (follower : Follower κ), cache.followers[j]? = some follower → follower.flight = i →
          follower.phase = .dropped ∨
          (((cache.step policy (.wake j)).step policy (.check j)).followers[j]?.bind (·.phase.outcome)) =
            some outcome) := by
  intro cache
  have h : cache.Flying := flying_run policy events
  refine ⟨?_, ?_, fun key i bytes hlook => keepsFlights_join h hlook bytes, keepsFlights_cancel h, ?_⟩
  · intro i j key flight other hi hj
    exact some.inj ((h.live hi).2.1.symm.trans (h.live hj).2.1)
  · intro key i hlook
    obtain ⟨flight, hi⟩ := h.table key i hlook
    exact ⟨flight, hi, (h.live hi).1⟩
  · intro hok i key flight outcome hi
    exact ⟨h.result_of_done hi, fun j follower hj hflt => (announced_run policy events hok).observes h hi hj hflt⟩

theorem sharedPolicy_fits : 2 * 8 ≤ usizeMax := by decide

def sharedPolicy : CachePolicy := ⟨true, 5, 4, 8, true, sharedPolicy_fits⟩

def emptyResponse : CachedResponse := ⟨200, 11, [], Slice.empty⟩

/-- A follower that has registered in time observes the outcome. -/
theorem single_flight_in_time :
    let events := [CacheEvent.begin 'a' 1, .begin 'a' 1, .check 0, .register 0, .publish 0 emptyResponse 0, .notify 0]
    let cache := run (step sharedPolicy) (Cache.empty : Cache Char) events
    StepsMeet (step sharedPolicy) NoLateRegistration (Cache.empty : Cache Char) events ∧
    (((cache.step sharedPolicy (.wake 0)).step sharedPolicy (.check 0)).followers[0]?.bind (·.phase.outcome)) =
      some .complete := by
  intro events cache
  have hok : StepsMeet (step sharedPolicy) NoLateRegistration (Cache.empty : Cache Char) events := by decide
  obtain ⟨-, -, -, -, hobs⟩ := single_flight sharedPolicy events
  obtain ⟨-, hfols⟩ := hobs hok 0 'a' ⟨some .complete, 2, 1⟩ .complete (by decide)
  exact ⟨hok, (hfols 0 ⟨'a', 0, .woken⟩ (by decide) rfl).resolve_left nofun⟩

/-- The response is published and announced after a follower has looked and before it registers:
the leader is done, and the follower waits. -/
theorem announcement_missed :
    let cache := run (step sharedPolicy) (Cache.empty : Cache Char)
      [.begin 'a' 1, .begin 'a' 1, .check 0, .publish 0 emptyResponse 0, .notify 0, .register 0]
    cache.leaders = [⟨'a', ⟨some .complete, 2, 1⟩, .done .complete⟩] ∧
    cache.followers = [⟨'a', 0, .waiting⟩] ∧
    ((cache.step sharedPolicy (.wake 0)).step sharedPolicy (.check 0)).followers = [⟨'a', 0, .waiting⟩] := by
  decide

end Cache

end Pooler
