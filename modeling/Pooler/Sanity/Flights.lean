import Pooler.Sanity.Cache

/-! The flights of a response cache. What each lock section does in a cache where every flight of
the table belongs to a live leader, and that it leaves such a cache behind. -/

namespace Pooler

open Lib List CacheState AList Option

def FollowerPhase.outcome : FollowerPhase → Option FlightResult
  | .observed outcome | .returning outcome | .returned outcome => some outcome
  | _ => none

namespace Cache

variable {κ : Type} [DecidableEq κ] {policy : CachePolicy} {cache cache' : Cache κ}

/-- What the phase of a leader says about its flight and the table. -/
def PhaseOk (cache : Cache κ) (i : ℕ) (leader : Leader κ) : Prop :=
  match leader.phase with
  | .live => leader.flight.result = none ∧ cache.state.flights.lookup leader.key = some i
  | .failing flight => flight = i ∧ leader.flight.result = none
  | .notifying flight outcome => flight = i ∧ leader.flight.result = some outcome
  | .done outcome => leader.flight.result = some outcome

/-- An undecided flight has its leader and its followers as subscribers. -/
structure LeaderOk (cache : Cache κ) (i : ℕ) (leader : Leader κ) : Prop where
  phase : cache.PhaseOk i leader
  subscribers : leader.flight.result = none → leader.flight.subscribers = 1 + cache.subscribed i

/-- A follower has a flight, and what it has seen of it is its result. -/
structure FollowerOk (cache : Cache κ) (follower : Follower κ) : Prop where
  flight : follower.flight < cache.leaders.length
  outcome : ∀ outcome, follower.phase.outcome = some outcome → cache.result follower.flight = some outcome

structure Flying (cache : Cache κ) : Prop where
  table : ∀ key i, cache.state.flights.lookup key = some i → ∃ flight, cache.leaders[i]? = some ⟨key, flight, .live⟩
  leader : ∀ i leader, cache.leaders[i]? = some leader → cache.LeaderOk i leader
  follower : ∀ follower ∈ cache.followers, cache.FollowerOk follower

theorem flying_empty : (Cache.empty : Cache κ).Flying where
  table := fun _ _ h => absurd h (by simp [Cache.empty])
  leader := fun _ _ h => absurd h (by simp [Cache.empty])
  follower := fun _ h => absurd h (by simp [Cache.empty])

omit [DecidableEq κ] in
theorem result_eq {i : ℕ} {leader} (h : cache.leaders[i]? = some leader) : cache.result i = leader.flight.result := by
  rw [result, h]
  rfl

theorem PhaseOk.of_lookup {i : ℕ} {leader} (h : cache.PhaseOk i leader)
    (hkeep : cache.state.flights.lookup leader.key = some i → cache'.state.flights.lookup leader.key = some i) :
    cache'.PhaseOk i leader := by
  unfold PhaseOk at h ⊢
  split
  next hp => rw [hp] at h; exact ⟨h.1, hkeep h.2⟩
  all_goals next hp => rw [hp] at h; exact h

/-- One leader is changed. The table may only lose its flight, and a result stays. -/
theorem Flying.update (h : cache.Flying) {i : ℕ} {leader leader'}
    (hi : cache.leaders[i]? = some leader) (hlead : cache'.leaders = cache.leaders.set i leader')
    (hoths : ∀ key j, j ≠ i → (cache'.state.flights.lookup key = some j ↔ cache.state.flights.lookup key = some j))
    (hown : ∀ key, cache'.state.flights.lookup key = some i → ∃ flight, leader' = ⟨key, flight, .live⟩)
    (hsubs : ∀ j, j ≠ i → cache'.subscribed j = cache.subscribed j)
    (hres : ∀ outcome, leader.flight.result = some outcome → leader'.flight.result = some outcome)
    (hok : cache'.LeaderOk i leader')
    (hfols : ∀ follower ∈ cache'.followers, follower ∈ cache.followers ∨ cache'.FollowerOk follower) :
    cache'.Flying := by
  have hlt : i < cache.leaders.length := (List.getElem?_eq_some_iff.1 hi).1
  have hset : cache'.leaders[i]? = some leader' := by rw [hlead, getElem?_set_self hlt]
  have hoth : ∀ j, j ≠ i → cache'.leaders[j]? = cache.leaders[j]? := fun j hj => by
    rw [hlead, getElem?_set_ne (Ne.symm hj)]
  have hkeep : ∀ j outcome, cache.result j = some outcome → cache'.result j = some outcome := by
    intro j outcome hj
    by_cases hji : j = i
    · subst hji
      rw [result_eq hset]
      exact hres outcome (result_eq hi ▸ hj)
    · rwa [result, hoth j hji]
  constructor
  · intro key j hlook
    by_cases hji : j = i
    · subst hji
      obtain ⟨flight, hflt⟩ := hown key hlook
      exact ⟨flight, hset.trans (congrArg some hflt)⟩
    · rw [hoth j hji]
      exact h.table key j ((hoths key j hji).1 hlook)
  · intro j other hj
    by_cases hji : j = i
    · subst hji
      exact some.inj (hset.symm.trans hj) ▸ hok
    · rw [hoth j hji] at hj
      obtain ⟨hph, hsub⟩ := h.leader j other hj
      exact ⟨hph.of_lookup (hoths _ j hji).2, by rw [hsubs j hji]; exact hsub⟩
  · intro follower hfol
    rcases hfols follower hfol with hold | hnew
    · obtain ⟨hflt, hout⟩ := h.follower follower hold
      exact ⟨by rw [hlead, length_set]; exact hflt, fun outcome ho => hkeep _ _ (hout outcome ho)⟩
    · exact hnew

/-- Only followers and stored responses are changed, and nobody leaves a flight. -/
theorem Flying.frame (h : cache.Flying) (hlead : cache'.leaders = cache.leaders)
    (hflig : cache'.state.flights = cache.state.flights) (hsubs : ∀ j, cache'.subscribed j = cache.subscribed j)
    (hfols : ∀ follower ∈ cache'.followers, cache.FollowerOk follower) : cache'.Flying := by
  have hres : ∀ i, cache'.result i = cache.result i := fun i => by rw [result, result, hlead]
  constructor
  · intro key i hlook
    rw [hlead]
    exact h.table key i (hflig ▸ hlook)
  · intro i leader hi
    obtain ⟨hph, hsub⟩ := h.leader i leader (hlead ▸ hi)
    exact ⟨hph.of_lookup fun hlook => hflig ▸ hlook, by rw [hsubs]; exact hsub⟩
  · intro follower hfol
    obtain ⟨hflt, hout⟩ := hfols follower hfol
    exact ⟨by rw [hlead]; exact hflt, fun outcome ho => by rw [hres]; exact hout outcome ho⟩

theorem modify_eq_set_of_get {α : Type} {l : List α} {i : ℕ} {a : α} (f : α → α) (h : l[i]? = some a) :
    l.modify i f = l.set i (f a) := by
  rw [modify_eq_set_getElem?, h]
  rfl

omit [DecidableEq κ] in
theorem notified_eq (i : ℕ) (follower : Follower κ) : follower.notified i = follower ∨
    (follower.phase = .waiting ∧ (follower.notified i).phase = .woken) := by
  unfold Follower.notified
  split_ifs with h
  · simp only [Bool.and_eq_true, decide_eq_true_eq] at h
    exact .inr ⟨h.2, rfl⟩
  · exact .inl rfl

omit [DecidableEq κ] in
theorem flight_notified (i : ℕ) (follower : Follower κ) : (follower.notified i).flight = follower.flight := by
  unfold Follower.notified
  split_ifs <;> rfl

omit [DecidableEq κ] in
theorem subscribed_notified (i : ℕ) (follower : Follower κ) :
    (follower.notified i).phase.subscribed = follower.phase.subscribed := by
  rcases notified_eq i follower with heq | ⟨hwt, hwok⟩
  · rw [heq]
  · rw [hwt, hwok]
    rfl

omit [DecidableEq κ] in
theorem subscribed_pos {j : ℕ} {follower} (hj : cache.followers[j]? = some follower)
    (hin : follower.phase.subscribed = true) : 0 < cache.subscribed follower.flight :=
  countP_pos_iff.2 ⟨follower, mem_of_getElem? hj, by simp [hin]⟩

variable {phase : FollowerPhase}

section Sections

variable {i j : ℕ} {key : κ} {flight : Flight}

/-- A live leader's flight is undecided, in the table, and counts its followers. -/
theorem Flying.live (h : cache.Flying) (hi : cache.leaders[i]? = some ⟨key, flight, .live⟩) :
    flight.result = none ∧ cache.state.flights.lookup key = some i ∧ flight.subscribers = 1 + cache.subscribed i := by
  obtain ⟨⟨hn, hlook⟩, hsub⟩ := h.leader i _ hi
  exact ⟨hn, hlook, hsub hn⟩

omit [DecidableEq κ] in
theorem completeFlight_eq {leader} (hi : cache.leaders[i]? = some leader)
    (hn : leader.flight.result = none) (outcome : FlightResult) :
    cache.completeFlight i i outcome =
      ⟨cache.state, cache.leaders.set i
        ⟨leader.key, { leader.flight with result := some outcome }, .notifying i outcome⟩, cache.followers⟩ := by
  have hlt : i < cache.leaders.length := (List.getElem?_eq_some_iff.1 hi).1
  have hset : ∀ leader' : Leader κ, (cache.leaders.set i leader')[i]? = some leader' := fun leader' =>
    getElem?_set_self hlt
  rw [completeFlight, result_eq hi, hn, if_neg (by simp), modifyFlight, modify_eq_set_of_get _ hi, setLeader,
    modify_eq_set_of_get _ (hset _), set_set]
  simp [Flight.complete, hn]

theorem publish_eq (h : cache.Flying) (hi : cache.leaders[i]? = some ⟨key, flight, .live⟩)
    (response : CachedResponse) (now : ℕ) : cache.publish policy i response now =
      ⟨(cache.state.store policy key response now).removeFlight cache.reserved key,
        cache.leaders.set i ⟨key, { flight with result := some .complete }, .notifying i .complete⟩,
        cache.followers⟩ := by
  obtain ⟨hn, hlook, -⟩ := h.live hi
  have hstd : (cache.state.store policy key response now).flights.lookup key = some i := by
    rw [(store_flights policy cache.state key response now).1]
    exact hlook
  have htkn : (({ cache with state := cache.state.store policy key response now } : Cache κ).takeFlight
      key).leaders[i]? = some ⟨key, flight, .live⟩ := hi
  simp only [publish, hi, completeTaken, hstd]
  exact completeFlight_eq htkn hn .complete

theorem join_eq (h : cache.Flying) (hi : cache.leaders[i]? = some ⟨key, flight, .live⟩) :
    cache.join key i = cache ∨ cache.join key i =
      ⟨cache.state, cache.leaders.set i ⟨key, { flight with subscribers := flight.subscribers + 1 }, .live⟩,
        cache.followers ++ [⟨key, i, .checking⟩]⟩ := by
  obtain ⟨hn, -, hsub⟩ := h.live hi
  rw [join]
  split_ifs with hfull
  · exact .inl rfl
  · right
    have hcap : flight.subscribers + 1 ≤ usizeMax := by
      simp only [isizeMax, usizeMax] at hfull ⊢
      omega
    rw [modifyFlight, modify_eq_set_of_get _ hi]
    simp [Flight.addSubscriber, hn, satAdd_eq_add hcap]

/-- A follower that leaves takes its subscription along and nothing else: the leader's is left. -/
theorem releaseFollower_eq (h : cache.Flying) {follower}
    (hj : cache.followers[j]? = some follower) (hin : follower.phase.subscribed = true)
    {leader} (hi : cache.leaders[follower.flight]? = some leader) :
    (cache.setFollower j phase).releaseFollower follower.flight =
      ⟨cache.state, cache.leaders.set follower.flight { leader with flight := leader.flight.dropSubscriber },
        cache.followers.set j { follower with phase }⟩ := by
  have hlt : follower.flight < cache.leaders.length := (List.getElem?_eq_some_iff.1 hi).1
  have hsub : leader.flight.result = none → 1 < leader.flight.subscribers := by
    intro hn
    have hcnt := subscribed_pos hj hin
    have := (h.leader _ leader hi).subscribers hn
    omega
  have haban : leader.flight.dropSubscriber.abandoned = false := by
    cases hr : leader.flight.result with
    | none =>
      have hne : leader.flight.subscribers - 1 ≠ 0 := by
        have := hsub hr
        omega
      simp [Flight.abandoned, Flight.dropSubscriber, hne]
    | some => simp [Flight.abandoned, Flight.dropSubscriber, hr]
  rw [releaseFollower, setFollower, modifyFlight, modify_eq_set_of_get _ hi, modify_eq_set_of_get _ hj]
  simp [getElem?_set_self hlt, haban]

end Sections

/-- The keys that an event uses: the one of a lookup that finds a response, and the one of a
response that is stored. -/
def uses (policy : CachePolicy) (cache : Cache κ) : CacheEvent κ → List κ
  | .get key now => if cache.state.hit policy key now then [key] else []
  | .publish i response _ =>
    match cache.leaders[i]? with
    | some ⟨key, _, .live⟩ => if response.bodyLen ≤ policy.maxBytes then [key] else []
    | _ => []
  | .collect j now =>
    match cache.followers[j]? with
    | some ⟨key, _, .returning _⟩ => if cache.state.hit policy key now then [key] else []
    | _ => []
  | _ => []

/-- The leader that announces its flight. -/
def announcer : CacheEvent κ → Option ℕ
  | .notify i => some i
  | _ => none

/-- Everything a lock section can do, with the keys it uses and the flight it announces. -/
inductive Transition (policy : CachePolicy) (cache : Cache κ) : List κ → Option ℕ → Cache κ → Prop
  | same (announced : Option ℕ) : Transition policy cache [] announced cache
  | looked (key : κ) (now : ℕ) : Transition policy cache (if cache.state.hit policy key now then [key] else []) none
      { cache with state := (cache.state.get policy key now).1 }
  | joined (key : κ) (i : ℕ) (flight : Flight) (live : cache.leaders[i]? = some ⟨key, flight, .live⟩) :
      Transition policy cache [] none
        ⟨cache.state, cache.leaders.set i ⟨key, { flight with subscribers := flight.subscribers + 1 }, .live⟩,
          cache.followers ++ [⟨key, i, .checking⟩]⟩
  | led (key : κ) (bytes : ℕ) (usable : policy.usable = true) (free : cache.state.flights.lookup key = none)
      (room : satAdd usizeMax cache.state.flightBytes bytes ≤ policy.maxBytes) :
      Transition policy cache [] none (cache.lead key bytes)
  | published (i : ℕ) (key : κ) (flight : Flight) (live : cache.leaders[i]? = some ⟨key, flight, .live⟩)
      (response : CachedResponse) (now : ℕ) :
      Transition policy cache (if response.bodyLen ≤ policy.maxBytes then [key] else []) none
        ⟨(cache.state.store policy key response now).removeFlight cache.reserved key,
          cache.leaders.set i ⟨key, { flight with result := some .complete }, .notifying i .complete⟩,
          cache.followers⟩
  | reserved (i : ℕ) (key : κ) (flight : Flight) (live : cache.leaders[i]? = some ⟨key, flight, .live⟩) (bytes : ℕ)
      (room : satAdd usizeMax (satAdd usizeMax cache.state.bytes cache.state.flightBytes) bytes ≤ policy.maxBytes) :
      Transition policy cache [] none
        ⟨{ cache.state with flightBytes := satAdd usizeMax cache.state.flightBytes bytes },
          cache.leaders.set i ⟨key, flight.addReservedBytes bytes, .live⟩, cache.followers⟩
  | failed (i : ℕ) (key : κ) (flight : Flight) (live : cache.leaders[i]? = some ⟨key, flight, .live⟩) :
      Transition policy cache [] none
        ⟨cache.state.removeFlight cache.reserved key, cache.leaders.set i ⟨key, flight, .failing i⟩, cache.followers⟩
  | failCompleted (i : ℕ) (key : κ) (flight : Flight) (failing : cache.leaders[i]? = some ⟨key, flight, .failing i⟩) :
      Transition policy cache [] none
        ⟨cache.state, cache.leaders.set i ⟨key, { flight with result := some .retry }, .notifying i .retry⟩,
          cache.followers⟩
  | notified (i : ℕ) (key : κ) (flight : Flight) (outcome : FlightResult)
      (notifying : cache.leaders[i]? = some ⟨key, flight, .notifying i outcome⟩) :
      Transition policy cache [] (some i)
        { cache.notifyWaiters i with leaders := cache.leaders.set i ⟨key, flight, .done outcome⟩ }
  | moved (j : ℕ) (follower : Follower κ) (phase : FollowerPhase) (present : cache.followers[j]? = some follower)
      (stays : follower.phase.subscribed = true ∧ phase.subscribed = true)
      (outcome : ∀ outcome, phase.outcome = some outcome → cache.result follower.flight = some outcome)
      (unseen : phase = .unseen → cache.result follower.flight = none)
      (waiting : phase = .waiting → follower.phase = .unseen) :
      Transition policy cache [] none { cache with followers := cache.followers.set j { follower with phase } }
  | left (j : ℕ) (follower : Follower κ) (leader : Leader κ) (phase : FollowerPhase)
      (present : cache.followers[j]? = some follower) (subscribed : follower.phase.subscribed = true)
      (flight : cache.leaders[follower.flight]? = some leader) (gone : phase.subscribed = false)
      (outcome : phase.outcome = none ∨ phase.outcome = follower.phase.outcome) :
      Transition policy cache [] none
        ⟨cache.state, cache.leaders.set follower.flight { leader with flight := leader.flight.dropSubscriber },
          cache.followers.set j { follower with phase }⟩
  | collected (j : ℕ) (key : κ) (flight : ℕ) (outcome : FlightResult) (now : ℕ)
      (present : cache.followers[j]? = some ⟨key, flight, .returning outcome⟩) :
      Transition policy cache (if cache.state.hit policy key now then [key] else []) none
        ⟨(cache.state.get policy key now).1, cache.leaders, cache.followers.set j ⟨key, flight, .returned outcome⟩⟩

theorem transition_check (j : ℕ) : Transition policy cache [] none (cache.check j) := by
  rw [check]
  split
  next flight hj =>
    rw [setFollower, modify_eq_set_of_get _ hj]
    cases hr : cache.result flight with
    | none => exact .moved j _ .unseen hj ⟨rfl, rfl⟩ nofun (fun _ => hr) nofun
    | some seen => exact .moved j _ (.observed seen) hj ⟨rfl, rfl⟩ (fun _ ho => hr.trans ho) nofun nofun
  · exact .same _

theorem transition_register (j : ℕ) : Transition policy cache [] none (cache.register j) := by
  rw [register]
  split
  next hj =>
    rw [setFollower, modify_eq_set_of_get _ hj]
    exact .moved j _ _ hj ⟨rfl, rfl⟩ (fun _ ho => by cases ho) (fun hu => by cases hu) (fun _ => rfl)
  · exact .same _

theorem transition_wake (j : ℕ) : Transition policy cache [] none (cache.wake j) := by
  rw [wake]
  split
  next hj =>
    rw [setFollower, modify_eq_set_of_get _ hj]
    exact .moved j _ _ hj ⟨rfl, rfl⟩ (fun _ ho => by cases ho) (fun hu => by cases hu) (fun hw => by cases hw)
  · exact .same _

theorem transition_collect (j now : ℕ) :
    Transition policy cache (cache.uses policy (.collect j now)) none (cache.collect policy j now) := by
  rw [collect]
  split
  next key flight outcome hj =>
    simp only [uses, hj, setFollower]
    rw [modify_eq_set_of_get _ hj]
    exact .collected j key flight outcome now hj
  next hoth =>
    have huses : cache.uses policy (.collect j now) = [] := by
      rw [uses]
      split
      next key flight outcome hj => exact absurd hj (hoth key flight outcome)
      · rfl
    rw [huses]
    exact .same _

section

variable (h : cache.Flying)
include h

theorem transition_begin (key : κ) (bytes : ℕ) :
    Transition policy cache [] none (cache.beginWithSize policy key bytes) := by
  rw [beginWithSize]
  split
  next husab =>
    split
    next i hlook =>
      obtain ⟨flight, hi⟩ := h.table key i hlook
      split
      · rcases join_eq h hi with heq | heq
        · rw [heq]; exact .same _
        · rw [heq]; exact .joined key i flight hi
      · exact .same _
    next hlook =>
      split
      · exact .same _
      next hfull =>
        simp only [Bool.or_eq_true, decide_eq_true_eq, not_or, not_lt] at hfull
        exact .led key bytes husab hlook hfull.2
  · exact .same _

theorem transition_reserve (i bytes : ℕ) : Transition policy cache [] none (cache.reserveResponse policy i bytes) := by
  rw [reserveResponse]
  split
  next key flight hi =>
    rw [(h.live hi).2.1]
    split_ifs with hover
    · exact .same _
    · dsimp only
      rw [modifyFlight, modify_eq_set_of_get _ hi]
      exact .reserved i key flight hi bytes (not_lt.1 hover)
  · exact .same _

variable (i : ℕ)

theorem transition_fail : Transition policy cache [] none (cache.fail i) := by
  rw [fail]
  split
  next key flight hi =>
    simp only [(h.live hi).2.1, takeFlight, setLeader]
    rw [modify_eq_set_of_get _ hi]
    exact .failed i key flight hi
  · exact .same _

theorem transition_failComplete : Transition policy cache [] none (cache.failComplete i) := by
  rw [failComplete]
  split
  next key flight f hi =>
    obtain ⟨⟨rfl, hn⟩, -⟩ := h.leader i _ hi
    rw [completeFlight_eq hi hn]
    exact .failCompleted f key flight hi
  · exact .same _

theorem transition_notify : Transition policy cache [] (some i) (cache.notify i) := by
  rw [notify]
  split
  next key flight f outcome hi =>
    obtain ⟨⟨rfl, -⟩, -⟩ := h.leader i _ hi
    rw [setLeader, show (cache.notifyWaiters f).leaders = cache.leaders from rfl, modify_eq_set_of_get _ hi]
    exact .notified f key flight outcome hi
  · exact .same _

theorem transition_leave {j : ℕ} {follower}
    (hj : cache.followers[j]? = some follower) (hin : follower.phase.subscribed = true)
    (hgone : phase.subscribed = false) (hout : phase.outcome = none ∨ phase.outcome = follower.phase.outcome) :
    Transition policy cache [] none ((cache.setFollower j phase).releaseFollower follower.flight) := by
  have hlt := (h.follower follower (mem_of_getElem? hj)).flight
  have hi : cache.leaders[follower.flight]? = some cache.leaders[follower.flight] := getElem?_eq_getElem hlt
  rw [releaseFollower_eq h hj hin hi]
  exact .left j follower _ phase hj hin hi hgone hout

theorem transition_cancel (j : ℕ) : Transition policy cache [] none (cache.cancel j) := by
  rw [cancel]
  split
  next hj => exact transition_leave h hj rfl rfl (.inl rfl)
  next hj => exact transition_leave h hj rfl rfl (.inl rfl)
  next hj => exact transition_leave h hj rfl rfl (.inl rfl)
  · exact .same _

theorem transition_release (j : ℕ) : Transition policy cache [] none (cache.release j) := by
  rw [release]
  split
  next hj => exact transition_leave h hj rfl rfl (.inr rfl)
  · exact .same _

theorem transition_publish (response : CachedResponse) (now : ℕ) :
    Transition policy cache (cache.uses policy (.publish i response now)) none
      (cache.publish policy i response now) := by
  rw [uses]
  split
  next key flight hi =>
    rw [publish_eq h hi]
    exact .published i key flight hi response now
  next hoth =>
    rw [publish]
    split
    next key flight hi => exact absurd hi (hoth key flight)
    · exact .same _

theorem step_transition (event : CacheEvent κ) :
    Transition policy cache (cache.uses policy event) (announcer event) (cache.step policy event) := by
  cases event with
  | get key now => exact .looked key now
  | begin key bytes => exact transition_begin h key bytes
  | publish i response now => exact transition_publish h i response now
  | reserve i bytes => exact transition_reserve h i bytes
  | fail i => exact transition_fail h i
  | failComplete i => exact transition_failComplete h i
  | notify i => exact transition_notify h i
  | check j => exact transition_check j
  | register j => exact transition_register j
  | wake j => exact transition_wake j
  | release j => exact transition_release h j
  | cancel j => exact transition_cancel h j
  | collect j now => exact transition_collect j now

end

section Kept

variable {i j : ℕ} {key : κ} {flight : Flight} {follower : Follower κ}

theorem Flying.eq_of_lookup (h : cache.Flying) {leader} (hi : cache.leaders[i]? = some leader)
    (hlook : cache.state.flights.lookup key = some i) : ∃ flight, leader = ⟨key, flight, .live⟩ := by
  obtain ⟨flight, hl⟩ := h.table key i hlook
  exact ⟨flight, some.inj (hi.symm.trans hl)⟩

omit [DecidableEq κ] in
theorem subscribed_set (i : ℕ) (phase : FollowerPhase) (hj : cache.followers[j]? = some follower) :
    (⟨cache.state, cache.leaders, cache.followers.set j { follower with phase }⟩ : Cache κ).subscribed i =
      cache.subscribed i - (if follower.flight = i && follower.phase.subscribed then 1 else 0) +
        (if follower.flight = i && phase.subscribed then 1 else 0) := by
  obtain ⟨hlt, hget⟩ := List.getElem?_eq_some_iff.1 hj
  rw [subscribed, countP_set hlt, hget]
  rfl

section

variable (h : cache.Flying)
include h

theorem followerOk_set (phase : FollowerPhase) (hj : cache.followers[j]? = some follower)
    (hout : ∀ outcome, phase.outcome = some outcome → cache.result follower.flight = some outcome) :
    ∀ f ∈ cache.followers.set j { follower with phase }, cache.FollowerOk f := by
  intro f hf
  rcases mem_or_eq_of_mem_set hf with hf | rfl
  · exact h.follower f hf
  · exact ⟨(h.follower follower (mem_of_getElem? hj)).flight, hout⟩

theorem Flying.taken (hi : cache.leaders[i]? = some ⟨key, flight, .live⟩) {leader state}
    (hflig : state.flights = cache.state.flights.erase key)
    (hph : (⟨state, cache.leaders.set i leader, cache.followers⟩ : Cache κ).PhaseOk i leader)
    (hsubsc : leader.flight.subscribers = flight.subscribers) :
    (⟨state, cache.leaders.set i leader, cache.followers⟩ : Cache κ).Flying := by
  obtain ⟨hn, hlook, hsub⟩ := h.live hi
  have herase : ∀ k, state.flights.lookup k = if k = key then none else cache.state.flights.lookup k := by
    intro k
    rw [hflig]
    split_ifs with hk
    · rw [hk, lookup_erase]
    · exact lookup_erase_ne hk
  refine h.update hi rfl ?_ ?_ (fun _ _ => rfl) (fun outcome ho => ?_) ⟨hph, fun _ => ?_⟩ (fun f hf => .inl hf)
  · intro k m hm
    rw [herase]
    split_ifs with hk
    · rw [hk, hlook]
      exact ⟨nofun, fun heq => absurd (some.inj heq).symm hm⟩
    · exact Iff.rfl
  · intro k hk
    rw [herase] at hk
    split_ifs at hk with hne
    obtain ⟨_, heq⟩ := h.eq_of_lookup hi hk
    exact absurd (congrArg Leader.key heq).symm hne
  · rw [hn] at ho
    cases ho
  · rw [hsubsc]
    exact hsub

theorem Flying.led (hfree : cache.state.flights.lookup key = none) (bytes : ℕ) : (cache.lead key bytes).Flying := by
  have hlast : (cache.lead key bytes).leaders[cache.leaders.length]? = some ⟨key, .new bytes, .live⟩ := by simp [lead]
  have hold : ∀ m, m < cache.leaders.length → (cache.lead key bytes).leaders[m]? = cache.leaders[m]? := fun m hm =>
    getElem?_append_left hm
  have hres : ∀ m, m < cache.leaders.length → (cache.lead key bytes).result m = cache.result m := fun m hm => by
    rw [result, result, hold m hm]
  have hlook : ∀ k, (cache.lead key bytes).state.flights.lookup k =
      if k = key then some cache.leaders.length else cache.state.flights.lookup k := by
    intro k
    split_ifs with hk
    · rw [hk]; exact lookup_insert _
    · exact lookup_insert_ne hk
  -- nobody follows the new flight yet
  have hcnt : cache.subscribed cache.leaders.length = 0 := by
    rw [subscribed, countP_eq_zero]
    intro f hf
    have := (h.follower f hf).flight
    have hne : f.flight ≠ cache.leaders.length := by omega
    simp [hne]
  constructor
  · intro k m hk
    rw [hlook] at hk
    split_ifs at hk with hkey
    · cases hk
      exact ⟨_, by rw [hlast, hkey]⟩
    · obtain ⟨f, hf⟩ := h.table k m hk
      rw [hold m (List.getElem?_eq_some_iff.1 hf).1]
      exact ⟨f, hf⟩
  · intro m leader hm
    by_cases hlt : m < cache.leaders.length
    · rw [hold m hlt] at hm
      obtain ⟨hph, hsub⟩ := h.leader m leader hm
      refine ⟨hph.of_lookup fun hown => ?_, hsub⟩
      rw [hlook, if_neg, hown]
      rintro rfl
      rw [hfree] at hown
      cases hown
    · have heq : m = cache.leaders.length := by
        have := (List.getElem?_eq_some_iff.1 hm).1
        simp only [lead, length_append, length_singleton] at this
        omega
      subst heq
      obtain rfl := some.inj (hlast.symm.trans hm)
      refine ⟨⟨rfl, ?_⟩, fun _ => ?_⟩
      · rw [hlook, if_pos rfl]
      · change 1 = 1 + cache.subscribed cache.leaders.length
        rw [hcnt]
  · intro f hf
    obtain ⟨hflt, hout⟩ := h.follower f hf
    refine ⟨?_, fun outcome ho => ?_⟩
    · simp only [lead, length_append, length_singleton]
      omega
    · rw [hres _ hflt]
      exact hout outcome ho

theorem Flying.joined (hi : cache.leaders[i]? = some ⟨key, flight, .live⟩) :
    (⟨cache.state, cache.leaders.set i ⟨key, { flight with subscribers := flight.subscribers + 1 }, .live⟩,
      cache.followers ++ [⟨key, i, .checking⟩]⟩ : Cache κ).Flying := by
  obtain ⟨hn, hlook, hsub⟩ := h.live hi
  have hlt : i < cache.leaders.length := (List.getElem?_eq_some_iff.1 hi).1
  refine h.update hi rfl (fun _ _ _ => Iff.rfl) ?_ ?_ (fun _ ho => ho) ⟨⟨hn, hlook⟩, fun _ => ?_⟩ ?_
  · intro k hk
    obtain ⟨_, heq⟩ := h.eq_of_lookup hi hk
    exact ⟨_, by rw [show key = k from congrArg Leader.key heq]⟩
  · intro m hm
    simp [subscribed, Ne.symm hm]
  · change flight.subscribers + 1 = _
    simp only [subscribed, countP_append, countP_singleton, hsub, decide_true, Bool.true_and,
      FollowerPhase.subscribed, if_true]
    omega
  · intro f hf
    rcases mem_append.1 hf with hf | hf
    · exact .inl hf
    · rw [mem_singleton.1 hf]
      exact .inr ⟨by simpa using hlt, fun _ ho => absurd ho (by simp [FollowerPhase.outcome])⟩

theorem Flying.left {leader} (hj : cache.followers[j]? = some follower)
    (hin : follower.phase.subscribed = true) (hi : cache.leaders[follower.flight]? = some leader)
    (hgone : phase.subscribed = false) (hout : phase.outcome = none ∨ phase.outcome = follower.phase.outcome) :
    (⟨cache.state, cache.leaders.set follower.flight { leader with flight := leader.flight.dropSubscriber },
      cache.followers.set j { follower with phase }⟩ : Cache κ).Flying := by
  have hok := h.leader _ leader hi
  have hcnt : ∀ m, (⟨cache.state,
      cache.leaders.set follower.flight { leader with flight := leader.flight.dropSubscriber },
      cache.followers.set j { follower with phase }⟩ : Cache κ).subscribed m =
        cache.subscribed m - if follower.flight = m then 1 else 0 := by
    intro m
    have := subscribed_set m phase hj
    simp only [hin, hgone, Bool.and_true, Bool.and_false, decide_eq_true_eq, Bool.false_eq_true, if_false] at this
    exact this
  have hres : ∀ m, (⟨cache.state,
      cache.leaders.set follower.flight { leader with flight := leader.flight.dropSubscriber },
      cache.followers.set j { follower with phase }⟩ : Cache κ).result m = cache.result m := by
    intro m
    by_cases hm : follower.flight = m
    · subst hm
      rw [result, List.getElem?_set_self (List.getElem?_eq_some_iff.1 hi).1, result_eq hi]
      rfl
    · rw [result, result, getElem?_set_ne hm]
  refine h.update hi rfl (fun _ _ _ => Iff.rfl) ?_ ?_ (fun _ ho => ho) ⟨hok.phase, fun hn => ?_⟩ ?_
  · intro k hk
    obtain ⟨_, heq⟩ := h.eq_of_lookup hi hk
    exact ⟨_, by rw [heq]⟩
  · intro m hm
    rw [hcnt, if_neg (Ne.symm hm), Nat.sub_zero]
  · have hsub := hok.subscribers hn
    have hpos := subscribed_pos hj hin
    rw [hcnt, if_pos rfl]
    change leader.flight.subscribers - 1 = _
    omega
  · intro f hf
    rcases mem_or_eq_of_mem_set hf with hf | rfl
    · exact .inl hf
    · obtain ⟨hflt, hold⟩ := h.follower follower (mem_of_getElem? hj)
      refine .inr ⟨by simpa using hflt, fun outcome ho => ?_⟩
      rw [hres]
      rcases hout with hn | hs
      · exact absurd (hn.symm.trans ho) nofun
      · exact hold outcome (hs ▸ ho)

theorem Flying.notified {outcome} (hi : cache.leaders[i]? = some ⟨key, flight, .notifying i outcome⟩) :
    ({ cache.notifyWaiters i with leaders := cache.leaders.set i ⟨key, flight, .done outcome⟩ } : Cache κ).Flying := by
  obtain ⟨⟨-, hsome⟩, hsub⟩ := h.leader i _ hi
  have hcnt : ∀ m, ({ cache.notifyWaiters i with
      leaders := cache.leaders.set i ⟨key, flight, .done outcome⟩ } : Cache κ).subscribed m = cache.subscribed m := by
    intro m
    rw [subscribed, notifyWaiters, countP_map]
    refine countP_congr fun f _ => ?_
    rw [Function.comp_apply, flight_notified, subscribed_notified]
  refine h.update hi rfl (fun _ _ _ => Iff.rfl) ?_ (fun m _ => hcnt m) (fun _ ho => ho)
    ⟨hsome, fun hn => absurd (hsome.symm.trans hn) nofun⟩ ?_
  · intro k hk
    obtain ⟨_, heq⟩ := h.eq_of_lookup hi hk
    cases heq
  · intro f hf
    obtain ⟨g, hg, rfl⟩ := mem_map.1 hf
    rcases notified_eq i g with heq | ⟨-, hwok⟩
    · rw [heq]
      exact .inl hg
    · refine .inr ⟨?_, fun _ ho => ?_⟩
      · simpa [flight_notified] using (h.follower g hg).flight
      · rw [hwok] at ho
        cases ho

theorem Flying.transition {used announced} (ht : Transition policy cache used announced cache') : cache'.Flying := by
  cases ht with
  | same => exact h
  | looked key now => exact h.frame rfl (get_flights policy key now cache.state).1 (fun _ => rfl) h.follower
  | joined key i flight hi => exact h.joined hi
  | led key bytes _ hfree => exact h.led hfree bytes
  | published i key flight hi response now =>
    refine h.taken hi ?_ ⟨rfl, rfl⟩ rfl
    rw [CacheState.removeFlight, (store_flights policy cache.state key response now).1]
  | reserved i key flight hi =>
    obtain ⟨hn, hlook, hsub⟩ := h.live hi
    refine h.update hi rfl (fun _ _ _ => Iff.rfl) ?_ (fun _ _ => rfl) (fun _ ho => ho)
      ⟨⟨hn, hlook⟩, fun _ => hsub⟩ (fun f hf => .inl hf)
    intro k hk
    obtain ⟨_, heq⟩ := h.eq_of_lookup hi hk
    exact ⟨_, by rw [show key = k from congrArg Leader.key heq]⟩
  | failed i key flight hi => exact h.taken hi rfl ⟨rfl, (h.live hi).1⟩ rfl
  | failCompleted i key flight hi =>
    obtain ⟨⟨-, hn⟩, -⟩ := h.leader i _ hi
    refine h.update hi rfl (fun _ _ _ => Iff.rfl) ?_ (fun _ _ => rfl) (fun outcome ho => ?_)
      ⟨⟨rfl, rfl⟩, nofun⟩ (fun f hf => .inl hf)
    · intro k hk
      obtain ⟨_, heq⟩ := h.eq_of_lookup hi hk
      cases heq
    · exact absurd (hn.symm.trans ho) nofun
  | notified i key flight outcome hi => exact h.notified hi
  | moved j follower phase hj hstays hout =>
    refine h.frame rfl rfl (fun m => ?_) (followerOk_set h phase hj hout)
    have hcnt := subscribed_set m phase hj
    simp only [hstays.1, hstays.2, Bool.and_true, decide_eq_true_eq] at hcnt
    refine hcnt.trans ?_
    split_ifs with hm
    · have hpos := subscribed_pos hj hstays.1
      rw [hm] at hpos
      omega
    · rfl
  | left j follower leader phase hj hin hi hgone hout => exact h.left hj hin hi hgone hout
  | collected j key flight outcome now hj =>
    have hget := get_flights policy key now cache.state
    refine h.frame rfl hget.1 (fun m => ?_)
      (followerOk_set h (.returned outcome) hj (h.follower _ (mem_of_getElem? hj)).outcome)
    have hcnt := subscribed_set m (.returned outcome) hj
    simp only [FollowerPhase.subscribed, Bool.and_false, Bool.false_eq_true, if_false, Nat.sub_zero,
      Nat.add_zero] at hcnt
    exact hcnt

end

end Kept

end Cache

end Pooler
