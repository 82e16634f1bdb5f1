import Pooler.Lib.Recency
import Pooler.Spec.Http.CacheKey
import Pooler.Spec.Time

/-! The response cache of a route: completed responses in order of last use, and the requests in
flight, each with the caller that fetches the response and the callers that wait for it. One event
is one lock section. -/

namespace Pooler

open Lib

def isizeMax : ℕ := 2 ^ 63 - 1

/-- The bounds of a route's cache. `compile_cache` allows 64 MiB at most; half the address space
is all that is used of it. -/
structure CachePolicy where
  enabled : Bool
  (ttl maxEntries maxBytes : ℕ)
  coalesce : Bool
  maxBytes_le : 2 * maxBytes ≤ usizeMax

def CachePolicy.usable (policy : CachePolicy) : Bool :=
  policy.enabled && policy.ttl != 0 && 0 < policy.maxEntries && 0 < policy.maxBytes

structure CachedResponse where
  (status version : ℕ)
  headers : HeaderMap
  body : Slice
  deriving DecidableEq

def CachedResponse.bodyLen (response : CachedResponse) : ℕ := response.body.bytes.length

structure CacheEntry where
  response : CachedResponse
  expiresAt : ℕ
  deriving DecidableEq

inductive FlightResult where
  | complete
  | retry
  deriving DecidableEq, Repr

/-- What the leader and the followers of a request share. -/
structure Flight where
  result : Option FlightResult
  (subscribers reservedBytes : ℕ)
  deriving DecidableEq, Repr

namespace Flight

def new (reservedBytes : ℕ) : Flight := ⟨none, 1, reservedBytes⟩

variable (flight : Flight)

def addSubscriber : Flight :=
  if flight.result.isNone then { flight with subscribers := satAdd usizeMax flight.subscribers 1 } else flight

/-- A result stays once it is there. -/
def complete (result : FlightResult) (flight : Flight) : Flight :=
  if flight.result.isSome then flight else { flight with result := some result }

/-- The count after a follower has left. -/
def dropSubscriber : Flight := { flight with subscribers := flight.subscribers - 1 }

/-- Nobody is left, and nothing was decided. -/
def abandoned : Bool := flight.subscribers = 0 && flight.result.isNone

def addReservedBytes (bytes : ℕ) (flight : Flight) : Flight :=
  { flight with reservedBytes := satAdd usizeMax flight.reservedBytes bytes }

end Flight

/-- The cache behind its lock. A flight is named by the number of its leader. -/
structure CacheState (κ : Type) where
  entries : AList (fun _ : κ => CacheEntry)
  order : List κ
  bytes : ℕ
  flights : AList (fun _ : κ => ℕ)
  flightBytes : ℕ

namespace CacheState

variable {κ : Type} [DecidableEq κ]

def removeEntry (state : CacheState κ) (key : κ) : CacheState κ :=
  { state with
    entries := state.entries.erase key
    bytes := state.bytes - ((state.entries.lookup key).elim 0 (·.response.bodyLen))
    order := state.order.filter (· ≠ key) }

variable (policy : CachePolicy)

/-- A lookup drops an expired response and makes any other the latest. -/
def get (key : κ) (now : ℕ) (state : CacheState κ) :
    CacheState κ × Option CachedResponse :=
  if policy.usable then
    match state.entries.lookup key with
    | none => (state, none)
    | some entry =>
      if entry.expiresAt ≤ now then (state.removeEntry key, none)
      else ({ state with order := touch key state.order }, some entry.response)
  else (state, none)

def overfull (state : CacheState κ) : Bool :=
  policy.maxEntries < state.entries.keys.length || policy.maxBytes < state.bytes

/-- Drops responses from the front of the order. Each round takes one key off the order, so the
length of the order is enough fuel. -/
def evict (policy : CachePolicy) : ℕ → CacheState κ → CacheState κ
  | 0, state => state
  | fuel + 1, state =>
    if state.overfull policy then
      match state.order with
      | [] => state
      | oldest :: rest => evict policy fuel ({ state with order := rest }.removeEntry oldest)
    else state

/-- Replaces the response of a key and makes it the latest. -/
def insertEntry (key : κ) (entry : CacheEntry) (state : CacheState κ) : CacheState κ :=
  { state with
    entries := state.entries.insert key entry
    bytes := satAdd usizeMax (state.bytes - ((state.entries.lookup key).elim 0 (·.response.bodyLen)))
      entry.response.bodyLen
    order := touch key state.order }

/-- The part of `publish` that keeps the response, if it is small enough. -/
def store (key : κ) (response : CachedResponse) (now : ℕ) (state : CacheState κ) :
    CacheState κ :=
  if response.bodyLen ≤ policy.maxBytes then
    let filled := state.insertEntry key ⟨response, now + policy.ttl⟩
    filled.evict policy filled.order.length
  else state

/-- Takes the flight of a key off the table, with what it had reserved. -/
def removeFlight (reserved : ℕ → ℕ) (key : κ) (state : CacheState κ) : CacheState κ :=
  { state with
    flights := state.flights.erase key
    flightBytes := state.flightBytes - ((state.flights.lookup key).elim 0 reserved) }

end CacheState

/-- Where a leader is. `publish` and `fail` take the flight off the table first; a flight that was
completed is announced in a step of its own. -/
inductive LeaderPhase where
  | live
  | failing (flight : ℕ)
  | notifying (flight : ℕ) (outcome : FlightResult)
  | done (outcome : FlightResult)
  deriving DecidableEq, Repr

/-- The caller that fetches the response, with the flight it opened. -/
structure Leader (κ : Type) where
  key : κ
  flight : Flight
  phase : LeaderPhase
  deriving DecidableEq, Repr

/-- Where a follower is in `wait`: before it reads the result, between reading that there is none
and registering with the notifier, registered, notified, and after it has read the result. -/
inductive FollowerPhase where
  | checking
  | unseen
  | waiting
  | woken
  | observed (outcome : FlightResult)
  | returning (outcome : FlightResult)
  | returned (outcome : FlightResult)
  | dropped
  deriving DecidableEq, Repr

/-- The follower still counts as a subscriber of its flight. -/
def FollowerPhase.subscribed : FollowerPhase → Bool
  | .returning _ | .returned _ | .dropped => false
  | _ => true

structure Follower (κ : Type) where
  key : κ
  flight : ℕ
  phase : FollowerPhase
  deriving DecidableEq, Repr

/-- Notifications of a flight reach its registered followers only. -/
def Follower.notified {κ : Type} (flight : ℕ) (follower : Follower κ) : Follower κ :=
  if follower.flight = flight && follower.phase = .waiting then { follower with phase := .woken } else follower

/-- The cache with everybody who uses it. -/
structure Cache (κ : Type) where
  state : CacheState κ
  leaders : List (Leader κ)
  followers : List (Follower κ)

namespace Cache

variable {κ : Type} [DecidableEq κ]

def empty : Cache κ := ⟨⟨∅, [], 0, ∅, 0⟩, [], []⟩

def modifyFlight (i : ℕ) (f : Flight → Flight) (cache : Cache κ) : Cache κ :=
  { cache with leaders := cache.leaders.modify i (fun leader => { leader with flight := f leader.flight }) }

def setLeader (i : ℕ) (phase : LeaderPhase) (cache : Cache κ) : Cache κ :=
  { cache with leaders := cache.leaders.modify i ({ · with phase }) }

def setFollower (j : ℕ) (phase : FollowerPhase) (cache : Cache κ) : Cache κ :=
  { cache with followers := cache.followers.modify j ({ · with phase }) }

variable (cache : Cache κ) (i : ℕ)

def result : Option FlightResult := cache.leaders[i]?.bind (·.flight.result)

def reserved : ℕ := (cache.leaders[i]?).elim 0 (·.flight.reservedBytes)

/-- The followers that still count as subscribers of a flight. -/
def subscribed : ℕ := cache.followers.countP (fun follower => follower.flight = i && follower.phase.subscribed)

def notifyWaiters (cache : Cache κ) : Cache κ := { cache with followers := cache.followers.map (Follower.notified i) }

/-- Joins a flight. Each follower holds a reference to it, and the process aborts when there are
more of those than a reference count can hold. -/
def join (key : κ) (i : ℕ) (cache : Cache κ) : Cache κ :=
  if isizeMax ≤ cache.subscribed i then cache
  else
    { cache.modifyFlight i Flight.addSubscriber with
      followers := cache.followers ++ [⟨key, i, .checking⟩] }

/-- Opens a flight. -/
def lead (key : κ) (requestBytes : ℕ) (cache : Cache κ) : Cache κ :=
  { cache with
    state := { cache.state with
      flightBytes := satAdd usizeMax cache.state.flightBytes requestBytes
      flights := cache.state.flights.insert key cache.leaders.length }
    leaders := cache.leaders ++ [⟨key, .new requestBytes, .live⟩] }

variable (policy : CachePolicy)

def beginWithSize (key : κ) (requestBytes : ℕ) (cache : Cache κ) : Cache κ :=
  if policy.usable then
    match cache.state.flights.lookup key with
    | some i => if policy.coalesce then cache.join key i else cache
    | none =>
      if policy.maxEntries ≤ cache.state.flights.keys.length || policy.maxBytes < requestBytes ||
          policy.maxBytes < satAdd usizeMax cache.state.flightBytes requestBytes then cache
      else cache.lead key requestBytes
  else cache

/-- Sets the result of a flight. Whoever does so announces it in the next step. -/
def completeFlight (i flight : ℕ) (outcome : FlightResult) (cache : Cache κ) : Cache κ :=
  if (cache.result flight).isSome then cache.setLeader i (.done outcome)
  else (cache.modifyFlight flight (Flight.complete outcome)).setLeader i (.notifying flight outcome)

/-- Takes the flight of the leader's key off the table. -/
def takeFlight (key : κ) (cache : Cache κ) : Cache κ :=
  { cache with state := cache.state.removeFlight cache.reserved key }

variable (i : ℕ)

/-- The end of `publish`: the flight leaves the table and is completed. -/
def completeTaken (key : κ) (cache : Cache κ) : Cache κ :=
  match cache.state.flights.lookup key with
  | none => cache.setLeader i (.done .complete)
  | some flight => (cache.takeFlight key).completeFlight i flight .complete

def publish (response : CachedResponse) (now : ℕ) (cache : Cache κ) : Cache κ :=
  match cache.leaders[i]? with
  | some ⟨key, _, .live⟩ => { cache with state := cache.state.store policy key response now }.completeTaken i key
  | _ => cache

def reserveResponse (i responseBytes : ℕ) (cache : Cache κ) : Cache κ :=
  match cache.leaders[i]? with
  | some ⟨key, _, .live⟩ =>
    if policy.maxBytes <
        satAdd usizeMax (satAdd usizeMax cache.state.bytes cache.state.flightBytes) responseBytes then cache
    else
      match cache.state.flights.lookup key with
      | none => cache
      | some flight =>
        { cache.modifyFlight flight (Flight.addReservedBytes responseBytes) with
          state := { cache.state with flightBytes := satAdd usizeMax cache.state.flightBytes responseBytes } }
  | _ => cache

/-- The first section of `fail`, also when a leader is dropped. -/
def fail (cache : Cache κ) : Cache κ :=
  match cache.leaders[i]? with
  | some ⟨key, _, .live⟩ =>
    match cache.state.flights.lookup key with
    | none => cache.setLeader i (.done .retry)
    | some flight => (cache.takeFlight key).setLeader i (.failing flight)
  | _ => cache

/-- The second section of `fail`. -/
def failComplete (cache : Cache κ) : Cache κ :=
  match cache.leaders[i]? with
  | some ⟨_, _, .failing flight⟩ => cache.completeFlight i flight .retry
  | _ => cache

def notify (cache : Cache κ) : Cache κ :=
  match cache.leaders[i]? with
  | some ⟨_, _, .notifying flight outcome⟩ => (cache.notifyWaiters flight).setLeader i (.done outcome)
  | _ => cache

/-- `release_follower`: the last subscriber completes a flight that nobody has decided. -/
def releaseFollower (flight : ℕ) (cache : Cache κ) : Cache κ :=
  let left := cache.modifyFlight flight Flight.dropSubscriber
  if (left.leaders[flight]?).elim false (·.flight.abandoned) then
    (left.modifyFlight flight (Flight.complete .retry)).notifyWaiters flight
  else left

variable (j : ℕ) (cache : Cache κ)

/-- The follower reads the result of its flight. -/
def check : Cache κ :=
  match cache.followers[j]? with
  | some ⟨_, flight, .checking⟩ => cache.setFollower j ((cache.result flight).elim .unseen .observed)
  | _ => cache

def register : Cache κ :=
  match cache.followers[j]? with
  | some ⟨_, _, .unseen⟩ => cache.setFollower j .waiting
  | _ => cache

/-- The follower goes on after it was notified. -/
def wake : Cache κ :=
  match cache.followers[j]? with
  | some ⟨_, _, .woken⟩ => cache.setFollower j .checking
  | _ => cache

/-- A follower that has read the result leaves the flight. -/
def release : Cache κ :=
  match cache.followers[j]? with
  | some ⟨_, flight, .observed outcome⟩ => (cache.setFollower j (.returning outcome)).releaseFollower flight
  | _ => cache

/-- A follower is cancelled, or dropped before it waits. -/
def cancel : Cache κ :=
  match cache.followers[j]? with
  | some ⟨_, flight, .checking⟩ | some ⟨_, flight, .waiting⟩ | some ⟨_, flight, .woken⟩ =>
    (cache.setFollower j .dropped).releaseFollower flight
  | _ => cache

/-- A follower looks the response up and returns. -/
def collect (j now : ℕ) (cache : Cache κ) : Cache κ :=
  match cache.followers[j]? with
  | some ⟨key, _, .returning outcome⟩ =>
    { cache with state := (cache.state.get policy key now).1 }.setFollower j (.returned outcome)
  | _ => cache

end Cache

inductive CacheEvent (κ : Type) where
  | get (key : κ) (now : ℕ)
  | begin (key : κ) (requestBytes : ℕ)
  | publish (leader : ℕ) (response : CachedResponse) (now : ℕ)
  | reserve (leader responseBytes : ℕ)
  | fail (leader : ℕ)
  | failComplete (leader : ℕ)
  | notify (leader : ℕ)
  | check (follower : ℕ)
  | register (follower : ℕ)
  | wake (follower : ℕ)
  | release (follower : ℕ)
  | cancel (follower : ℕ)
  | collect (follower now : ℕ)

namespace Cache

variable {κ : Type} [DecidableEq κ]

def step (policy : CachePolicy) (cache : Cache κ) : CacheEvent κ → Cache κ
  | .get key now => { cache with state := (cache.state.get policy key now).1 }
  | .begin key requestBytes => cache.beginWithSize policy key requestBytes
  | .publish i response now => cache.publish policy i response now
  | .reserve i responseBytes => cache.reserveResponse policy i responseBytes
  | .fail i => cache.fail i
  | .failComplete i => cache.failComplete i
  | .notify i => cache.notify i
  | .check j => cache.check j
  | .register j => cache.register j
  | .wake j => cache.wake j
  | .release j => cache.release j
  | .cancel j => cache.cancel j
  | .collect j now => cache.collect policy j now

end Cache

end Pooler
