import Pooler.Spec.Time

/-! # Refresh of stored OAuth tokens (`pooler-auth/src/lib.rs`, `pooler-auth/src/oauth.rs`)

The calls of one credential and fingerprint through one coordinator, over a memory store. One event
is one lock section, or a step of the provider. A caller is suspended, and so can be dropped, only
where the code awaits something that is not ready: the provider's answer, or the leader's. -/

namespace Pooler

open Lib

inductive RefreshError where
  | cancelled
  | needsReauth
  | generationConflict
  | noRefreshToken
  | storeNotFound
  /-- Another error of the provider or the transport. -/
  | provider
  deriving DecidableEq, Repr

/-- `τ` is the type of token sets. -/
structure TokenSnapshot (τ : Type) where
  generation : ℕ
  tokens : τ
  deriving DecidableEq

/-- The snapshot `compare_and_swap` leaves for the current one. -/
def TokenSnapshot.next {τ : Type} (current : TokenSnapshot τ) (tokens : τ) : TokenSnapshot τ :=
  ⟨satAdd u64Max current.generation 1, tokens⟩

inductive RenewalStrategy where
  | refreshToken
  | grantAware
  deriving DecidableEq, Repr

/-- What a call of `refresh_with_store` or `renew_with_store` asks for. -/
structure RenewalRequest where
  expectedGeneration : Option ℕ
  strategy : RenewalStrategy
  deriving DecidableEq, Repr

abbrev RefreshOutcome (τ : Type) := Except RefreshError τ

/-- Where the call that holds the lease stands. -/
inductive LeaderStage (τ : Type) where
  | acquired
  /-- It awaits the provider, for the snapshot it loaded. -/
  | renewing (started : TokenSnapshot τ)
  | renewed (started : TokenSnapshot τ) (tokens : τ)
  | rejected (started : TokenSnapshot τ)
  | finishing (outcome : RefreshOutcome τ)
  | published (outcome : RefreshOutcome τ)
  | removed (outcome : RefreshOutcome τ)
  | done (outcome : RefreshOutcome τ)
  deriving DecidableEq

/-- A refresh entry with the call that leads it. -/
structure RefreshEntry (τ : Type) where
  request : RenewalRequest
  stage : LeaderStage τ
  result : Option (RefreshOutcome τ)
  /-- `notify_waiters` was called. -/
  notified : Bool
  deriving DecidableEq

/-- Where a call that found the entry taken stands in `wait_for_refresh`. -/
inductive WaiterStage (τ : Type) where
  | registering
  /-- It holds a `Notified`; `late` says that it was made after the notification. -/
  | looking (late : Bool)
  | awaiting (late : Bool)
  | returned (outcome : RefreshOutcome τ)
  /-- Its own cancellation, or its future was dropped. -/
  | gone
  deriving DecidableEq

def WaiterStage.pending {τ : Type} : WaiterStage τ → Bool
  | .registering | .looking _ | .awaiting _ => true
  | .returned _ | .gone => false

structure RefreshWaiter (τ : Type) where
  entry : ℕ
  stage : WaiterStage τ
  deriving DecidableEq

/-- `entries` are all entries ever made, `active` is the one in the coordinator's map. `renewals` is
history: the generations from which a renewal returned tokens. -/
structure Refreshing (τ : Type) where
  active : Option ℕ
  entries : List (RefreshEntry τ)
  waiters : List (RefreshWaiter τ)
  store : Option (TokenSnapshot τ)
  renewals : List ℕ

namespace Refreshing

variable {τ : Type} (store : Option (TokenSnapshot τ))

def start : Refreshing τ := ⟨none, [], [], store, []⟩

inductive ProviderAnswer (τ : Type) where
  | tokens (tokens : τ)
  | needsReauth
  | error (error : RefreshError)

inductive Event (τ : Type) where
  | call (request : RenewalRequest)
  /-- The leader loads the snapshot and turns to the provider. -/
  | load (entry : ℕ)
  | answer (entry : ℕ) (answer : ProviderAnswer τ)
  /-- The leader writes the tokens it got. -/
  | commit (entry : ℕ)
  /-- The leader looks at the store again after a rejected grant. -/
  | reload (entry : ℕ)
  | cancelLeader (entry : ℕ)
  | dropLeader (entry : ℕ)
  | publish (entry : ℕ)
  | remove (entry : ℕ)
  | notify (entry : ℕ)
  | register (waiter : ℕ)
  | look (waiter : ℕ)
  | wake (waiter : ℕ)
  | cancelWaiter (waiter : ℕ)
  | dropWaiter (waiter : ℕ)
  /-- Another writer's `compare_and_swap`. -/
  | write (expectedGeneration : ℕ) (tokens : τ)

def compareAndSwap (expectedGeneration : ℕ) (tokens : τ) :
    Option (TokenSnapshot τ) :=
  store.map fun current => if current.generation = expectedGeneration then current.next tokens else current

variable (s : Refreshing τ) (i : ℕ)

def setStage (stage : LeaderStage τ) : Refreshing τ :=
  { s with entries := s.entries.modify i fun entry => { entry with stage := stage } }

def setWaiter (stage : WaiterStage τ) : Refreshing τ :=
  { s with waiters := s.waiters.modify i fun waiter => { waiter with stage := stage } }

def stage : Option (LeaderStage τ) := s.entries[i]?.map (·.stage)

def waiterStage : Option (WaiterStage τ) := s.waiters[i]?.map (·.stage)

def call (request : RenewalRequest) : Refreshing τ :=
  match s.active with
  | some i => { s with waiters := s.waiters ++ [⟨i, .registering⟩] }
  | none =>
    { s with
      active := some s.entries.length
      entries := s.entries ++ [⟨request, .acquired, none, false⟩] }

variable (hasRefreshToken : τ → Bool)

def afterLoad (request : RenewalRequest) (store : Option (TokenSnapshot τ)) : LeaderStage τ :=
  match store with
  | none => .finishing (.error .noRefreshToken)
  | some snapshot =>
    if request.expectedGeneration.any (· != snapshot.generation) then .finishing (.ok snapshot.tokens)
    else if request.strategy = .refreshToken && !hasRefreshToken snapshot.tokens then
      .finishing (.error .noRefreshToken)
    else .renewing snapshot

def load (s : Refreshing τ) (i : ℕ) : Refreshing τ :=
  match s.entries[i]? with
  | some ⟨request, .acquired, _, _⟩ => s.setStage i (afterLoad hasRefreshToken request s.store)
  | _ => s

def answer (i : ℕ) (answer : ProviderAnswer τ) : Refreshing τ :=
  match s.stage i with
  | some (.renewing started) =>
    match answer with
    | .tokens tokens => { s.setStage i (.renewed started tokens) with renewals := s.renewals ++ [started.generation] }
    | .needsReauth => s.setStage i (.rejected started)
    | .error error => s.setStage i (.finishing (.error error))
  | _ => s

variable (i : ℕ)

def commit : Refreshing τ :=
  match s.stage i with
  | some (.renewed started tokens) =>
    match s.store with
    | none => s.setStage i (.finishing (.error .storeNotFound))
    | some current =>
      if current.generation = started.generation then
        { s.setStage i (.finishing (.ok tokens)) with
          store := compareAndSwap s.store started.generation tokens }
      else s.setStage i (.finishing (.error .generationConflict))
  | _ => s

def reload : Refreshing τ :=
  match s.stage i with
  | some (.rejected started) =>
    match s.store with
    | none => s.setStage i (.finishing (.error .noRefreshToken))
    | some current =>
      if current.generation ≠ started.generation then s.setStage i (.finishing (.ok current.tokens))
      else s.setStage i (.finishing (.error .needsReauth))
  | _ => s

/-- The select takes the cancellation before the operation has started, or while it awaits. -/
def cancelLeader : Refreshing τ :=
  match s.stage i with
  | some .acquired => s.setStage i (.finishing (.error .cancelled))
  | some (.renewing _) => s.setStage i (.finishing (.error .cancelled))
  | _ => s

/-- The guard of a dropped leader goes through the same sections as a finished one. -/
def dropLeader : Refreshing τ :=
  match s.stage i with
  | some (.renewing _) => s.setStage i (.finishing (.error .cancelled))
  | _ => s

def publish : Refreshing τ :=
  match s.stage i with
  | some (.finishing outcome) =>
    { s with
      entries := s.entries.modify i fun entry => { entry with stage := .published outcome, result := some outcome } }
  | _ => s

/-- `remove_entry`: only the entry itself is taken out of the map. -/
def remove : Refreshing τ :=
  match s.stage i with
  | some (.published outcome) =>
    { s.setStage i (.removed outcome) with active := if s.active = some i then none else s.active }
  | _ => s

def notify : Refreshing τ :=
  match s.stage i with
  | some (.removed outcome) =>
    { s with
      entries := s.entries.modify i fun entry => { entry with stage := .done outcome, notified := true } }
  | _ => s

/-- Makes the `Notified` future, which knows the notifications before it. -/
def register : Refreshing τ :=
  match s.waiters[i]? with
  | some ⟨entry, .registering⟩ => s.setWaiter i (.looking (s.entries[entry]?.any (·.notified)))
  | _ => s

def look : Refreshing τ :=
  match s.waiters[i]? with
  | some ⟨entry, .looking late⟩ =>
    match s.entries[entry]?.bind (·.result) with
    | some outcome => s.setWaiter i (.returned outcome)
    | none => s.setWaiter i (.awaiting late)
  | _ => s

/-- The wait ends by a notification after the future was made. -/
def wake : Refreshing τ :=
  match s.waiters[i]? with
  | some ⟨entry, .awaiting late⟩ =>
    if s.entries[entry]?.any (·.notified) && !late then s.setWaiter i .registering else s
  | _ => s

def cancelWaiter : Refreshing τ := if (s.waiterStage i).any WaiterStage.pending then s.setWaiter i .gone else s

def dropWaiter : Refreshing τ :=
  match s.waiterStage i with
  | some (.awaiting _) => s.setWaiter i .gone
  | _ => s

def step (s : Refreshing τ) : Event τ → Refreshing τ
  | .call request => s.call request
  | .load i => s.load hasRefreshToken i
  | .answer i answer => s.answer i answer
  | .commit i => s.commit i
  | .reload i => s.reload i
  | .cancelLeader i => s.cancelLeader i
  | .dropLeader i => s.dropLeader i
  | .publish i => s.publish i
  | .remove i => s.remove i
  | .notify i => s.notify i
  | .register i => s.register i
  | .look i => s.look i
  | .wake i => s.wake i
  | .cancelWaiter i => s.cancelWaiter i
  | .dropWaiter i => s.dropWaiter i
  | .write expectedGeneration tokens => { s with store := compareAndSwap s.store expectedGeneration tokens }

end Refreshing

end Pooler
