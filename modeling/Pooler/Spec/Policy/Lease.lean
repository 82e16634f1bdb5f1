import Pooler.Spec.Policy.Select

/-! Leases over time. A world holds registries and every lease they ever granted; its
events are the calls on a registry and what callers do with a lease. -/

namespace Pooler

open Lib

structure QuotaRecovery where
  healthMutation : HealthMutation
  retryDecision : RetryDecision
  selection : Option LeaseGrant
  noEligible : Option SelectionExplanation

/-- The replacement lease that a recovery hands out. -/
def QuotaRecovery.leaseOf (result : Except SelectionError QuotaRecovery) : Option LeaseGrant :=
  result.toOption.bind QuotaRecovery.selection

/-- How the next attempt leaves the exhausted scope. -/
def rotationTarget : QuotaScope → RetryTargetChange
  | .provider | .providerModel => .differentProvider
  | .credential | .credentialModel | .project | .projectModel => .differentCredential

/-- The subject that a failed lease's cooldown is resolved under. -/
def failedSubject (request : SelectionRequest) (failed : LeaseGrant) : HealthSubject :=
  { credential := some failed.registration.credential, model := some failed.registration.model,
    provider := some failed.registration.provider, route := request.route,
    binding := some failed.binding }

/-- The request of the rotation: the failed binding is excluded. -/
def rotationRequest (request : SelectionRequest) (failed : LeaseGrant) : SelectionRequest :=
  { request with excludedBindings := request.excludedBindings.insert failed.binding }

namespace RegistryInner

variable (i : RegistryInner)

/-- The retry decision and, where it allows one, the reselection of a quota recovery. -/
def reselect (healthMutation : HealthMutation) (decision : RetryDecision)
    (request : SelectionRequest) : Except SelectionError QuotaRecovery × RegistryInner :=
  if !decision.isRetry then
    (.ok { healthMutation, retryDecision := decision, selection := none, noEligible := none }, i)
  else match selectFromState i.state i.health request with
    | (.ok lease, state) =>
      (.ok { healthMutation, retryDecision := decision, selection := some lease, noEligible := none }, { i with state })
    | (.error (.noEligible _ explanation), state) =>
      (.ok { healthMutation, retryDecision := .doNotRetry .noAlternateTarget, selection := none,
             noEligible := some explanation }, { i with state })
    | (.error err, state) => (.error err, { i with state })

/-- `recover_quota` once the failed slot is given back and found current: the window, the
cooldown, the decision and the reselection, all under both locks. -/
def rotateQuota (failed : LeaseGrant) (classification : QuotaClassification)
    (failure : FailureClassification) (request : SelectionRequest) (policy : RetryPolicy)
    (context : RetryContext) : Except SelectionError QuotaRecovery × RegistryInner :=
  match (i.state.dropExpired request.now).insertQuotaForBinding failed.binding failed.registration
      classification.snapshot with
  | (.error err, state) => (.error err, { i with state })
  | (.ok false, state) => (.error .staleQuotaObservation, { i with state })
  | (.ok true, state) =>
    let (mutation, health) := i.health.applyFailure failure (failedSubject request failed) request.now
    let context := { context with targetChange := rotationTarget classification.snapshot.scope }
    reselect { state, health } mutation (policy.decide failure context) (rotationRequest request failed)

/-- The slot still is the one the lease was granted, under the same registration. -/
def ownsEntry (failed : LeaseGrant) : Bool :=
  (i.state.entries.get failed.binding).any
    (fun e => e.order = failed.registrationOrder && e.registration = failed.registration)

end RegistryInner

/-- What a caller still has of a lease. -/
inductive HoldState where
  | lease
  | reservation
  | gone
  deriving DecidableEq, Repr

/-- A granted lease with its reservation: the registry it came from and its released flag. -/
structure Holding where
  registry : ℕ
  grant : LeaseGrant
  released : Bool
  state : HoldState
  deriving DecidableEq

/-- Registries by identity, the leases they granted in order, and the tickets of the slots given
back, latest first. A ticket is a lease's place in the list. -/
structure World where
  registries : ℕ → RegistryInner := fun _ => {}
  holdings : List Holding := []
  releases : List ℕ := []

namespace World

variable (w : World)

def setRegistry (i : ℕ) (r : RegistryInner) : World := { w with registries := Function.update w.registries i r }

/-- Hands out a lease, where one was granted. -/
def issue (i : ℕ) : Option LeaseGrant → World
  | none => w
  | some grant => { w with holdings := w.holdings ++ [⟨i, grant, false, .lease⟩] }

def setHolding (t : ℕ) (hd : Holding) : World := { w with holdings := w.holdings.set t hd }

/-- `release_from` under the state lock of the reservation's own registry. -/
def release (t : ℕ) : World :=
  match w.holdings[t]? with
  | none => w
  | some hd =>
    if hd.released then w
    else
      let r := w.registries hd.registry
      { ((w.setRegistry hd.registry
            { r with state := r.state.releaseSlot hd.grant.binding hd.grant.registrationOrder }).setHolding t
          { hd with released := true }) with releases := t :: w.releases }

/-- The end of a value's life. The destructor gives the slot back unless that has happened. -/
def dropTicket (t : ℕ) : World :=
  let w := w.release t
  match w.holdings[t]? with
  | none => w
  | some hd => w.setHolding t { hd with state := .gone }

/-- `recover_quota`: the lease is consumed, so every way out ends with its destructor. -/
def recoverQuota (self t : ℕ) (failed : Holding) (classification : QuotaClassification)
    (request : SelectionRequest) (policy : RetryPolicy) (context : RetryContext) :
    Except SelectionError QuotaRecovery × World :=
  match classification.failure with
  | none => (.error .quotaNotExhausted, w.dropTicket t)
  | some failure =>
    if !classification.exhausted request.now then (.error .quotaNotExhausted, w.dropTicket t)
    else if failed.registry ≠ self then (.error .foreignLease, w.dropTicket t)
    else
      let owns := (w.registries self).ownsEntry failed.grant
      let w := w.release t
      if !owns then (.error .staleLease, w.dropTicket t)
      else
        let (result, r) := (w.registries self).rotateQuota failed.grant classification failure request policy context
        (result, ((w.setRegistry self r).issue self (QuotaRecovery.leaseOf result)).dropTicket t)

end World

/-- The calls on one registry. Times that the source reads from the clock are arguments. -/
inductive RegistryOp where
  | register (r : CredentialRegistration)
  | unregister (credential : CredentialId)
  | unregisterBinding (binding : BindingKey)
  | registerModelAlias (model resolved : ModelId)
  | setEnabled (credential : CredentialId) (enabled : Bool)
  | setCredentialsEnabled (changes : List (CredentialId × Bool))
  | setBindingEnabled (binding : BindingKey) (enabled : Bool)
  | disable (credential : CredentialId)
  | enable (credential : CredentialId)
  | disableBinding (binding : BindingKey)
  | enableBinding (binding : BindingKey)
  | setQuotaSnapshot (credential : CredentialId) (snapshot : QuotaSnapshot)
  | setBindingQuotaSnapshot (binding : BindingKey) (snapshot : QuotaSnapshot)
  | restoreQuotaState (subject : QuotaSubject) (snapshot : QuotaSnapshot)
  | recoverQuotas (now : ℕ)
  | applyFailure (failure : FailureClassification) (subject : HealthSubject) (now : ℕ)
  | restoreCooldown (scope : CooldownScope) (expiry : ℕ)
  | clearExpired (now : ℕ)
  | restoreAffinity (key : AffinityKey) (credential : CredentialId) (provider : ProviderId)
      (model : ModelId) (lastUsedAt expiresAt now : ℕ)
  | restoreAffinityBinding (key : AffinityKey) (a : AffinityBinding) (now : ℕ)
  | purgeExpiredAffinity (now : ℕ)

/-- The call neither registers nor removes a binding. -/
def RegistryOp.keepsBindings : RegistryOp → Bool
  | .register _ | .unregister _ | .unregisterBinding _ => false
  | _ => true

namespace RegistryInner

def apply (i : RegistryInner) : RegistryOp → RegistryInner
  | .register r => i.register r
  | .unregister credential => i.unregister credential
  | .unregisterBinding binding => i.unregisterBinding binding
  | .registerModelAlias model resolved => { i with state := (i.state.registerModelAlias model resolved).2 }
  | .setEnabled credential enabled => { i with state := i.state.setEnabled credential enabled }
  | .setCredentialsEnabled changes => i.setCredentialsEnabled changes
  | .setBindingEnabled binding enabled => { i with state := i.state.setBindingEnabled binding enabled }
  | .disable credential => i.disable credential
  | .enable credential => i.enable credential
  | .disableBinding binding => i.disableBinding binding
  | .enableBinding binding => i.enableBinding binding
  | .setQuotaSnapshot credential snapshot => { i with state := (i.state.setQuotaSnapshot credential snapshot).2 }
  | .setBindingQuotaSnapshot binding snapshot =>
    { i with state := (i.state.setBindingQuotaSnapshot binding snapshot).2 }
  | .restoreQuotaState subject snapshot => { i with state := i.state.restoreQuotaState subject snapshot }
  | .recoverQuotas now => { i with state := i.state.recoverQuotas now }
  | .applyFailure failure subject now => { i with health := (i.health.applyFailure failure subject now).2 }
  | .restoreCooldown scope expiry => { i with health := i.health.restoreCooldown scope expiry }
  | .clearExpired now => { i with health := i.health.clearExpired now }
  | .restoreAffinity key credential provider model lastUsedAt expiresAt now =>
    { i with state := i.state.restoreAffinity key credential provider model lastUsedAt expiresAt now }
  | .restoreAffinityBinding key a now => { i with state := i.state.restoreAffinityBinding key a now }
  | .purgeExpiredAffinity now => { i with state := i.state.purgeExpiredAffinity now }

end RegistryInner

inductive WorldEvent where
  | op (i : ℕ) (op : RegistryOp)
  | select (i : ℕ) (request : SelectionRequest)
  | selectWithHealth (i : ℕ) (request : SelectionRequest) (health : HealthRegistry)
  | recoverQuota (i t : ℕ) (classification : QuotaClassification) (request : SelectionRequest)
      (policy : RetryPolicy) (context : RetryContext)
  | intoParts (t : ℕ)
  | drop (t : ℕ)

/-- The event registers no binding and removes none. -/
def WorldEvent.keepsBindings : WorldEvent → Bool
  | .op _ call => call.keepsBindings
  | _ => true

namespace World

/-- `select_with_health`, and `select` at the registry's own health. -/
def selectWith (w : World) (i : ℕ) (h : HealthRegistry) (request : SelectionRequest) :
    Except SelectionError LeaseGrant × World :=
  let r := w.registries i
  let (result, state) := selectFromState r.state h request
  (result, (w.setRegistry i { r with state }).issue i result.toOption)

def step (w : World) : WorldEvent → World
  | .op i op => w.setRegistry i ((w.registries i).apply op)
  | .select i request => (w.selectWith i (w.registries i).health request).2
  | .selectWithHealth i request health => (w.selectWith i health request).2
  | .recoverQuota i t classification request policy context =>
    match w.holdings[t]? with
    | none => w
    | some hd => if hd.state = .lease then (w.recoverQuota i t hd classification request policy context).2 else w
  | .intoParts t =>
    match w.holdings[t]? with
    | none => w
    | some hd => if hd.state = .lease then w.setHolding t { hd with state := .reservation } else w
  | .drop t =>
    match w.holdings[t]? with
    | none => w
    | some hd => if hd.state = .gone then w else w.dropTicket t

def run (w : World) (events : List WorldEvent) : World := Lib.run step w events

end World

end Pooler
