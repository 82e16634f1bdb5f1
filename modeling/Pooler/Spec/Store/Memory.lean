import Pooler.Lib.Assoc
import Pooler.Lib.Loop
import Pooler.Spec.Store.Cooldown
import Pooler.Spec.Store.Fingerprint

/-! The in-memory store: credential records with their revisions, and the health, the cooldowns and
the session affinities that depend on them. Every operation takes the store's lock for its whole
body, so that it is one step; one that fails keeps the changes it made before. -/

namespace Pooler

open Lib

structure CredentialState where
  (credentialId providerId configurationFingerprint : String)
  enabled : Bool
  (updatedAt revision : ℕ)
  deriving DecidableEq

/-- An empty fingerprint stands for the one that the record has. -/
def CredentialState.inheriting (state : CredentialState) : Option CredentialState → CredentialState
  | some previous =>
    if state.configurationFingerprint.isEmpty then
      { state with configurationFingerprint := previous.configurationFingerprint }
    else state
  | none => state

def validateFingerprint (value : String) : Except StoreError Unit :=
  if value.isEmpty then .ok ()
  else if value.utf8ByteSize ≠ 64 ∨ !value.toList.all (fun c => c.isDigit || ('a' ≤ c && c ≤ 'f') || ('A' ≤ c && c ≤ 'F'))
  then .error .invalidCredentialFingerprint
  else .ok ()

def checkIdentity (credentialId providerId configurationFingerprint : String) : Except StoreError Unit := do
  nonEmpty "credential_id" credentialId
  nonEmpty "provider_id" providerId
  validateFingerprint configurationFingerprint

/-- Identity of a record that its writers are fenced by. -/
structure CredentialConfigurationIdentity where
  (credentialId providerId configurationFingerprint : String)
  checked : checkIdentity credentialId providerId configurationFingerprint = .ok ()

def CredentialConfigurationIdentity.matches (identity : CredentialConfigurationIdentity) (state : CredentialState) :
    Bool :=
  identity.credentialId = state.credentialId && identity.providerId = state.providerId &&
    identity.configurationFingerprint = state.configurationFingerprint

structure CredentialFingerprintRetirement where
  (credentialId providerId expectedFingerprint replacementFingerprint : String)
  deriving DecidableEq

/-- One prepared transition; `expected` is the record seen while it was prepared. -/
structure CredentialConfigurationActivation where
  expected : Option CredentialState
  desired : CredentialState
  retirement : Option CredentialFingerprintRetirement
  checked : checkIdentity desired.credentialId desired.providerId desired.configurationFingerprint = .ok ()
  fingerprinted : desired.configurationFingerprint ≠ ""
  sameId : ∀ state ∈ expected, state.credentialId = desired.credentialId

structure ActivatedCredentialState where
  state : CredentialState
  healthDisabled : Bool
  deriving DecidableEq

inductive ConditionalCredentialMutation where
  | applied (state : CredentialState)
  | stale (current : CredentialState) (credentialPayloadPresent : Option Bool)
      (credentialPayloadGeneration : Option ℕ)
  | missing
  deriving DecidableEq

inductive CredentialHealthStatus where
  | healthy | coolingDown | disabled
  deriving DecidableEq, Repr

structure CredentialHealthState where
  credentialId : String
  status : CredentialHealthStatus
  failureCount : ℕ
  cooldownUntil : Option ℕ
  updatedAt : ℕ
  deriving DecidableEq

def CredentialHealthState.new (credentialId : String) (status : CredentialHealthStatus) (updatedAt : ℕ) :
    CredentialHealthState :=
  ⟨credentialId, status, 0, none, updatedAt⟩

structure CooldownState where
  (scope key : String)
  expiry : ℕ
  reason : Option String
  updatedAt : ℕ
  deriving DecidableEq

structure SessionAffinity where
  (key providerId credentialId upstreamModel : String)
  (createdAt lastUsedAt expiresAt : ℕ)
  deriving DecidableEq

def SessionAffinity.expiredAt (affinity : SessionAffinity) (now : ℕ) : Bool := affinity.expiresAt ≤ now

/-- The limits a store is built with. -/
structure RetentionPolicy where
  (maxCredentials maxAffinities : ℕ)
  maxCredentials_pos : 0 < maxCredentials
  maxAffinities_pos : 0 < maxAffinities

namespace MemoryStore

/-- What the lock guards. `issued` is a history variable: the revisions given to writes of records,
oldest first. No operation reads it. -/
structure Inner where
  credentials : OrderedMap String CredentialState := .empty
  credentialRevision : ℕ := 0
  health : OrderedMap String CredentialHealthState := .empty
  cooldowns : OrderedMap (String ×ₗ String) CooldownState := .empty
  affinities : OrderedMap String SessionAffinity := .empty
  issued : List (String × ℕ) := []

/-- The outcome of an operation and the state it leaves. -/
abbrev Outcome (α : Type) := Except StoreError α × Inner

def validateCredential (state : CredentialState) : Except StoreError Unit :=
  checkIdentity state.credentialId state.providerId state.configurationFingerprint

def validateAffinity (affinity : SessionAffinity) : Except StoreError Unit := do
  nonEmpty "key" affinity.key
  nonEmpty "provider_id" affinity.providerId
  nonEmpty "credential_id" affinity.credentialId
  nonEmpty "upstream_model" affinity.upstreamModel

namespace Inner

variable (inner : Inner)

def nextCredentialRevision : Option (ℕ × Inner) :=
  if inner.credentialRevision + 1 ≤ u64Max then
    some (inner.credentialRevision + 1, { inner with credentialRevision := inner.credentialRevision + 1 })
  else none

variable (credentialId : String)

/-- Stores a record that has been given its revision. -/
def putCredential (state : CredentialState) : Inner :=
  { inner with
    credentials := inner.credentials.insert credentialId state
    issued := inner.issued ++ [(credentialId, state.revision)] }

def putHealth (state : CredentialHealthState) : Inner :=
  { inner with health := inner.health.insert state.credentialId state }

/-- A disabled record has its health replaced. -/
def putDisabled (state : CredentialState) : Inner :=
  if state.enabled then inner else inner.putHealth (.new state.credentialId .disabled state.updatedAt)

def purgeCredentialDependents : Inner :=
  { inner with
    health := inner.health.erase credentialId
    affinities := inner.affinities.retain (fun entry => entry.2.credentialId ≠ credentialId)
    cooldowns := inner.cooldowns.retain (fun entry =>
      let (scope, key) := ofLex entry.1
      !((scope = "credential" && key = credentialId) ||
        (scope = "credential_model" && cooldownBelongsToCredential scope key credentialId))) }

def removeCredential : Inner := { inner with credentials := inner.credentials.erase credentialId }

/-- The record that was updated first, the lower id first. -/
def oldestCredential : Option CredentialState :=
  minBy (fun left right => (compare left.updatedAt right.updatedAt).then (compare left.credentialId right.credentialId))
    inner.credentials.values

def evictCredentials (limit : ℕ) : Inner :=
  whileLoop (fun inner => limit < inner.credentials.size)
    (fun inner => match inner.oldestCredential with
      | some state => (inner.removeCredential state.credentialId).purgeCredentialDependents state.credentialId
      | none => inner)
    inner.credentials.size inner

def requireCooldownCredential (scope key : String) : Except StoreError Unit :=
  match cooldownCredentialId scope key with
  | some credentialId =>
    if inner.credentials.contains credentialId then .ok () else .error (.credentialNotFound credentialId)
  | none => if scope = "credential" ∨ scope = "credential_model" then .error (.credentialNotFound key) else .ok ()

def purgeExpired (now : ℕ) : Inner :=
  { inner with affinities := inner.affinities.retain (fun entry => !entry.2.expiredAt now) }

def evictAffinities (limit : ℕ) : Inner :=
  whileLoop (fun inner => limit < inner.affinities.size)
    (fun inner => match minBy (fun (left right : SessionAffinity) =>
        ((compare left.lastUsedAt right.lastUsedAt).then (compare left.createdAt right.createdAt)).then
          (compare left.key right.key)) inner.affinities.values with
      | some affinity => { inner with affinities := inner.affinities.erase affinity.key }
      | none => inner)
    inner.affinities.size inner

def purgeExpiredCooldowns (now : ℕ) : Inner :=
  { inner with cooldowns := inner.cooldowns.retain (fun entry => now < entry.2.expiry) }

def reconcileCredentialHealth (enabled : Bool) (updatedAt : ℕ) : Inner :=
  if enabled then
    match inner.health.get credentialId with
    | some health =>
      if health.status = .disabled then
        { inner with
          health := inner.health.insert credentialId { health with status := .healthy, cooldownUntil := none, updatedAt } }
      else inner
    | none => inner
  else inner.putHealth (.new credentialId .disabled updatedAt)

def evictCooldowns : Inner :=
  whileLoop (fun inner => 4096 < inner.cooldowns.size)
    (fun inner => match minBy (fun (left right : (String ×ₗ String) × CooldownState) =>
        ((compare left.2.updatedAt right.2.updatedAt).then (compare left.2.scope right.2.scope)).then
          (compare left.2.key right.2.key)) inner.cooldowns.entries with
      | some entry => { inner with cooldowns := inner.cooldowns.erase entry.1 }
      | none => inner)
    inner.cooldowns.size inner

/-- Changes the record under its next revision. -/
def changeEnabled (current : CredentialState) (enabled : Bool)
    (updatedAt : ℕ) : Outcome CredentialState :=
  match inner.nextCredentialRevision with
  | none => (.error .credentialRevisionConflict, inner)
  | some (revision, inner) =>
    let state := { current with enabled, updatedAt, revision }
    (.ok state, inner.putCredential credentialId state)

end Inner

variable (retention : RetentionPolicy)

def upsertCredentialState (state : CredentialState) (inner : Inner) :
    Outcome CredentialState :=
  match validateCredential state with
  | .error e => (.error e, inner)
  | .ok () =>
    let previous := inner.credentials.get state.credentialId
    let state := state.inheriting previous
    let identityChanged := previous.any (fun previous =>
      previous.providerId ≠ state.providerId || previous.configurationFingerprint ≠ state.configurationFingerprint)
    let inner := if identityChanged then inner.purgeCredentialDependents state.credentialId else inner
    match inner.nextCredentialRevision with
    | none => (.error .credentialRevisionConflict, inner)
    | some (revision, inner) =>
      let state := { state with revision }
      let inner := (inner.putCredential state.credentialId state).putDisabled state
      (.ok state, inner.evictCredentials retention.maxCredentials)

/-- Every activation is valid, retires nothing and has an id of its own. -/
def checkActivations : List CredentialConfigurationActivation → List String → Except StoreError Unit
  | [], _ => .ok ()
  | activation :: activations, credentialIds =>
    match validateCredential activation.desired with
    | .error e => .error e
    | .ok () =>
      if activation.retirement.isSome ∨ activation.desired.credentialId ∈ credentialIds then
        .error .credentialFingerprintConflict
      else checkActivations activations (activation.desired.credentialId :: credentialIds)

def exactIdentity (state desired : CredentialState) : Bool :=
  state.providerId = desired.providerId && state.configurationFingerprint = desired.configurationFingerprint

def activateOne (activation : CredentialConfigurationActivation) (inner : Inner) : Outcome ActivatedCredentialState :=
  let desired := activation.desired
  let current := inner.credentials.get desired.credentialId
  let report (state : CredentialState) (inner : Inner) : Outcome ActivatedCredentialState :=
    let healthDisabled := (inner.health.get state.credentialId).any (fun health => health.status = .disabled)
    (.ok ⟨state, healthDisabled⟩, inner)
  match current.filter (exactIdentity · desired) with
  | some state => report state inner
  | none =>
    let safeLegacyIdentity := current.any (fun state =>
      state.providerId = desired.providerId && state.configurationFingerprint.isEmpty)
    let inner := if current.isSome then inner.purgeCredentialDependents desired.credentialId else inner
    match inner.nextCredentialRevision with
    | none => (.error .credentialRevisionConflict, inner)
    | some (revision, inner) =>
      let enabled := if safeLegacyIdentity then current.any (·.enabled) else desired.enabled
      let state := { desired with enabled, revision }
      report state ((inner.putCredential state.credentialId state).putDisabled state)

def activateEach : List CredentialConfigurationActivation → Inner → Outcome (List ActivatedCredentialState)
  | [], inner => (.ok [], inner)
  | activation :: activations, inner =>
    match activateOne activation inner with
    | (.error e, inner) => (.error e, inner)
    | (.ok activated, inner) =>
      match activateEach activations inner with
      | (.error e, inner) => (.error e, inner)
      | (.ok rest, inner) => (.ok (activated :: rest), inner)

variable (activations : List CredentialConfigurationActivation)

def activationWrites (inner : Inner) : ℕ :=
  activations.countP (fun activation =>
    (inner.credentials.get activation.desired.credentialId).all (fun current => !exactIdentity current activation.desired))

def activateCredentialConfigurations (inner : Inner) : Outcome (List ActivatedCredentialState) :=
  match checkActivations activations [] with
  | .error e => (.error e, inner)
  | .ok () =>
    if activations.any (fun activation => inner.credentials.get activation.desired.credentialId ≠ activation.expected)
    then (.error .credentialRevisionConflict, inner)
    else if inner.credentialRevision + activationWrites activations inner > u64Max then
      (.error .credentialRevisionConflict, inner)
    else match activateEach activations inner with
      | (.error e, inner) => (.error e, inner)
      | (.ok activated, inner) => (.ok activated, inner.evictCredentials retention.maxCredentials)

variable (credentialId : String)

def setCredentialEnabled (enabled : Bool) (updatedAt : ℕ) (inner : Inner) :
    Outcome CredentialState :=
  match nonEmpty "credential_id" credentialId with
  | .error e => (.error e, inner)
  | .ok () =>
    match inner.credentials.get credentialId with
    | none => (.error (.credentialNotFound credentialId), inner)
    | some current =>
      match inner.changeEnabled credentialId current enabled updatedAt with
      | (.error e, inner) => (.error e, inner)
      | (.ok state, inner) => (.ok state, inner.reconcileCredentialHealth credentialId enabled updatedAt)

/-- What follows once the fence of a conditional change holds for the current record. -/
def applyEnabled (current : CredentialState) (enabled : Bool) (updatedAt : ℕ) (inner : Inner) :
    Outcome ConditionalCredentialMutation :=
  let inner := inner.reconcileCredentialHealth credentialId enabled updatedAt
  if current.enabled = enabled then (.ok (.applied current), inner)
  else match inner.changeEnabled credentialId current enabled updatedAt with
    | (.error e, inner) => (.error e, inner)
    | (.ok state, inner) => (.ok (.applied state), inner)

variable (identity : CredentialConfigurationIdentity)

def setCredentialEnabledIfIdentity (enabled : Bool) (updatedAt : ℕ)
    (inner : Inner) : Outcome ConditionalCredentialMutation :=
  match inner.credentials.get identity.credentialId with
  | none => (.ok .missing, inner)
  | some current =>
    if !identity.matches current then (.ok (.stale current none none), inner)
    else applyEnabled identity.credentialId current enabled updatedAt inner

def setCredentialEnabledIfCurrent (expectedRevision : ℕ)
    (expectedProviderId expectedConfigurationFingerprint : String) (enabled : Bool) (updatedAt : ℕ) (inner : Inner) :
    Outcome ConditionalCredentialMutation :=
  let checked := do
    nonEmpty "credential_id" credentialId
    nonEmpty "expected_provider_id" expectedProviderId
    validateFingerprint expectedConfigurationFingerprint
  match checked with
  | .error e => (.error e, inner)
  | .ok () =>
    match inner.credentials.get credentialId with
    | none => (.ok .missing, inner)
    | some current =>
      if current.revision ≠ expectedRevision ∨ current.providerId ≠ expectedProviderId ∨
        current.configurationFingerprint ≠ expectedConfigurationFingerprint
      then (.ok (.stale current none none), inner)
      else applyEnabled credentialId current enabled updatedAt inner

/-- This store holds no payloads, so that none is ever newer. -/
def setCredentialEnabledIfNewerPayload
    (_expectedMetadataRevision _previousGeneration : ℕ) (_enabled : Bool) (_updatedAt : ℕ) (inner : Inner) :
    Outcome ConditionalCredentialMutation :=
  match inner.credentials.get identity.credentialId with
  | none => (.ok .missing, inner)
  | some current => (.ok (.stale current (some false) none), inner)

/-- Sets the flag of each record in turn; one that has it already keeps its revision. -/
def switchEach (updatedAt : ℕ) : List (String × Bool) → Inner → Outcome (List CredentialState)
  | [], inner => (.ok [], inner)
  | (credentialId, enabled) :: rest, inner =>
    match inner.credentials.get credentialId with
    | none => (.error (.credentialNotFound credentialId), inner)
    | some current =>
      let changed := if current.enabled ≠ enabled then inner.changeEnabled credentialId current enabled updatedAt
        else (.ok current, inner)
      match changed with
      | (.error e, inner) => (.error e, inner)
      | (.ok state, inner) =>
        match switchEach updatedAt rest (inner.reconcileCredentialHealth credentialId enabled updatedAt) with
        | (.error e, inner) => (.error e, inner)
        | (.ok states, inner) => (.ok (state :: states), inner)

/-- The selected one on, the others off. -/
def switchPlan (selected : String) (siblings : List String) : List (String × Bool) :=
  (selected, true) :: (siblings.filter (· ≠ selected)).map (fun sibling => (sibling, false))

def switchCredential (selected : String) (siblings : List String) (updatedAt : ℕ) (inner : Inner) :
    Outcome (List CredentialState) :=
  let require (field credentialId : String) : Except StoreError Unit := do
    nonEmpty field credentialId
    if !inner.credentials.contains credentialId then throw (.credentialNotFound credentialId)
  match (do require "selected" selected; siblings.forM (require "sibling")) with
  | .error e => (.error e, inner)
  | .ok () => switchEach updatedAt (switchPlan selected siblings) inner

def switchCredentialIfIdentities (selected : CredentialConfigurationIdentity)
    (siblings : List CredentialConfigurationIdentity) (updatedAt : ℕ) (inner : Inner) :
    Outcome (Option (List CredentialState)) :=
  if (selected :: siblings).all (fun identity => (inner.credentials.get identity.credentialId).any identity.matches) then
    match switchEach updatedAt (switchPlan selected.credentialId (siblings.map (·.credentialId))) inner with
    | (.error e, inner) => (.error e, inner)
    | (.ok states, inner) => (.ok (some states), inner)
  else (.ok none, inner)

def removeCredentialState (inner : Inner) : Outcome Bool :=
  match nonEmpty "credential_id" credentialId with
  | .error e => (.error e, inner)
  | .ok () =>
    (.ok (inner.credentials.contains credentialId),
      (inner.removeCredential credentialId).purgeCredentialDependents credentialId)

def upsertCredentialHealth (state : CredentialHealthState) (inner : Inner) : Outcome CredentialHealthState :=
  match nonEmpty "credential_id" state.credentialId with
  | .error e => (.error e, inner)
  | .ok () =>
    if inner.credentials.contains state.credentialId then (.ok state, inner.putHealth state)
    else (.error (.credentialNotFound state.credentialId), inner)

def upsertCooldown (state : CooldownState) (inner : Inner) : Outcome CooldownState :=
  match (do nonEmpty "scope" state.scope; nonEmpty "key" state.key
            inner.requireCooldownCredential state.scope state.key) with
  | .error e => (.error e, inner)
  | .ok () =>
    let key := toLex (state.scope, state.key)
    match (inner.cooldowns.get key).filter (fun previous => state.expiry < previous.expiry) with
    | some previous => (.ok previous, inner)
    | none => (.ok state, { inner with cooldowns := inner.cooldowns.insert key state }.evictCooldowns)

def cooldown (scope key : String) (now : ℕ) (inner : Inner) : Outcome (Option CooldownState) :=
  match (do nonEmpty "scope" scope; nonEmpty "key" key) with
  | .error e => (.error e, inner)
  | .ok () =>
    let inner := inner.purgeExpiredCooldowns now
    (.ok (inner.cooldowns.get (toLex (scope, key))), inner)

def cooldowns (now : ℕ) (inner : Inner) : Outcome (List CooldownState) :=
  let inner := inner.purgeExpiredCooldowns now
  (.ok inner.cooldowns.values, inner)

def removeCooldown (scope key : String) (inner : Inner) : Outcome Bool :=
  match (do nonEmpty "scope" scope; nonEmpty "key" key) with
  | .error e => (.error e, inner)
  | .ok () =>
    (.ok (inner.cooldowns.contains (toLex (scope, key))),
      { inner with cooldowns := inner.cooldowns.erase (toLex (scope, key)) })

def upsertSessionAffinity (affinity : SessionAffinity) (inner : Inner) :
    Outcome SessionAffinity :=
  match validateAffinity affinity with
  | .error e => (.error e, inner)
  | .ok () =>
    if inner.credentials.contains affinity.credentialId then
      let inner := { inner with affinities := inner.affinities.insert affinity.key affinity }
      (.ok affinity, (inner.purgeExpired affinity.createdAt).evictAffinities retention.maxAffinities)
    else (.error (.credentialNotFound affinity.credentialId), inner)

def sessionAffinity (key : String) (now : ℕ) (inner : Inner) : Outcome (Option SessionAffinity) :=
  match nonEmpty "key" key with
  | .error e => (.error e, inner)
  | .ok () =>
    let inner := inner.purgeExpired now
    match inner.affinities.get key with
    | none => (.ok none, inner)
    | some affinity =>
      let affinity := { affinity with lastUsedAt := max affinity.lastUsedAt now }
      (.ok (some affinity), { inner with affinities := inner.affinities.insert key affinity })

def sessionAffinities (now : ℕ) (inner : Inner) : Outcome (List SessionAffinity) :=
  let inner := inner.purgeExpired now
  (.ok inner.affinities.values, inner)

def removeSessionAffinity (key : String) (inner : Inner) : Outcome Bool :=
  match nonEmpty "key" key with
  | .error e => (.error e, inner)
  | .ok () => (.ok (inner.affinities.contains key), { inner with affinities := inner.affinities.erase key })

/-- The part of `prune` that concerns credentials and what depends on them. -/
def prune (now : ℕ) (inner : Inner) : Inner :=
  ((((inner.purgeExpiredCooldowns now).purgeExpired now).evictCredentials retention.maxCredentials).evictAffinities
    retention.maxAffinities)

/-- The calls that may change the state. -/
inductive Call where
  | upsertCredentialState (state : CredentialState)
  | activateCredentialConfigurations (activations : List CredentialConfigurationActivation)
  | setCredentialEnabled (credentialId : String) (enabled : Bool) (updatedAt : ℕ)
  | setCredentialEnabledIfIdentity (identity : CredentialConfigurationIdentity) (enabled : Bool) (updatedAt : ℕ)
  | setCredentialEnabledIfCurrent (credentialId : String) (expectedRevision : ℕ)
      (expectedProviderId expectedConfigurationFingerprint : String) (enabled : Bool) (updatedAt : ℕ)
  | setCredentialEnabledIfNewerPayload (identity : CredentialConfigurationIdentity)
      (expectedMetadataRevision previousGeneration : ℕ) (enabled : Bool) (updatedAt : ℕ)
  | switchCredential (selected : String) (siblings : List String) (updatedAt : ℕ)
  | switchCredentialIfIdentities (selected : CredentialConfigurationIdentity)
      (siblings : List CredentialConfigurationIdentity) (updatedAt : ℕ)
  | removeCredentialState (credentialId : String)
  | upsertCredentialHealth (state : CredentialHealthState)
  | upsertCooldown (state : CooldownState)
  | cooldown (scope key : String) (now : ℕ)
  | cooldowns (now : ℕ)
  | removeCooldown (scope key : String)
  | upsertSessionAffinity (affinity : SessionAffinity)
  | sessionAffinity (key : String) (now : ℕ)
  | sessionAffinities (now : ℕ)
  | removeSessionAffinity (key : String)
  | prune (now : ℕ)

/-- The state after a call, whatever it returned. -/
def step (inner : Inner) : Call → Inner
  | .upsertCredentialState state => (upsertCredentialState retention state inner).2
  | .activateCredentialConfigurations activations => (activateCredentialConfigurations retention activations inner).2
  | .setCredentialEnabled id enabled updatedAt => (setCredentialEnabled id enabled updatedAt inner).2
  | .setCredentialEnabledIfIdentity identity enabled updatedAt =>
    (setCredentialEnabledIfIdentity identity enabled updatedAt inner).2
  | .setCredentialEnabledIfCurrent id revision provider fingerprint enabled updatedAt =>
    (setCredentialEnabledIfCurrent id revision provider fingerprint enabled updatedAt inner).2
  | .setCredentialEnabledIfNewerPayload identity revision generation enabled updatedAt =>
    (setCredentialEnabledIfNewerPayload identity revision generation enabled updatedAt inner).2
  | .switchCredential selected siblings updatedAt => (switchCredential selected siblings updatedAt inner).2
  | .switchCredentialIfIdentities selected siblings updatedAt =>
    (switchCredentialIfIdentities selected siblings updatedAt inner).2
  | .removeCredentialState id => (removeCredentialState id inner).2
  | .upsertCredentialHealth state => (upsertCredentialHealth state inner).2
  | .upsertCooldown state => (upsertCooldown state inner).2
  | .cooldown scope key now => (cooldown scope key now inner).2
  | .cooldowns now => (cooldowns now inner).2
  | .removeCooldown scope key => (removeCooldown scope key inner).2
  | .upsertSessionAffinity affinity => (upsertSessionAffinity retention affinity inner).2
  | .sessionAffinity key now => (sessionAffinity key now inner).2
  | .sessionAffinities now => (sessionAffinities now inner).2
  | .removeSessionAffinity key => (removeSessionAffinity key inner).2
  | .prune now => prune retention now inner

end MemoryStore

end Pooler
