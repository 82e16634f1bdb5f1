import Pooler.Spec.Policy.Failure

/-! Health: scoped cooldowns and the operator status of credentials and bindings. -/

namespace Pooler

open Lib StringKeyed

inductive CooldownScope where
  | credential (id : CredentialId)
  | credentialModel (credential : CredentialId) (model : ModelId)
  | binding (key : BindingKey)
  | bindingModel (key : BindingKey) (model : ModelId)
  | model (id : ModelId)
  | provider (id : ProviderId)
  | providerModel (provider : ProviderId) (model : ModelId)
  | route (id : RouteId)
  deriving DecidableEq

namespace CooldownScope

def kind : CooldownScope → CooldownScopeKind
  | credential _ => .credential
  | credentialModel _ _ => .credentialModel
  | binding _ => .credential
  | bindingModel _ _ => .credentialModel
  | model _ => .model
  | provider _ => .provider
  | providerModel _ _ => .providerModel
  | route _ => .route

/-- `CooldownScope::credential`. -/
def credentialId : CooldownScope → Option CredentialId
  | credential id => some id
  | credentialModel id _ => some id
  | binding key => some key.accountId
  | bindingModel key _ => some key.accountId
  | _ => none

/-- `CooldownScope::binding`. -/
def bindingKey : CooldownScope → Option BindingKey
  | binding key => some key
  | bindingModel key _ => some key
  | _ => none

def sortKey : CooldownScope → List String
  | credential id => ["credential", id.asStr]
  | credentialModel id m => ["credential_model", id.asStr, m.asStr]
  | binding key => "binding" :: StringKeyed.key key
  | bindingModel key m => "binding_model" :: m.asStr :: StringKeyed.key key
  | model id => ["model", id.asStr]
  | provider id => ["provider", id.asStr]
  | providerModel id m => ["provider_model", id.asStr, m.asStr]
  | route id => ["route", id.asStr]

theorem sortKey_injective : Function.Injective sortKey := by
  intro a b h
  cases a <;> cases b <;> simp [sortKey] at h ⊢
  case credential.credential => exact Ident.ext h
  case credentialModel.credentialModel => exact ⟨Ident.ext h.1, Ident.ext h.2⟩
  case binding.binding => exact key_injective h
  case bindingModel.bindingModel => exact ⟨key_injective h.2, Ident.ext h.1⟩
  case model.model => exact Ident.ext h
  case provider.provider => exact Ident.ext h
  case providerModel.providerModel => exact ⟨Ident.ext h.1, Ident.ext h.2⟩
  case route.route => exact Ident.ext h

instance : StringKeyed CooldownScope := ⟨sortKey, sortKey_injective⟩

end CooldownScope

structure HealthSubject where
  credential : Option CredentialId := none
  model : Option ModelId := none
  provider : Option ProviderId := none
  route : Option RouteId := none
  binding : Option BindingKey := none
  deriving DecidableEq

namespace HealthSubject

def new (provider : ProviderId) (model : ModelId) (credential : CredentialId) (route : RouteId) :
    HealthSubject :=
  { credential := some credential, model := some model, provider := some provider, route := some route }

def withBinding (s : HealthSubject) (key : BindingKey) : HealthSubject :=
  { s with credential := some key.accountId, binding := some key }

/-- The concrete scope of a kind. A subject with a binding resolves both credential kinds to it. -/
def resolve (s : HealthSubject) : CooldownScopeKind → Option CooldownScope
  | .credential =>
    match s.binding with
    | some key => some (.binding key)
    | none => s.credential.map .credential
  | .credentialModel =>
    match s.binding with
    | some key => s.model.map (.bindingModel key)
    | none => s.credential.bind (fun id => s.model.map (.credentialModel id))
  | .model => s.model.map .model
  | .provider => s.provider.map .provider
  | .providerModel => s.provider.bind (fun id => s.model.map (.providerModel id))
  | .route => s.route.map .route

end HealthSubject

inductive CredentialStatus where
  | healthy | coolingDown | disabled
  deriving DecidableEq, Repr

inductive HealthMutationReason where
  | noCooldownRequested | invalidRequestCannotCooldownCredential | missingCooldownTarget
  | zeroCooldown | credentialDisabled
  deriving DecidableEq, Repr

inductive HealthMutation where
  | noChange (reason : HealthMutationReason)
  | cooldownApplied (scope : CooldownScope) (expiry : ℕ)
  deriving DecidableEq

structure CredentialHealth where
  status : CredentialStatus := .healthy
  cooldownUntil : Option ℕ := none
  deriving DecidableEq, Repr

namespace CredentialHealth

variable (h : CredentialHealth)

def setCoolingDown (expiry : ℕ) : CredentialHealth := if h.status = .disabled then h else ⟨.coolingDown, some expiry⟩

def clearCoolingDown : CredentialHealth := if h.status = .coolingDown then ⟨.healthy, none⟩ else h

/-- What enabling does: only a disabled entry changes. -/
def enable : CredentialHealth := if h.status = .disabled then ⟨.healthy, none⟩ else h

end CredentialHealth

structure HealthRegistry where
  cooldowns : Table CooldownScope ℕ := ∅
  credentials : Table CredentialId CredentialHealth := ∅
  bindings : Table BindingKey CredentialHealth := ∅

namespace HealthRegistry

variable (h : HealthRegistry) (scope : CooldownScope) (expiry : ℕ)

/-- Marks the credential or binding that a whole-credential or binding scope belongs to. -/
def markCoolingDown : HealthRegistry :=
  match scope with
  | .credential id => { h with credentials := h.credentials.upsert id {} (·.setCoolingDown expiry) }
  | .binding key | .bindingModel key _ => { h with bindings := h.bindings.upsert key {} (·.setCoolingDown expiry) }
  | _ => h

/-- Stores an expiry and marks the status with an expiry of its own. -/
def writeCooldown (expiry marked : ℕ) : HealthRegistry :=
  { h with cooldowns := h.cooldowns.insert scope expiry }.markCoolingDown scope marked

/-- The later of the stored and the new expiry. -/
def laterExpiry : ℕ :=
  match h.cooldowns[scope]? with
  | some old => max old expiry
  | none => expiry

def restoreCooldown : HealthRegistry := h.writeCooldown scope (h.laterExpiry scope expiry) expiry

def isDisabled (t : Option CredentialHealth) : Bool :=
  match t with
  | some health => health.status = .disabled
  | none => false

/-- The operator has disabled the binding or credential that the scope belongs to. -/
def scopeDisabled : Bool :=
  match scope with
  | .binding key | .bindingModel key _ => isDisabled h.bindings[key]?
  | _ =>
    match scope.credentialId with
    | some id => isDisabled h.credentials[id]?
    | none => false

def applyFailure (failure : FailureClassification) (subject : HealthSubject)
    (now : ℕ) : HealthMutation × HealthRegistry :=
  match failure.cooldown with
  | none => (.noChange .noCooldownRequested, h)
  | some spec =>
    if failure.isRequestInvalid ∧ failure.credentialCausation ≠ .proven ∧
        (spec.scope = .credential ∨ spec.scope = .credentialModel) then
      (.noChange .invalidRequestCannotCooldownCredential, h)
    else if spec.duration = 0 then (.noChange .zeroCooldown, h)
    else match subject.resolve spec.scope with
      | none => (.noChange .missingCooldownTarget, h)
      | some scope =>
        if h.scopeDisabled scope then (.noChange .credentialDisabled, h)
        else
          let expiry := h.laterExpiry scope ((instantCheckedAdd now spec.duration).getD (now + fromSecs (60 * 60 * 24)))
          (.cooldownApplied scope expiry, h.writeCooldown scope expiry expiry)

/-- An exact scope's expiry, where it is after `now`. -/
def cooldownUntil (now : ℕ) : Option ℕ := h.cooldowns[scope]?.filter (fun expiry => now < expiry)

def isCoolingDown (now : ℕ) : Bool := (h.cooldownUntil scope now).isSome

def allKinds : List CooldownScopeKind := [.credential, .credentialModel, .model, .provider, .providerModel, .route]

def targetCooldownScopes (subject : HealthSubject) (now : ℕ) :
    List CooldownScopeKind :=
  ((allKinds.filterMap subject.resolve).filter (h.isCoolingDown · now)).map CooldownScope.kind

def disableCredential (id : CredentialId) : HealthRegistry :=
  { h with credentials := h.credentials.insert id ⟨.disabled, none⟩ }

variable (key : BindingKey)

def disableBinding : HealthRegistry := { h with bindings := h.bindings.insert key ⟨.disabled, none⟩ }

def enableCredential (id : CredentialId) : HealthRegistry :=
  { h with credentials := h.credentials.upsert id {} CredentialHealth.enable }

def enableBinding : HealthRegistry := { h with bindings := h.bindings.upsert key {} CredentialHealth.enable }

def removeBinding : HealthRegistry :=
  { h with bindings := h.bindings.erase key,
           cooldowns := h.cooldowns.filter (fun scope _ => scope.bindingKey ≠ some key) }

/-- Drops one expired scope and lifts the cooling status it had set. -/
def clearScope : HealthRegistry :=
  let h := { h with cooldowns := h.cooldowns.erase scope }
  match scope with
  | .credential id =>
    match h.credentials[id]? with
    | some health => { h with credentials := h.credentials.insert id health.clearCoolingDown }
    | none => h
  | .binding key | .bindingModel key _ =>
    match h.bindings[key]? with
    | some health => { h with bindings := h.bindings.insert key health.clearCoolingDown }
    | none => h
  | _ => h

def expiredScopes (now : ℕ) : List CooldownScope :=
  (h.cooldowns.toList.filter (fun entry => entry.2 ≤ now)).map Prod.fst

def clearExpired (now : ℕ) : HealthRegistry := (h.expiredScopes now).foldl clearScope h

end HealthRegistry

end Pooler
