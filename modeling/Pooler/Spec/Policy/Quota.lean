import Pooler.Spec.Policy.Failure

/-! Quota windows: their scopes and owners, the runtime snapshot of one window, and
the classifier that turns provider evidence into a snapshot and a failure. -/

namespace Pooler

open Lib

inductive QuotaScope where
  | credential | credentialModel | project | projectModel | provider | providerModel
  deriving DecidableEq, Repr

inductive QuotaUnit where
  | requests | tokens | inputTokens | outputTokens | credits | compute
  deriving DecidableEq, Repr

/-- The configuration spelling. -/
def QuotaUnit.asStr : QuotaUnit → String
  | requests => "requests"
  | tokens => "tokens"
  | inputTokens => "input_tokens"
  | outputTokens => "output_tokens"
  | credits => "credits"
  | compute => "compute"

theorem QuotaUnit.asStr_injective : Function.Injective QuotaUnit.asStr := by
  intro a b h
  cases a <;> cases b <;> first | rfl | (exact absurd h (by decide))

inductive QuotaState where
  | unknown | available | exhausted
  deriving DecidableEq, Repr

/-- The redacted digest of an upstream project identifier. -/
structure QuotaProjectKey where
  asStr : String
  deriving DecidableEq, Repr

inductive QuotaSubject where
  | credential (credential : CredentialId)
  | credentialModel (credential : CredentialId) (model : ModelId)
  | project (provider : ProviderId) (project : QuotaProjectKey)
  | projectModel (provider : ProviderId) (project : QuotaProjectKey) (model : ModelId)
  | provider (provider : ProviderId)
  | providerModel (provider : ProviderId) (model : ModelId)
  deriving DecidableEq

namespace QuotaSubject

def sortKey : QuotaSubject → List String
  | credential c => ["credential", c.asStr]
  | credentialModel c m => ["credential_model", c.asStr, m.asStr]
  | project p k => ["project", p.asStr, k.asStr]
  | projectModel p k m => ["project_model", p.asStr, k.asStr, m.asStr]
  | provider p => ["provider", p.asStr]
  | providerModel p m => ["provider_model", p.asStr, m.asStr]

theorem sortKey_injective : Function.Injective sortKey := by
  intro a b h
  cases a <;> cases b <;> simp [sortKey] at h ⊢
  case credential.credential => exact Ident.ext h
  case credentialModel.credentialModel => exact ⟨Ident.ext h.1, Ident.ext h.2⟩
  case project.project => exact ⟨Ident.ext h.1, congrArg QuotaProjectKey.mk h.2⟩
  case projectModel.projectModel => exact ⟨Ident.ext h.1, congrArg QuotaProjectKey.mk h.2.1, Ident.ext h.2.2⟩
  case provider.provider => exact Ident.ext h
  case providerModel.providerModel => exact ⟨Ident.ext h.1, Ident.ext h.2⟩

instance : StringKeyed QuotaSubject := ⟨sortKey, sortKey_injective⟩

end QuotaSubject

/-- The windows of one owner are told apart by their unit. -/
instance {α : Type} [StringKeyed α] : StringKeyed (α × QuotaUnit) where
  key w := w.2.asStr :: StringKeyed.key w.1
  key_injective a b h := by
    obtain ⟨h2, h1⟩ := List.cons.inj h
    exact Prod.ext (StringKeyed.key_injective h1) (QuotaUnit.asStr_injective h2)

instance transCmp_quotas : Std.TransCmp (StringKeyed.cmp (α := QuotaSubject × QuotaUnit)) := inferInstance

instance transCmp_bindingQuotas : Std.TransCmp (StringKeyed.cmp (α := BindingKey × QuotaUnit)) := inferInstance

structure QuotaSnapshot where
  scope : QuotaScope
  unit : QuotaUnit
  state : QuotaState
  (limit remaining resetAt : Option ℕ := none)
  observedAt : ℕ
  deriving DecidableEq, Repr

namespace QuotaSnapshot

def expiredAt (s : QuotaSnapshot) (now : ℕ) : Bool := s.resetAt.any (· ≤ now)

/-- The window prevents a new selection at `now`. -/
def exhausted (s : QuotaSnapshot) (now : ℕ) : Bool :=
  if s.resetAt.any (· ≤ now) then false
  else s.state = .exhausted || s.remaining = some 0

end QuotaSnapshot

inductive QuotaSignal where
  | snapshot | exhausted | rateLimited | recovered
  deriving DecidableEq, Repr

structure QuotaObservation where
  signal : QuotaSignal
  scope : QuotaScope
  unit : QuotaUnit
  (limit remaining retryAfter resetAfter : Option ℕ := none)
  providerCode : Option String := none
  deriving DecidableEq, Repr

structure QuotaClassification where
  signal : QuotaSignal
  snapshot : QuotaSnapshot
  failure : Option FailureClassification
  deriving DecidableEq, Repr

def QuotaClassification.exhausted (c : QuotaClassification) (now : ℕ) : Bool := c.snapshot.exhausted now

/-- The class, scope, cooldown kind, causation and public texts of an exhausted quota scope. -/
def quotaFailureDefaults : QuotaScope →
    ErrorClass × ErrorScope × Option CooldownScopeKind × CredentialCausation × String × String
  | .credential => (.credentialQuotaExhausted, .credential, some .credential, .proven,
      "credential_quota_exhausted", "credential quota is exhausted")
  | .credentialModel => (.modelQuotaExhausted, .credential, some .credentialModel, .proven,
      "credential_model_quota_exhausted", "credential quota for the requested model is exhausted")
  | .project | .projectModel => (.credentialQuotaExhausted, .credential, none, .proven,
      "project_quota_exhausted", "upstream project quota is exhausted")
  | .provider => (.providerRateLimited, .provider, some .provider, .unknown,
      "provider_rate_limited", "provider rate limited the request")
  | .providerModel => (.providerRateLimited, .provider, some .providerModel, .unknown,
      "provider_model_rate_limited", "provider rate limited the requested model")

variable (observation : QuotaObservation)

def quotaFailure (recovery : Option ℕ) : FailureClassification :=
  match quotaFailureDefaults observation.scope with
  | (errorClass, scope, cooldown, credentialCausation, code, message) =>
    let recovery := recovery.filter (· ≠ 0)
    { classification := { errorClass, scope, retryability := .beforeCommit,
                          replaySafety := .replayable, recoveryAfter := recovery }
      response := ⟨429, code, message⟩
      evidence := ⟨some 429, observation.providerCode, some code⟩
      cooldown := cooldown.bind (fun kind => recovery.map (CooldownSpec.mk kind))
      credentialCausation }

/-- `ProviderNeutralQuotaClassifier` with its default recoveries of 60 s and 1 s. -/
def classifyQuota (now : ℕ) : QuotaClassification :=
  let signal : QuotaSignal :=
    if observation.signal = .recovered ∧ observation.remaining = some 0 then .exhausted
    else observation.signal
  let exhausted : Bool := signal = .exhausted || signal = .rateLimited ||
    (signal = .snapshot && observation.remaining = some 0)
  let state : QuotaState :=
    if signal = .recovered then .available
    else if exhausted then .exhausted
    else if observation.remaining.isSome then .available
    else .unknown
  let fallback := match signal with
    | .exhausted => fromSecs 60
    | .rateLimited => fromSecs 1
    | .snapshot | .recovered => 0
  let recovery := (max observation.resetAfter observation.retryAfter).or
    (if exhausted ∧ fallback ≠ 0 then some fallback else none)
  { signal
    snapshot := { scope := observation.scope, unit := observation.unit, state,
                  limit := observation.limit, remaining := observation.remaining,
                  resetAt := recovery.bind (instantCheckedAdd now), observedAt := now }
    failure := if exhausted then some (quotaFailure observation recovery) else none }

end Pooler
