import Pooler.Spec.Policy.Select

/-! Eligibility as selection promises it: which registered bindings a request may be
given, said without the order, the early exits or the reasons of the evaluation. -/

namespace Pooler

open Lib HealthRegistry

variable (s : RegistryState)

def Registered (e : RegistryEntry) : Prop := s.entries.get e.registration.binding = some e

/-- The registration meets the configured routing requirements. A fact that is unknown meets none. -/
structure MeetsRouting (s : RegistryState) (request : SelectionRequest) (routing : RoutingRequirements)
    (r : CredentialRegistration) : Prop where
  provider_allowed : routing.providerAllow = ∅ ∨ r.provider.asStr ∈ routing.providerAllow
  provider_not_denied : r.provider.asStr ∉ routing.providerDeny
  target_allowed : routing.targetAllow = ∅ ∨ ∃ t ∈ routing.targetAllow, targetMatchesRegistration t r
  target_not_denied : ∀ t ∈ routing.targetDeny, ¬targetMatchesRegistration t r
  fallback_permitted : routing.allowFallbacks = false → r.model = request.model →
    ∀ e, Registered s e → e.registration.model = request.model →
      routingConfigAllows e.registration routing → r.priority ≤ e.registration.priority
  parameters : ∀ p ∈ routing.requiredParameters, ∃ known, r.facts.parameters.value = some known ∧ p ∈ known
  capabilities : ∀ c, routing.requiredCapabilities.contains c →
    ∃ known, r.facts.capabilities.value = some known ∧ known.contains c
  context : ∀ minimum, routing.minimumContext = some minimum → ∃ v, r.facts.contextWindow.value = some v ∧ minimum ≤ v
  quantization : ∀ q ∈ routing.quantization, ∃ known, r.facts.quantization.value = some known ∧ q ∈ known
  privacy : ∀ required, routing.privacy = some required →
    ∃ v, r.facts.privacy.value = some v ∧ eqIgnoreAsciiCase v required
  zdr : routing.requireZdr = true → r.facts.zdr.value = some true
  data_policy : ∀ required, routing.dataPolicy = some required →
    ∃ v, r.facts.dataPolicy.value = some v ∧ eqIgnoreAsciiCase v required
  region : ∀ required, routing.region = some required →
    ∃ v, r.facts.region.value = some v ∧ eqIgnoreAsciiCase v required
  price : ∀ maxPrice, routing.maxPrice = some maxPrice → ∃ v, r.facts.price.value = some v ∧ v ≤ maxPrice

/-- Some quota window that covers the registration is exhausted at `now`. -/
def CoveredByExhausted (now : ℕ) (r : CredentialRegistration) : Prop :=
  (∃ subject unit w, s.quotas[((subject, unit) : QuotaSubject × QuotaUnit)]? = some w ∧
    subjectMatches subject r ∧ w.exhausted now) ∨
  ∃ unit w, s.bindingQuotas[((r.binding, unit) : BindingKey × QuotaUnit)]? = some w ∧ w.exhausted now

/-- A cooldown under the scope is one of the registration's, or of the route that asks for it. -/
def CooldownScope.covers (route : Option RouteId) (r : CredentialRegistration) : CooldownScope → Bool
  | .credential id => id = r.credential
  | .credentialModel id m => id = r.credential && m = r.model
  | .binding key => key = r.binding
  | .bindingModel key m => key = r.binding && m = r.model
  | .model m => m = r.model
  | .provider id => id = r.provider
  | .providerModel id m => id = r.provider && m = r.model
  | .route id => route = some id

/-- The entry passes every hard filter of a request whose model is resolved. -/
structure PassesFilters (s : RegistryState) (h : HealthRegistry) (request : SelectionRequest)
    (e : RegistryEntry) : Prop where
  routing : ∀ routing, request.routing = some routing → MeetsRouting s request routing e.registration
  credential_allowed : ∀ allowed, request.allowedCredentials = some allowed → e.registration.credential ∈ allowed
  binding_allowed : ∀ allowed, request.allowedBindings = some allowed → e.registration.binding ∈ allowed
  credential_not_excluded : e.registration.credential ∉ request.excludedCredentials
  binding_not_excluded : e.registration.binding ∉ request.excludedBindings
  pool : ∀ pool, request.poolId = some pool → e.registration.poolId = some pool
  model : e.registration.model = request.model
  capabilities : ∀ c, request.requiredCapabilities.contains c → e.registration.capabilities.contains c
  codec : ∀ codec, request.codec = some codec → codec ∈ e.registration.codecs
  enabled : e.enabled = true
  credential_healthy : isDisabled h.credentials[e.registration.credential]? = false
  binding_healthy : isDisabled h.bindings[e.registration.binding]? = false
  not_cooling : ∀ kind scope, (candidateSubject request e.registration).resolve kind = some scope →
    h.isCoolingDown scope request.now = false
  below_limit : ∀ limit, e.registration.maxInFlight = some limit → e.inFlight < limit
  quota : ¬CoveredByExhausted s request.now e.registration

/-- The entry may be given to the request: it is registered and passes every filter under the
model that the alias table resolves the request to. -/
def Eligible (h : HealthRegistry) (request : SelectionRequest)
    (e : RegistryEntry) : Prop :=
  Registered s e ∧ PassesFilters s h (resolveRequest s request) e

/-- The entry is eligible and no eligible entry has a smaller priority value. -/
def IsBest (h : HealthRegistry) (request : SelectionRequest)
    (e : RegistryEntry) : Prop :=
  Eligible s h request e ∧ ∀ e', Eligible s h request e' → e.registration.priority ≤ e'.registration.priority

/-- The request's key is bound, without permission to rebind, to a target that is not eligible in
the best tier and does not stand in a lower tier either. -/
def AffinityRefuses (h : HealthRegistry) (request : SelectionRequest) : Prop :=
  request.affinityRebind = false ∧ ∃ key a, request.affinityKey = some key ∧
    s.affinity[key]? = some a ∧ a.expiredAt request.now = false ∧
    (∀ e, IsBest s h request e → ¬(e.registration.binding = a.binding ∧
      e.registration.provider = a.provider ∧ e.registration.model = a.model)) ∧
    ∀ e best, Registered s e → e.registration.binding = a.binding → IsBest s h request best →
      e.registration.priority ≤ best.registration.priority

end Pooler
