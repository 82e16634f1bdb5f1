import Pooler.Spec.Policy.Health
import Pooler.Spec.Policy.Quota

/-! What selection reads: the registrations of target/account bindings, the routing
requirements, the request, and the explanation a selection returns. -/

namespace Pooler

open Lib

/-- A fact about a candidate, with its provenance. -/
inductive RoutingFact (α : Type) where
  | verified (v : α)
  | operatorDeclared (v : α)
  | unknown
  deriving DecidableEq

def RoutingFact.value {α : Type} : RoutingFact α → Option α
  | verified v => some v
  | operatorDeclared v => some v
  | unknown => none

structure CandidateFacts where
  parameters : RoutingFact (KeySet String) := .unknown
  capabilities : RoutingFact CapabilitySet := .unknown
  contextWindow : RoutingFact ℕ := .unknown
  quantization : RoutingFact (KeySet String) := .unknown
  privacy : RoutingFact String := .unknown
  zdr : RoutingFact Bool := .unknown
  (dataPolicy region : RoutingFact String := .unknown)
  price : RoutingFact ℕ := .unknown
  deriving DecidableEq

structure RoutingRequirements where
  providerOrder : List String := []
  (providerAllow providerDeny : KeySet String := ∅)
  targetOrder : List String := []
  (targetAllow targetDeny : KeySet String := ∅)
  allowFallbacks : Bool := true
  requiredParameters : KeySet String := ∅
  requiredCapabilities : CapabilitySet := .new
  minimumContext : Option ℕ := none
  quantization : KeySet String := ∅
  privacy : Option String := none
  requireZdr : Bool := false
  (dataPolicy region : Option String := none)
  maxPrice : Option ℕ := none
  (preferPrice preferLatency preferThroughput : Bool := false)
  (maxLatencyMs minThroughput : Option ℕ := none)
  minSamples : ℕ := 1
  staleAfterMs : ℕ := 5 * 60 * 1000

def RoutingRequirements.adaptive (r : RoutingRequirements) : Bool :=
  r.preferPrice || r.preferLatency || r.preferThroughput

structure TelemetrySample where
  (observedAtMs sampleCount staleAfterMs : ℕ)
  (latencyMs throughputPerSecond : Option ℕ)

def TelemetrySample.freshAt (s : TelemetrySample) (nowMs minSamples staleAfterMs : ℕ) : Bool :=
  s.sampleCount ≥ minSamples && nowMs - s.observedAtMs ≤ min staleAfterMs (max s.staleAfterMs 1)

/-- A redacted session key. Only its digest is kept. -/
structure AffinityKey where
  asStr : String
  deriving DecidableEq

instance : StringKeyed AffinityKey where
  key k := [k.asStr]
  key_injective a b h := by cases a; cases b; simpa using h

/-- Metadata of one target/account binding. The credential is the binding's account. -/
structure CredentialRegistration where
  binding : BindingKey
  provider : ProviderId
  model : ModelId
  capabilities : CapabilitySet
  facts : CandidateFacts
  codecs : KeySet String := ∅
  (weight targetWeight priority : ℕ := 1)
  poolId : Option String := none
  maxInFlight : Option ℕ := none
  quotaProject : Option QuotaProjectKey := none
  weight_pos : 0 < weight := by decide
  targetWeight_pos : 0 < targetWeight := by decide
  priority_pos : 0 < priority := by decide
  maxInFlight_ne : maxInFlight ≠ some 0 := by decide
  deriving DecidableEq

inductive RegistrationError where
  | zeroWeight | zeroTargetWeight | zeroPriority | zeroConcurrencyLimit | emptyPoolId | emptyCodec
  deriving DecidableEq, Repr

namespace CredentialRegistration

variable (r : CredentialRegistration)

def credential : CredentialId := r.binding.accountId

def targetId : TargetId := r.binding.targetId

def effectiveWeight : ℕ := max (satMul u32Max r.weight r.targetWeight) 1

def withBinding (binding : BindingKey) (provider : ProviderId) (model : ModelId)
    (capabilities : CapabilitySet) : CredentialRegistration :=
  { binding, provider, model, capabilities, facts := { capabilities := .operatorDeclared capabilities } }

def withFacts (facts : CandidateFacts) : CredentialRegistration := { r with facts }

def withWeight (weight : ℕ) :
    Except RegistrationError CredentialRegistration :=
  if h : weight = 0 then .error .zeroWeight
  else .ok { r with weight, weight_pos := Nat.pos_of_ne_zero h }

def withTargetWeight (weight : ℕ) :
    Except RegistrationError CredentialRegistration :=
  if h : weight = 0 then .error .zeroTargetWeight
  else .ok { r with targetWeight := weight, targetWeight_pos := Nat.pos_of_ne_zero h }

def withPriority (priority : ℕ) :
    Except RegistrationError CredentialRegistration :=
  if h : priority = 0 then .error .zeroPriority
  else .ok { r with priority, priority_pos := Nat.pos_of_ne_zero h }

def withPoolId (poolId : String) :
    Except RegistrationError CredentialRegistration :=
  if poolId.toList.all isWhitespace then .error .emptyPoolId else .ok { r with poolId := some poolId }

def withMaxInFlight (limit : ℕ) :
    Except RegistrationError CredentialRegistration :=
  if h : limit = 0 then .error .zeroConcurrencyLimit
  else .ok { r with maxInFlight := some limit, maxInFlight_ne := by simpa using h }

def withQuotaProject (project : QuotaProjectKey) :
    CredentialRegistration := { r with quotaProject := some project }

def withCodec (codec : String) :
    Except RegistrationError CredentialRegistration :=
  if codec.toList.all isWhitespace then .error .emptyCodec
  else .ok { r with codecs := r.codecs.insert codec }

end CredentialRegistration

inductive SelectionStrategy where
  | roundRobin | smoothWeightedRoundRobin | fillFirst | leastInFlight | healthWeighted
  | orderedFallback
  deriving DecidableEq, Repr

structure SelectionRequest where
  model : ModelId
  allowedCredentials : Option (KeySet CredentialId) := none
  allowedBindings : Option (KeySet BindingKey) := none
  orderedCredentials : List CredentialId := []
  orderedBindings : List BindingKey := []
  excludedCredentials : KeySet CredentialId := ∅
  excludedBindings : KeySet BindingKey := ∅
  requiredCapabilities : CapabilitySet := .new
  codec : Option String := none
  strategy : SelectionStrategy := .healthWeighted
  affinityKey : Option AffinityKey := none
  affinityTtl : ℕ := fromSecs (30 * 60)
  affinityRebind : Bool := true
  poolId : Option String := none
  routing : Option RoutingRequirements := none
  telemetry : Table BindingKey TelemetrySample := ∅
  telemetryNowMs : ℕ := 0
  route : Option RouteId := none
  attempt : ℕ := 1
  configurationGeneration : ℕ := 0
  now : ℕ

inductive FilterReason where
  | modelMismatch | missingCapability (name : String) | codecUnavailable (codec : String)
  | providerNotAllowed | providerDenied | targetNotAllowed | targetDenied | fallbackDisabled
  | missingParameter (name : String) | unknownParameters | missingContext | unknownContext
  | missingQuantization (name : String) | unknownQuantization | privacyMismatch | unknownPrivacy
  | zdrRequired | unknownZdr | dataPolicyMismatch | unknownDataPolicy | regionMismatch
  | unknownRegion | priceExceeded | unknownPrice | credentialUnavailable | credentialCooldown
  | credentialModelCooldown | modelCooldown | providerCooldown | providerModelCooldown
  | routeCooldown | concurrencyLimit | routePolicy | quotaExhausted | disabled
  deriving DecidableEq, Repr

/-- A target as a decision record shows it, with the binding in place of its pseudonyms. -/
structure SelectionTarget where
  provider : ProviderId
  model : ModelId
  binding : BindingKey
  priority : Option ℕ
  poolId : Option String
  deriving DecidableEq

def CredentialRegistration.selectionTarget (r : CredentialRegistration) : SelectionTarget :=
  ⟨r.provider, r.model, r.binding, some r.priority, r.poolId⟩

structure CandidateExplanation where
  target : SelectionTarget
  score : Option ℚ
  filterReasons : List FilterReason
  deriving DecidableEq

inductive AffinityDecision where
  | notRequested
  | noMatch (key : AffinityKey)
  | matched (key : AffinityKey) (target : SelectionTarget)
  | rebound (key : AffinityKey) (previousProvider : ProviderId) (target : SelectionTarget)
  | unavailable (key : AffinityKey) (target : SelectionTarget)
  deriving DecidableEq

structure SelectionExplanation where
  candidates : List CandidateExplanation
  affinity : AffinityDecision := .notRequested
  selected : Option SelectionTarget := none
  selectedScore : Option ℚ := none
  selectedPriority : Option ℕ := none
  (requestedModel resolvedModel : ModelId)
  aliasUsed : Bool
  (attempt configurationGeneration : ℕ)
  deriving DecidableEq

end Pooler
