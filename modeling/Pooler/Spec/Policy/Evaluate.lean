import Pooler.Lib.Checks
import Pooler.Spec.Policy.Registry

/-! Candidate evaluation: every registered entry, in registration order, with the
reasons that keep it out of a selection. -/

namespace Pooler

open Lib HealthRegistry

/-- The part of a target identity after its last slash. -/
def stableTarget (identity : String) : Option String :=
  if '/' ∈ identity.toList then
    some (String.ofList (identity.toList.reverse.takeWhile (· ≠ '/')).reverse)
  else none

def targetMatchesRegistration (target : String) (r : CredentialRegistration) : Bool :=
  target = r.targetId.asStr || stableTarget r.targetId.asStr = some target

def eqIgnoreAsciiCase (a b : String) : Bool := toAsciiLowercase a = toAsciiLowercase b

structure RoutingMetric where
  (known meetsThreshold : Bool)
  value : ℕ
  lowerIsBetter : Bool
  deriving DecidableEq

structure CandidateEvaluation where
  entry : RegistryEntry
  reasons : List FilterReason
  metrics : List RoutingMetric
  deriving DecidableEq

/-- The score shown for a candidate, as an exact fraction. -/
def CandidateEvaluation.score (c : CandidateEvaluation) : SelectionStrategy → ℚ
  | .healthWeighted => (c.entry.registration.effectiveWeight : ℚ) / (satAdd u32Max c.entry.inFlight 1 : ℕ)
  | .smoothWeightedRoundRobin => c.entry.registration.effectiveWeight
  | .leastInFlight => 1 / (satAdd u32Max c.entry.inFlight 1 : ℕ)
  | .roundRobin | .fillFirst | .orderedFallback => 0

/-- A price metric: unknown values sort last. -/
def factMetric (value threshold : Option ℕ) (lowerIsBetter : Bool) : RoutingMetric :=
  { known := value.isSome
    meetsThreshold := value.any (fun v => threshold.all (fun limit => v ≤ limit))
    value := value.getD u64Max
    lowerIsBetter }

def routingMetrics (r : CredentialRegistration) (request : SelectionRequest) : List RoutingMetric :=
  match request.routing with
  | none => []
  | some routing =>
    let fresh := request.telemetry[r.binding]?.filter
      (fun s => s.freshAt request.telemetryNowMs routing.minSamples routing.staleAfterMs)
    let latency := fresh.bind TelemetrySample.latencyMs
    let throughput := fresh.bind TelemetrySample.throughputPerSecond
    (if routing.preferPrice then [factMetric r.facts.price.value routing.maxPrice true] else []) ++
    (if routing.preferLatency then [factMetric latency routing.maxLatencyMs true] else []) ++
    (if routing.preferThroughput then
      [{ known := throughput.isSome
         meetsThreshold := throughput.any (fun v => routing.minThroughput.all (fun m => v ≥ m))
         value := throughput.getD 0
         lowerIsBetter := false }]
    else [])

def routingConfigAllows (r : CredentialRegistration) (routing : RoutingRequirements) : Bool :=
  (routing.providerAllow.isEmpty || routing.providerAllow.contains r.provider.asStr) &&
    !routing.providerDeny.contains r.provider.asStr &&
    (routing.targetAllow.isEmpty || routing.targetAllow.toList.any (targetMatchesRegistration · r)) &&
    !routing.targetDeny.toList.any (targetMatchesRegistration · r)

def cooldownFilterReason : CooldownScopeKind → FilterReason
  | .credential => .credentialCooldown
  | .credentialModel => .credentialModelCooldown
  | .model => .modelCooldown
  | .provider => .providerCooldown
  | .providerModel => .providerModelCooldown
  | .route => .routeCooldown

/-- Registration order, ties by binding. -/
def entryBefore (a b : RegistryEntry) : Prop :=
  (compare a.order b.order).then (StringKeyed.cmp a.registration.binding b.registration.binding) ≠ .gt

instance : DecidableRel entryBefore := fun _ _ => inferInstanceAs (Decidable (_ ≠ _))

variable (s : RegistryState)

def sortedEntries : List RegistryEntry := s.entries.values.insertionSort entryBefore

variable (request : SelectionRequest)

/-- The best priority that the configured allow and deny lists leave for the requested model. -/
def fallbackPriority : Option ℕ :=
  request.routing.bind (fun routing =>
    (((sortedEntries s).filter (fun e => e.registration.model = request.model &&
      routingConfigAllows e.registration routing)).map (fun e => e.registration.priority)).min?)

/-- A required fact: unknown and insufficient values have reasons of their own. -/
def requireFact {α : Type} (value : Option α) (meets : α → Bool) (mismatch unknown : FilterReason) :
    Checks FilterReason :=
  match value with
  | some v => .refuse (!meets v) mismatch
  | none => .note [unknown]

/-- Required labels: an unknown fact ends the evaluation. -/
def requireLabels (required : KeySet String) (known : Option (KeySet String))
    (missing : String → FilterReason) (unknown : FilterReason) : Checks FilterReason :=
  if required.isEmpty then .note []
  else match known with
    | none => .halt unknown
    | some labels => .note ((required.toList.filter (fun l => !labels.contains l)).map missing)

def missingCapabilities (required known : CapabilitySet) : List FilterReason :=
  (required.difference known).toList.map (fun c => .missingCapability c.asStr)

/-- Required capabilities: an unknown fact ends the evaluation. -/
def requireCapabilities (required : CapabilitySet) (known : Option CapabilitySet) : Checks FilterReason :=
  if required.isEmpty then .note []
  else match known with
    | none => .halt (.missingCapability "unknown")
    | some known => .note (missingCapabilities required known)

/-- The filters of the configured routing requirements, in the order they run. -/
def routingChecks (routing : RoutingRequirements)
    (r : CredentialRegistration) : List (Checks FilterReason) :=
  [.refuse (!routing.providerAllow.isEmpty && !routing.providerAllow.contains r.provider.asStr)
      .providerNotAllowed,
   .refuse (routing.providerDeny.contains r.provider.asStr) .providerDenied,
   .refuse (!routing.targetAllow.isEmpty &&
      !routing.targetAllow.toList.any (targetMatchesRegistration · r)) .targetNotAllowed,
   .refuse (routing.targetDeny.toList.any (targetMatchesRegistration · r)) .targetDenied,
   .refuse (!routing.allowFallbacks && (fallbackPriority s request).any
      (fun priority => r.priority > priority && r.model = request.model)) .fallbackDisabled,
   requireLabels routing.requiredParameters r.facts.parameters.value .missingParameter .unknownParameters,
   requireCapabilities routing.requiredCapabilities r.facts.capabilities.value,
   .forSome routing.minimumContext (fun minimum =>
      requireFact r.facts.contextWindow.value (fun v => v ≥ minimum) .missingContext .unknownContext),
   requireLabels routing.quantization r.facts.quantization.value .missingQuantization .unknownQuantization,
   .forSome routing.privacy (fun required =>
      requireFact r.facts.privacy.value (eqIgnoreAsciiCase · required) .privacyMismatch .unknownPrivacy),
   if routing.requireZdr then requireFact r.facts.zdr.value id .zdrRequired .unknownZdr else .note [],
   .forSome routing.dataPolicy (fun required =>
      requireFact r.facts.dataPolicy.value (eqIgnoreAsciiCase · required) .dataPolicyMismatch .unknownDataPolicy),
   .forSome routing.region (fun required =>
      requireFact r.facts.region.value (eqIgnoreAsciiCase · required) .regionMismatch .unknownRegion),
   .forSome routing.maxPrice (fun maxPrice =>
      requireFact r.facts.price.value (fun v => v ≤ maxPrice) .priceExceeded .unknownPrice)]

/-- The subject under which a candidate's cooldowns are looked up. -/
def candidateSubject (r : CredentialRegistration) : HealthSubject :=
  { credential := some r.credential, model := some r.model, provider := some r.provider,
    route := request.route, binding := some r.binding }

variable (h : HealthRegistry) (request : SelectionRequest)

def healthReasons (r : CredentialRegistration) :
    List FilterReason :=
  if isDisabled h.credentials[r.credential]? || isDisabled h.bindings[r.binding]? then [.disabled]
  else (h.targetCooldownScopes (candidateSubject request r) request.now).map cooldownFilterReason

/-- Some window that covers the registration is exhausted. -/
def quotaExhausted (now : ℕ) (r : CredentialRegistration) : Bool :=
  s.quotas.toList.any (fun w => subjectMatches w.1.1 r && w.2.exhausted now) ||
    s.bindingQuotas.toList.any (fun w => w.1.1 = r.binding && w.2.exhausted now)

variable (e : RegistryEntry)

/-- The filters that every request applies, in the order they run. -/
def requestChecks : List (Checks FilterReason) :=
  let r := e.registration
  [.refuse (request.allowedCredentials.any (fun allowed => !allowed.contains r.credential) ||
      request.allowedBindings.any (fun allowed => !allowed.contains r.binding)) .routePolicy,
   .refuse (request.excludedCredentials.contains r.credential ||
      request.excludedBindings.contains r.binding) .routePolicy,
   .refuse (request.poolId.any (fun pool => r.poolId ≠ some pool)) .routePolicy,
   .refuse (r.model ≠ request.model) .modelMismatch,
   .note (missingCapabilities request.requiredCapabilities r.capabilities),
   .note ((request.codec.filter (fun codec => !r.codecs.contains codec)).toList.map .codecUnavailable),
   .refuse (!e.enabled) .credentialUnavailable,
   .note (healthReasons h request r),
   .refuse (r.maxInFlight.any (fun limit => e.inFlight ≥ limit)) .concurrencyLimit,
   .refuse (quotaExhausted s request.now r) .quotaExhausted]

def candidateChecks : List (Checks FilterReason) :=
  (match request.routing with
    | none => []
    | some routing => routingChecks s request routing e.registration) ++ requestChecks s h request e

def evaluateCandidate : CandidateEvaluation :=
  { entry := e
    reasons := (Checks.all (candidateChecks s h request e)).reasons
    metrics := routingMetrics e.registration request }

def evaluateCandidates :
    List CandidateEvaluation :=
  (sortedEntries s).map (evaluateCandidate s h request)

end Pooler
