import Pooler.Spec.Policy.Evaluate

/-! Selection: one eligible entry of the best priority tier, chosen by affinity or by
the strategy, takes a lease. -/

namespace Pooler

open Lib

/-- `i64::saturating_add` of a value in range. -/
def i64SaturatingAdd (a b : ℤ) : ℤ := max (-(2 ^ 63)) (min (2 ^ 63 - 1) (a + b))

/-- The position of a value in a configured order. Absent values sort last. -/
def positionIn {α : Type} (order : List α) (p : α → Bool) : ℕ :=
  match order.findIdx? p with
  | some i => i
  | none => usizeMax

variable (r : CredentialRegistration)

def orderedFallbackPosition (request : SelectionRequest) : ℕ :=
  match request.orderedBindings.findIdx? (· = r.binding) with
  | some i => i
  | none => positionIn request.orderedCredentials (· = r.credential)

variable (routing : RoutingRequirements)

def providerPosition : ℕ := positionIn routing.providerOrder (· = r.provider.asStr)

def targetPosition : ℕ := positionIn routing.targetOrder (targetMatchesRegistration · r)

def compareConfiguredOrder (left right : CredentialRegistration) (request : SelectionRequest) :
    Ordering :=
  match request.routing with
  | none => .eq
  | some routing =>
    if routing.providerOrder.isEmpty && routing.targetOrder.isEmpty then .eq
    else
      (compare (providerPosition left routing) (providerPosition right routing)).then <|
        (compare (targetPosition left routing) (targetPosition right routing)).then <|
        StringKeyed.cmp left.binding right.binding

def compareMetric (left right : RoutingMetric) : Ordering :=
  (compare left.known right.known).then <|
    (compare left.meetsThreshold right.meetsThreshold).then <|
    if left.lowerIsBetter then compare right.value left.value else compare left.value right.value

/-- The first metric that differs decides. -/
def compareMetrics : List RoutingMetric → List RoutingMetric → Ordering
  | l :: ls, r :: rs => (compareMetric l r).then (compareMetrics ls rs)
  | _, _ => .eq

def compareCandidates (left right : CandidateEvaluation) (request : SelectionRequest) : Ordering :=
  let position (f : CredentialRegistration → RoutingRequirements → ℕ) (c : CandidateEvaluation) : ℕ :=
    match request.routing with
    | some routing => f c.entry.registration routing
    | none => usizeMax
  (compareMetrics left.metrics right.metrics).then <|
    (compare (position providerPosition right) (position providerPosition left)).then <|
    (compare (position targetPosition right) (position targetPosition left)).then <|
    (compare right.entry.order left.entry.order).then <|
    StringKeyed.cmp right.entry.registration.binding left.entry.registration.binding

variable (request : SelectionRequest)

def compareFallback (left right : CandidateEvaluation) : Ordering :=
  (compare (orderedFallbackPosition left.entry.registration request)
    (orderedFallbackPosition right.entry.registration request)).then <|
    (compareConfiguredOrder left.entry.registration right.entry.registration request).then <|
    compare left.entry.order right.entry.order

def compareInFlight (left right : CandidateEvaluation) : Ordering :=
  (compare left.entry.inFlight right.entry.inFlight).then <|
    (compare left.entry.order right.entry.order).then <|
    (compareConfiguredOrder left.entry.registration right.entry.registration request).then <|
    StringKeyed.cmp left.entry.registration.binding right.entry.registration.binding

/-- Weights over loads, compared by cross multiplication. -/
def compareHealthWeight (left right : CandidateEvaluation) : Ordering :=
  (compare
      (satMul u64Max left.entry.registration.effectiveWeight (satAdd u32Max right.entry.inFlight 1))
      (satMul u64Max right.entry.registration.effectiveWeight (satAdd u32Max left.entry.inFlight 1))).then <|
    (compare right.entry.order left.entry.order).then <|
    (compareConfiguredOrder right.entry.registration left.entry.registration request).then <|
    StringKeyed.cmp right.entry.registration.binding left.entry.registration.binding

variable (current : Table BindingKey ℤ)

def compareSmooth (left right : CandidateEvaluation) : Ordering :=
  (compare current[left.entry.registration.binding]? current[right.entry.registration.binding]?).then <|
    (compare right.entry.order left.entry.order).then <|
    compareConfiguredOrder right.entry.registration left.entry.registration request

/-- Every eligible binding gains its weight. -/
def addWeights (tier : List CandidateEvaluation) : Table BindingKey ℤ :=
  tier.foldl (fun current c => current.upsert c.entry.registration.binding 0
    (i64SaturatingAdd · c.entry.registration.effectiveWeight)) current

variable (tier : List CandidateEvaluation)

def totalWeight : ℤ := tier.foldl (fun total c => i64SaturatingAdd total c.entry.registration.effectiveWeight) 0

def poolScope : PoolScope := ⟨request.model, request.poolId⟩

/-- The cursor key: the tier's bindings as a set, in key order. -/
def cursorScope (request : SelectionRequest) : CursorScope :=
  ⟨poolScope request, (Std.ExtTreeSet.ofList (tier.map (fun c => c.entry.registration.binding)) StringKeyed.cmp).toList⟩

variable (s : RegistryState)

/-- One candidate of a non-empty tier, with the strategy state after the choice. `first` is the
tier's first candidate, which stands where the source expects the tier to be non-empty. -/
def chooseIndex (first : CandidateEvaluation) (tier : List CandidateEvaluation)
    (request : SelectionRequest) : CandidateEvaluation × RegistryState :=
  if request.routing.any RoutingRequirements.adaptive then
    ((maxBy (compareCandidates · · request) tier).getD first, s)
  else match request.strategy with
    | .roundRobin =>
      let cursor := s.roundRobin[cursorScope tier request]?.getD 0
      (tier.getD (cursor % tier.length) first,
        { s with roundRobin := s.roundRobin.insert (cursorScope tier request) (satAdd usizeMax cursor 1) })
    | .smoothWeightedRoundRobin =>
      let current := addWeights (s.smoothCurrent[poolScope request]?.getD ∅) tier
      let selected := (maxBy (compareSmooth request current) tier).getD first
      let binding := selected.entry.registration.binding
      let current := match current[binding]? with
        | some value => current.insert binding (i64SaturatingAdd value (-totalWeight tier))
        | none => current
      (selected, { s with smoothCurrent := s.smoothCurrent.insert (poolScope request) current })
    | .fillFirst => (first, s)
    | .orderedFallback => ((minBy (compareFallback request) tier).getD first, s)
    | .leastInFlight => ((minBy (compareInFlight request) tier).getD first, s)
    | .healthWeighted => ((maxBy (compareHealthWeight request) tier).getD first, s)

/-- What a granted lease holds: its metadata, explanation and the slot it was granted. -/
structure LeaseGrant where
  registration : CredentialRegistration
  explanation : SelectionExplanation
  binding : BindingKey
  registrationOrder : ℕ
  deriving DecidableEq

def explainCandidates (evaluations : List CandidateEvaluation) (strategy : SelectionStrategy) :
    List CandidateExplanation :=
  evaluations.map (fun c =>
    { target := c.entry.registration.selectionTarget
      score := if c.reasons.isEmpty then some (c.score strategy) else none
      filterReasons := c.reasons })

variable (request : SelectionRequest)

/-- The request with its model resolved through the alias table. -/
def resolveRequest : SelectionRequest :=
  { request with model := (RegistryState.resolveAlias s.aliases request.model).getD request.model }

def expiresAt : ℕ := (instantCheckedAdd request.now request.affinityTtl).getD request.now

/-- The outcome of the affinity lookup: the explanation's entry, and either the bound candidate,
the provider it is rebound from, or a refusal. -/
inductive AffinityLookup where
  | free (decision : AffinityDecision)
  | bound (candidate : CandidateEvaluation) (decision : AffinityDecision)
  | rebind (key : AffinityKey) (previousProvider : ProviderId)
  | refused (decision : AffinityDecision)

def affinityLookup (evaluations tier : List CandidateEvaluation) (bestPriority : ℕ) : AffinityLookup :=
  match request.affinityKey with
  | none => .free .notRequested
  | some key =>
    match s.affinity[key]? with
    | none => .free (.noMatch key)
    | some a =>
      match tier.find? (fun c => c.entry.registration.binding = a.binding &&
          c.entry.registration.provider = a.provider && c.entry.registration.model = a.model) with
      | some c => .bound c (.matched key c.entry.registration.selectionTarget)
      | none =>
        if !request.affinityRebind && !evaluations.any (fun c =>
            c.entry.registration.binding = a.binding && c.entry.registration.priority > bestPriority) then
          .refused (.unavailable key ⟨a.provider, a.model, a.binding, none, none⟩)
        else .rebind key a.provider

/-- A request with a key binds it to the chosen target. -/
def takeAffinity (r : CredentialRegistration) :
    RegistryState :=
  match request.affinityKey with
  | none => s
  | some key => s.insertBoundedAffinity key ⟨r.binding, r.provider, r.model, request.now, expiresAt request⟩

/-- The chosen candidate takes its slot and, where the request has a key, the affinity entry. -/
def grant (explanation : SelectionExplanation)
    (c : CandidateEvaluation) : LeaseGrant × RegistryState :=
  let r := c.entry.registration
  ({ registration := r
     explanation := { explanation with
       selected := some r.selectionTarget
       selectedScore := some (c.score request.strategy)
       selectedPriority := some r.priority }
     binding := r.binding
     registrationOrder := c.entry.order },
   takeAffinity (s.grantSlot r.binding) request r)

/-- Refreshes the matched affinity entry in place. -/
def touchAffinity : RegistryState :=
  match request.affinityKey with
  | none => s
  | some key =>
    match s.affinity[key]? with
    | none => s
    | some a =>
      { s with affinity := s.affinity.insert key { a with lastUsedAt := request.now, expiresAt := expiresAt request } }

/-- The candidate that affinity or the strategy settles on, with the affinity decision and the
state after the strategy's own bookkeeping. -/
def pickCandidate (head : CandidateEvaluation)
    (tier : List CandidateEvaluation) :
    AffinityLookup → Except AffinityDecision (CandidateEvaluation × AffinityDecision × RegistryState)
  | .refused decision => .error decision
  | .bound c decision => .ok (c, decision, touchAffinity s request)
  | .rebind key previousProvider =>
    let (c, s) := chooseIndex s head tier (resolveRequest s request)
    .ok (c, .rebound key previousProvider c.entry.registration.selectionTarget, s)
  | .free decision =>
    let (c, s) := chooseIndex s head tier (resolveRequest s request)
    .ok (c, decision, s)

variable (first : CandidateEvaluation) (rest : List CandidateEvaluation)

/-- The smallest priority value among the eligible candidates `first :: rest`. -/
def bestPriority : ℕ :=
  rest.foldl (fun best c => min best c.entry.registration.priority) first.entry.registration.priority

def bestTier : List CandidateEvaluation :=
  (first :: rest).filter (fun c => c.entry.registration.priority = bestPriority first rest)

/-- Selection among the eligible candidates `first :: rest`, after the expired entries are gone. -/
def selectEligible (evaluations : List CandidateEvaluation) (explanation : SelectionExplanation)
    (first : CandidateEvaluation) (rest : List CandidateEvaluation) :
    Except SelectionError LeaseGrant × RegistryState :=
  match pickCandidate s request ((bestTier first rest).headD first) (bestTier first rest)
      (affinityLookup s request evaluations (bestTier first rest) (bestPriority first rest)) with
  | .error decision => (.error (.noEligible request.model { explanation with affinity := decision }), s)
  | .ok (c, decision, s) =>
    let (lease, s) := grant s request { explanation with affinity := decision } c
    (.ok lease, s)

/-- The state without the affinity entries and quota windows expired at `now`. -/
def RegistryState.dropExpired (now : ℕ) : RegistryState := (s.purgeExpiredAffinity now).recoverQuotas now

variable (h : HealthRegistry)

def evaluationsFor (request : SelectionRequest) :
    List CandidateEvaluation :=
  evaluateCandidates (s.dropExpired request.now) h (resolveRequest s request)

/-- The explanation before affinity and the choice have had their say. -/
def candidatesExplanation (request : SelectionRequest) :
    SelectionExplanation :=
  let resolved := (resolveRequest s request).model
  { candidates := explainCandidates (evaluationsFor s h request) request.strategy
    requestedModel := request.model
    resolvedModel := resolved
    aliasUsed := resolved ≠ request.model
    attempt := request.attempt
    configurationGeneration := request.configurationGeneration }

def selectFromState (request : SelectionRequest) :
    Except SelectionError LeaseGrant × RegistryState :=
  if request.affinityTtl = 0 then (.error .zeroAffinityTtl, s)
  else match (evaluationsFor s h request).filter (fun c => c.reasons.isEmpty) with
    | [] => (.error (.noEligible request.model (candidatesExplanation s h request)), s.dropExpired request.now)
    | first :: rest =>
      selectEligible (s.dropExpired request.now) request (evaluationsFor s h request)
        (candidatesExplanation s h request) first rest

end Pooler
