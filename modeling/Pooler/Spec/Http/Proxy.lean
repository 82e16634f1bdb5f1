import Pooler.Spec.Http.Pool

/-! The retry loop of one request under a policy. Each round takes a selection, a forced one or a
fresh one, and makes an attempt; a failed attempt is classified and either ends the loop or
starts the next round, with or without a replacement at hand. -/

namespace Pooler

open Lib

/-- A selection under a policy: the registration it was granted, the key of the registry that
granted it, the request that it answers, and its lease while it has one. -/
structure PoolSelection where
  registration : CredentialRegistration
  registryKey : String
  lease : Option ℕ
  request : SelectionRequest
  networkRetryExclusions : KeySet BindingKey := ∅

namespace PoolSelection

variable (s : PoolSelection)

def provider : ProviderId := s.registration.provider

def credential : CredentialId := s.registration.credential

/-- The request without the exclusions of the preceding transport retry. -/
def retrySelectionRequest : SelectionRequest :=
  { s.request with
    excludedBindings := s.request.excludedBindings.filter (fun b => !s.networkRetryExclusions.contains b) }

def subject : HealthSubject :=
  { credential := some s.credential, model := some s.registration.model, provider := some s.provider
    route := s.request.route, binding := some s.registration.binding }

end PoolSelection

/-- The targets that the attempts of a request have used. -/
structure UsedTargets where
  credentials : KeySet CredentialId := ∅
  providers : KeySet ProviderId := ∅

def UsedTargets.add (used : UsedTargets) (s : PoolSelection) : UsedTargets where
  credentials := used.credentials.insert s.credential
  providers := used.providers.insert s.provider

namespace World

variable (w : World)

/-- A selection from the registry of a key. Its lease is the next ticket. -/
def lend (key : String) (i : ℕ) (request : SelectionRequest) :
    Except SelectionError PoolSelection × World :=
  let (result, w') := w.selectWith i (w.registries i).health request
  (result.map (fun grant => { registration := grant.registration, registryKey := key
                              lease := some w.holdings.length, request }), w')

def dropLease : Option ℕ → World
  | none => w
  | some t => w.dropTicket t

/-- `apply_quota_classification` for each observed window. -/
def applyQuotas (i : ℕ) (credential : CredentialId) (quotas : List QuotaClassification) : World :=
  quotas.foldl (fun w quota => w.step (.op i (.setQuotaSnapshot credential quota.snapshot))) w

/-- The registries of a view, installed next to the `created` ones. Leases of the old ones live on. -/
def install (created : ℕ) (view : RegistryView) : World :=
  { w with registries := fun i => if i < created then w.registries i else (World.ofView view).registries (i - created) }

end World

/-- What the loop reads of a policy plan. The bounds on targets are `u32`s. -/
structure PolicyPlan where
  retry : RetryPolicy
  allowsStatus : ℕ → Bool
  maxCredentials_le : retry.maxCredentials ≤ u32Max
  maxProviders_le : retry.maxProviders ≤ u32Max

/-- What a failed attempt reports, with its class and the quota windows seen with it. -/
structure FailureInput where
  status : Option ℕ
  classification : FailureClassification
  quotas : List QuotaClassification := []
  replay : ReplayCheck
  idempotencyKeyPresent : Bool := false
  elapsed : ℕ := 0
  now : ℕ

/-- What a rejected native authorization reports. `consumed` says whether an attempt was sent with
it, `unavailable` whether its binding is out for this request, and `unsupported` which bindings
the native runtime does not serve. -/
structure NativeReauthInput where
  replay : ReplayCheck
  idempotencyKeyPresent : Bool := false
  elapsed : ℕ := 0
  now : ℕ
  (consumed unavailable : Bool)
  unsupported : BindingKey → Bool

inductive LoopPhase where
  | choosing (forced : Option PoolSelection)
  | attempting (selection : PoolSelection)
  | finished

/-- The loop and the coordinator's state. The registry of the key at place `n` is `base + n`. -/
structure ProxyLoop where
  world : World
  keys : List String
  base : ℕ := 0
  index : BindingIndex
  attempt : ℕ := 1
  (elapsedRetryDelay elapsedRecoveryWait : ℕ := 0)
  used : UsedTargets := {}
  phase : LoopPhase := .choosing none

/-- A classified failure: the decision, the replacement if one was reserved, and what became of
the registries and of the failed selection's lease. -/
structure PoolFailure where
  decision : RetryDecision
  replacement : Option PoolSelection
  world : World
  lease : Option ℕ

namespace ProxyLoop

variable (policy : PolicyPlan) (s : ProxyLoop)

def registryFor (key : String) : Option ℕ := (s.keys.idxOf? key).map (s.base + ·)

/-- `select_with_context`, for the keys and requests of the model and its fallbacks in turn. -/
def selectFirst (w : World) : List (String × SelectionRequest) → Option PoolSelection × World
  | [] => (none, w)
  | (key, request) :: chain =>
    match s.registryFor key with
    | none => selectFirst w chain
    | some i =>
      match w.lend key i request with
      | (.ok selection, w) =>
        if s.index.contains selection.registration.binding then (some selection, w)
        else (none, w.dropLease selection.lease)
      | (.error (.noEligible _ _), w) => selectFirst w chain
      | (.error _, w) => (none, w)

def context (replay : ReplayCheck) (idempotencyKeyPresent : Bool) (elapsed : ℕ) : RetryContext :=
  { attempt := s.attempt, commitment := .uncommitted, replay, elapsed, idempotencyKeyPresent
    credentialsUsed := min s.used.credentials.size u32Max
    providersUsed := min s.used.providers.size u32Max
    elapsedRetryDelay := s.elapsedRetryDelay
    elapsedRecoveryWait := s.elapsedRecoveryWait }

variable (failed : PoolSelection)

def retryRequest (now : ℕ) : SelectionRequest :=
  { failed.retrySelectionRequest with attempt := satAdd u32Max s.attempt 1, now }

/-- The context for a candidate: a target that was used before takes nothing of its budget. -/
def candidateContext (context : RetryContext) (candidate : PoolSelection) (targetChange : RetryTargetChange) :
    RetryContext :=
  { context with
    credentialsUsed :=
      if s.used.credentials.contains candidate.credential then context.credentialsUsed - 1
      else context.credentialsUsed
    providersUsed :=
      if s.used.providers.contains candidate.provider then context.providersUsed - 1
      else context.providersUsed
    targetChange }

/-! ### Transport failures -/

/-- `insert_network_retry_exclusions`: the request with the exclusions, and those that are new. -/
def insertNetworkRetryExclusions (request : SelectionRequest) (exclusions : List BindingKey) :
    SelectionRequest × KeySet BindingKey :=
  ({ request with excludedBindings := request.excludedBindings.insertMany exclusions },
    Std.ExtTreeSet.ofList (exclusions.filter (fun b => !request.excludedBindings.contains b)) _)

/-- The bindings whose use would exceed a budget that is full. -/
def budgetExclusions (context : RetryContext) : List BindingKey :=
  (s.index.toList.filter (fun (binding, provider) =>
    (context.credentialsUsed ≥ policy.retry.maxCredentials && !s.used.credentials.contains binding.accountId) ||
      (context.providersUsed ≥ policy.retry.maxProviders && !s.used.providers.contains provider))).map Prod.fst

def providerBindings (ofProvider : ProviderId → Bool) : List BindingKey :=
  (s.index.toList.filter (fun (_, provider) => ofProvider provider)).map Prod.fst

variable (i : ℕ)

/-- The second choice of a transport retry: another binding of the failed provider. -/
def fallbackReplacement (base : SelectionRequest) (budget : List BindingKey)
    (fallback : RetryDecision) (w : World) : Option (RetryDecision × Option PoolSelection) × World :=
  if !fallback.isRetry then (none, w)
  else
    let (request, exclusions) := insertNetworkRetryExclusions base
      (budget ++ s.providerBindings (fun provider => provider ≠ failed.provider))
    match w.lend failed.registryKey i request with
    | (.ok candidate, w) =>
      if candidate.provider = failed.provider then
        (some (fallback, some { candidate with networkRetryExclusions := exclusions }), w)
      else (some (.doNotRetry .noAlternateTarget, none), w.dropLease candidate.lease)
    | (.error _, w) => (some (.doNotRetry .noAlternateTarget, none), w)

/-- `network_retry_replacement`: a binding of another provider first. -/
def networkRetryReplacement (classification : FailureClassification)
    (fallback : RetryDecision) (context : RetryContext) (now : ℕ) (w : World) :
    Option (RetryDecision × Option PoolSelection) × World :=
  match failed.lease with
  | none => (none, w)
  | some t =>
    let base := s.retryRequest failed now
    let budget := s.budgetExclusions policy context
    let (request, exclusions) := insertNetworkRetryExclusions base
      (budget ++ s.providerBindings (fun provider => provider = failed.provider))
    match (w.dropTicket t).lend failed.registryKey i request with
    | (.ok candidate, w) =>
      let decision := policy.retry.decide classification (s.candidateContext context candidate .differentProvider)
      if candidate.provider ≠ failed.provider && decision.isRetry then
        (some (decision, some { candidate with networkRetryExclusions := exclusions }), w)
      else s.fallbackReplacement failed i base budget fallback (w.dropLease candidate.lease)
    | (.error _, w) => s.fallbackReplacement failed i base budget fallback w

/-! ### Classified failures -/

/-- The exhausted window that is reset last. -/
def latestExhausted (quotas : List QuotaClassification) (now : ℕ) : Option QuotaClassification :=
  maxBy (fun a b => compare a.snapshot.resetAt b.snapshot.resetAt) (quotas.filter (fun quota => quota.exhausted now))

variable (input : FailureInput)

/-- The class of the failure; an exhausted window that is typed itself takes precedence. -/
def effectiveClassification : FailureClassification :=
  let classification :=
    if input.classification.classification.errorClass = .credentialQuotaExhausted then
      { input.classification with credentialCausation := .proven }
    else input.classification
  ((latestExhausted input.quotas input.now).bind QuotaClassification.failure).getD classification

/-- The quota window that a failure rotates for, where the policy retries its status. -/
def rotationQuota : Option QuotaClassification :=
  if input.status.all policy.allowsStatus then latestExhausted input.quotas input.now else none

def rotateRequest (now : ℕ) : SelectionRequest :=
  { s.retryRequest failed now with
    excludedCredentials := failed.request.excludedCredentials.insert failed.credential }

/-- The quota rotation of a failure. The lease is given up for the recovery, whatever comes of it. -/
def rotate (quota : QuotaClassification) (context : RetryContext)
    (now : ℕ) : Option (RetryDecision × Option PoolSelection) × World :=
  match failed.lease with
  | none => (none, s.world)
  | some t =>
    match s.world.holdings[t]? with
    | none => (none, s.world)
    | some held =>
      match s.world.recoverQuota i t held quota (s.rotateRequest failed now) policy.retry context with
      | (.error _, w) => (none, w)
      | (.ok recovery, w) =>
        (some (recovery.retryDecision, recovery.selection.map (fun grant =>
          { registration := grant.registration, registryKey := failed.registryKey
            lease := some s.world.holdings.length, request := s.rotateRequest failed now })), w)

/-- The windows and the cooldown of a failure, applied to the failed selection's registry. -/
def applyFailed (w : World) : World :=
  (w.applyQuotas i failed.credential input.quotas).step
    (.op i (.applyFailure (effectiveClassification input) failed.subject input.now))

variable (context : RetryContext)

/-- What the policy decides without a rotation. -/
def plainDecision : RetryDecision :=
  if input.status.all policy.allowsStatus then policy.retry.decide (effectiveClassification input) context
  else .doNotRetry .classificationNotRetryable

def reconsidersTargets (decision : RetryDecision) : Bool :=
  decision.isRetry || decision = .doNotRetry .providersExhausted

/-- The end of a failure that no rotation has replaced: a transport failure looks for a target of
its own. -/
def reconsider (decision : RetryDecision) (w : World) : PoolFailure :=
  if (effectiveClassification input).classification.errorClass = .network && reconsidersTargets decision then
    match s.networkRetryReplacement policy failed i (effectiveClassification input) decision context
        input.now w with
    | (some (decision, replacement), w) => ⟨decision, replacement, w, none⟩
    | (none, w) => ⟨decision, none, w, none⟩
  else ⟨decision, none, w, failed.lease⟩

/-- `classify_failure` in the registry of the failed selection. Windows are applied on every way;
the cooldown is applied here unless the recovery has done so. -/
def classifyIn :
    PoolFailure :=
  match rotationQuota policy input with
  | none =>
    s.reconsider policy failed i input context (plainDecision policy input context) (applyFailed failed i input s.world)
  | some quota =>
    match s.rotate policy failed i quota context input.now with
    | (some (decision, some replacement), w) =>
      ⟨decision, some replacement, w.applyQuotas i failed.credential input.quotas, none⟩
    | (some (decision, none), w) =>
      s.reconsider policy { failed with lease := none } i input context decision
        (w.applyQuotas i failed.credential input.quotas)
    | (none, w) =>
      s.reconsider policy { failed with lease := none } i input context (plainDecision policy input context)
        (applyFailed failed i input w)

/-- `classify_failure`. The registry may have gone with a rebuilt view. -/
def classifyFailure : PoolFailure :=
  let context := s.context input.replay input.idempotencyKeyPresent input.elapsed
  match s.registryFor failed.registryKey with
  | none => ⟨plainDecision policy input context, none, s.world, failed.lease⟩
  | some i => s.classifyIn policy failed i input context

/-! ### Rejected native authorizations -/

def reauthClassification : FailureClassification :=
  { FailureClassification.forClass .providerAuthentication with credentialCausation := .proven }

/-- An authorization that was rejected before anything was sent leaves its attempt unused. -/
def reauthPolicy (consumed : Bool) : RetryPolicy :=
  if consumed then policy.retry
  else { policy.retry with
    maxAttempts := satAdd u32Max policy.retry.maxAttempts 1
    maxAttempts_pos := by have := policy.retry.maxAttempts_pos; simp only [satAdd, u32Max]; omega }

/-- The bindings that a rejected authorization leaves out: those that the runtime does not serve,
those of the rejected credential, and those that would exceed a budget that is full. -/
def reauthExclusions (input : NativeReauthInput) : List BindingKey :=
  (((s.world.registries i).state.entries.values.map RegistryEntry.registration).filter (fun r =>
    input.unsupported r.binding || (input.unavailable && r.credential = failed.credential) ||
      (s.used.credentials.size ≥ policy.retry.maxCredentials && !s.used.credentials.contains r.credential) ||
      (s.used.providers.size ≥ policy.retry.maxProviders && !s.used.providers.contains r.provider))).map
    CredentialRegistration.binding

/-- How a candidate leaves the rejected credential. -/
def reauthTargetChange (failed candidate : PoolSelection) : RetryTargetChange :=
  if candidate.credential = failed.credential then .sameTarget
  else if candidate.provider = failed.provider then .differentCredential
  else .differentProvider

/-- The request for what replaces a rejected authorization. -/
def reauthRequest (input : NativeReauthInput) : SelectionRequest :=
  { failed.retrySelectionRequest with
    attempt := if input.consumed then satAdd u32Max s.attempt 1 else s.attempt
    now := input.now
    excludedBindings :=
      failed.retrySelectionRequest.excludedBindings.insertMany (s.reauthExclusions policy failed i input) }

def reauthContext (input : NativeReauthInput) : RetryContext :=
  { s.context input.replay input.idempotencyKeyPresent input.elapsed with
    targetChange := .differentCredential }

/-- The replacement of a rejected authorization, from the registry of the failed selection. -/
def reauthIn (input : NativeReauthInput) : Except World PoolFailure :=
  match (s.world.dropLease failed.lease).lend failed.registryKey i (s.reauthRequest policy failed i input) with
  | (.ok candidate, w) =>
    let decision := (reauthPolicy policy input.consumed).decide reauthClassification
      (s.candidateContext (s.reauthContext input) candidate (reauthTargetChange failed candidate))
    if decision.isRetry then .ok ⟨decision, some candidate, w, none⟩
    else .ok ⟨decision, none, w.dropLease candidate.lease, none⟩
  | (.error (.noEligible _ _), w) => .ok ⟨.doNotRetry .noAlternateTarget, none, w, none⟩
  | (.error _, w) => .error w

/-- `classify_native_reauth`. An error ends the request. A full credential budget does not end it
yet, since the replacement may be a credential that was used before. -/
def classifyNativeReauth (input : NativeReauthInput) : Except World PoolFailure :=
  let decision := (reauthPolicy policy input.consumed).decide reauthClassification (s.reauthContext input)
  if !(decision.isRetry || decision = .doNotRetry .credentialsExhausted) then
    .ok ⟨decision, none, s.world, failed.lease⟩
  else
    match s.registryFor failed.registryKey with
    | none => .ok ⟨.doNotRetry .noAlternateTarget, none, s.world, failed.lease⟩
    | some i => s.reauthIn policy failed i input

/-! ### The loop -/

/-- The head of the loop: the selection is used from here on. -/
def attemptWith (selection : PoolSelection) (world : World) : ProxyLoop :=
  { s with world, used := s.used.add selection, phase := .attempting selection }

/-- What follows a classified failure. A retry drops the failed selection, waits and goes round. -/
def afterFailure (failure : PoolFailure) (consumed : Bool) : ProxyLoop :=
  if failure.decision.isRetry then
    { s with
      world := failure.world.dropLease failure.lease
      attempt := if consumed then satAdd u32Max s.attempt 1 else s.attempt
      elapsedRetryDelay := durationSaturatingAdd s.elapsedRetryDelay failure.decision.retryDelay
      elapsedRecoveryWait := durationSaturatingAdd s.elapsedRecoveryWait failure.decision.recoveryWait
      phase := .choosing failure.replacement }
  else { s with world := failure.world, phase := .finished }

end ProxyLoop

structure BuiltView where
  digests : Digests
  config : PoolConfig
  catalog : List CatalogModel
  view : RegistryView
  built : buildRegistryView digests config catalog = .ok view

/-- What happens between two rounds or ends one. Other callers never register or remove bindings;
only a rebuilt view changes them. -/
inductive ProxyEvent where
  | others (e : WorldEvent) (keeps : e.keepsBindings = true)
  | rebuilt (view : BuiltView)
  | choose (chain : List (String × SelectionRequest))
  | resent
  | failed (input : FailureInput)
  | reauth (input : NativeReauthInput)
  | responded

namespace ProxyLoop

def start (view : BuiltView) : ProxyLoop where
  world := World.ofView view.view
  keys := view.view.registries.keys
  index := view.view.index

/-- `sync_catalog_snapshot`: the view is replaced as a whole. -/
def rebuild (s : ProxyLoop) (view : BuiltView) : ProxyLoop :=
  { s with
    world := s.world.install (s.base + s.keys.length) view.view
    keys := view.view.registries.keys
    base := s.base + s.keys.length
    index := view.view.index }

/-- One event. A refreshed authorization or another transport sends the same selection again. -/
def step (policy : PolicyPlan) (s : ProxyLoop) (e : ProxyEvent) : ProxyLoop :=
  match e, s.phase with
  | .others e _, _ => { s with world := s.world.step e }
  | .rebuilt view, _ => s.rebuild view
  | .choose _, .choosing (some selection) => s.attemptWith selection s.world
  | .choose chain, .choosing none =>
    match s.selectFirst s.world chain with
    | (some selection, world) => s.attemptWith selection world
    | (none, world) => { s with world, phase := .finished }
  | .resent, .attempting selection =>
    if s.attempt < policy.retry.maxAttempts then
      { s with attempt := satAdd u32Max s.attempt 1, phase := .choosing (some selection) }
    else s
  | .failed input, .attempting selection => s.afterFailure (s.classifyFailure policy selection input) true
  | .reauth input, .attempting selection =>
    match s.classifyNativeReauth policy selection input with
    | .ok failure => s.afterFailure failure input.consumed
    | .error world => { s with world, phase := .finished }
  | .responded, .attempting _ => { s with phase := .finished }
  | _, _ => s

def run (policy : PolicyPlan) (s : ProxyLoop) (events : List ProxyEvent) : ProxyLoop := Lib.run (step policy) s events

end ProxyLoop

end Pooler
