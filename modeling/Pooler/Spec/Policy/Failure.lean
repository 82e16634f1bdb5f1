import Pooler.Spec.Core
import Pooler.Spec.Time

/-! Failure classification: a bounded observation of an upstream failure becomes a
class with its scope, replay rules, public response and optional cooldown. -/

namespace Pooler

inductive FailureSource where
  | downstream | upstream | transport | internal
  deriving DecidableEq, Repr

structure ObservedFailure where
  source : FailureSource := .upstream
  status : Option ℕ := none
  (providerCode message : Option String := none)
  retryAfter : Option ℕ := none
  deriving DecidableEq, Repr

structure ErrorClassification where
  errorClass : ErrorClass
  scope : ErrorScope
  retryability : Retryability
  replaySafety : ReplaySafety
  recoveryAfter : Option ℕ := none
  deriving DecidableEq, Repr

structure PublicResponse where
  status : ℕ
  (code message : String)
  deriving DecidableEq, Repr

structure RedactedEvidence where
  status : Option ℕ := none
  (providerCode summary : Option String := none)
  deriving DecidableEq, Repr

inductive CredentialCausation where
  | unknown | proven
  deriving DecidableEq, Repr

inductive CooldownScopeKind where
  | credential | credentialModel | model | provider | providerModel | route
  deriving DecidableEq, Repr

structure CooldownSpec where
  scope : CooldownScopeKind
  duration : ℕ
  deriving DecidableEq, Repr

structure FailureClassification where
  classification : ErrorClassification
  response : PublicResponse
  evidence : RedactedEvidence := {}
  cooldown : Option CooldownSpec := none
  credentialCausation : CredentialCausation := .unknown
  deriving DecidableEq, Repr

namespace FailureClassification

/-- The conservative defaults of a class: scope, retryability, replay safety and response. -/
def classDefaults : ErrorClass → ErrorScope × Retryability × ReplaySafety × PublicResponse
  | .downstreamAuthentication => (.downstream, .never, .notReplayable,
      ⟨401, "downstream_authentication", "downstream authentication failed"⟩)
  | .invalidRequest => (.downstream, .never, .notReplayable,
      ⟨400, "invalid_request", "the downstream request is invalid"⟩)
  | .unsupportedConversion => (.route, .never, .notReplayable,
      ⟨422, "unsupported_conversion", "the requested conversion is unsupported"⟩)
  | .providerAuthentication => (.credential, .beforeCommit, .replayable,
      ⟨401, "provider_authentication", "provider authentication failed"⟩)
  | .credentialQuotaExhausted => (.credential, .beforeCommit, .replayable,
      ⟨429, "credential_quota_exhausted", "credential quota is exhausted"⟩)
  | .modelQuotaExhausted => (.model, .beforeCommit, .replayable,
      ⟨429, "model_quota_exhausted", "model quota is exhausted"⟩)
  | .providerRateLimited => (.provider, .beforeCommit, .replayable,
      ⟨429, "provider_rate_limited", "provider rate limited the request"⟩)
  | .providerUnavailable => (.provider, .beforeCommit, .replayable,
      ⟨503, "provider_unavailable", "provider is unavailable"⟩)
  | .network | .timeout => (.provider, .beforeCommit, .replayable,
      ⟨503, "upstream_unavailable", "the upstream operation failed"⟩)
  | .invalidUpstreamResponse => (.provider, .never, .notReplayable,
      ⟨502, "invalid_upstream_response", "upstream response was invalid"⟩)
  | .incompleteStream => (.provider, .beforeCommit, .replayable,
      ⟨502, "incomplete_upstream_stream", "upstream stream ended unexpectedly"⟩)
  | .internalInvariant => (.internal, .never, .notReplayable,
      ⟨500, "internal_invariant", "an internal invariant failed"⟩)
  | .downstreamDisconnected => (.downstream, .never, .notReplayable,
      ⟨499, "downstream_disconnected", "downstream client disconnected"⟩)

def forClass (c : ErrorClass) : FailureClassification :=
  match classDefaults c with
  | (scope, retryability, replaySafety, response) =>
    { classification := { errorClass := c, scope, retryability, replaySafety }, response }

variable (f : FailureClassification)

def withRecoveryAfter (delay : ℕ) : FailureClassification :=
  { f with classification := { f.classification with recoveryAfter := some delay } }

def withCooldown (spec : CooldownSpec) : FailureClassification := { f with cooldown := some spec }

def isRequestInvalid : Bool :=
  f.classification.errorClass = .invalidRequest || f.classification.errorClass = .unsupportedConversion

end FailureClassification

/-- `u8::to_ascii_lowercase` on every character. -/
def toAsciiLowercase (s : String) : String := String.ofList (s.toList.map Char.toLower)

/-- `str::contains` with a string pattern. -/
def strContains (value needle : String) : Bool := decide (needle.toList <:+: value.toList)

def hasAny (value : String) (needles : List String) : Bool := needles.any (strContains value)

variable (failure : ObservedFailure)

def providerHint : String :=
  let code := (failure.providerCode.map toAsciiLowercase).getD ""
  match failure.message with
  | none => code
  | some message => (if code = "" then "" else code ++ " ") ++ toAsciiLowercase message

def classifyUpstreamClass : ErrorClass :=
  let hint := providerHint failure
  if hasAny hint ["invalid_request", "invalid_argument", "bad_request", "malformed",
      "validation_error"] then .invalidRequest
  else if hasAny hint ["insufficient_quota", "quota_exceeded", "billing_hard_limit",
      "resource_exhausted", "quota", "daily_limit", "monthly_limit", "credit_exhausted"] then
    if hasAny hint ["model_quota", "model_limit", "model_capacity"] then .modelQuotaExhausted
    else .credentialQuotaExhausted
  else if hasAny hint ["invalid_api_key", "invalid_auth", "authentication", "unauthorized"] ||
      ((failure.status = some 401 || failure.status = some 403) &&
        !hasAny hint ["invalid_request", "invalid_argument"]) then .providerAuthentication
  else if failure.status = some 429 ||
      hasAny hint ["rate_limit", "too_many_requests", "throttl", "overload",
        "temporarily_unavailable"] then .providerRateLimited
  else match failure.status with
    | some status =>
      if status = 408 ∨ (500 ≤ status ∧ status ≤ 599) then .providerUnavailable
      else if 400 ≤ status ∧ status ≤ 499 then .invalidRequest
      else .invalidUpstreamResponse
    | none => .invalidUpstreamResponse

def defaultRecoveryFor : ErrorClass → ℕ
  | .providerAuthentication => fromSecs 30
  | .credentialQuotaExhausted | .modelQuotaExhausted => fromSecs 60
  | .providerRateLimited => fromSecs 1
  | .providerUnavailable => fromSecs 1
  | _ => 0

def allowsRecoveryHint : ErrorClass → Bool
  | .providerAuthentication | .credentialQuotaExhausted | .modelQuotaExhausted
  | .providerRateLimited | .providerUnavailable => true
  | _ => false

def cooldownScopeFor : ErrorClass → Option CooldownScopeKind
  | .providerAuthentication | .credentialQuotaExhausted => some .credential
  | .modelQuotaExhausted => some .model
  | .providerRateLimited | .providerUnavailable => some .provider
  | _ => none

def failureClassOf : ErrorClass :=
  match failure.source with
  | .downstream =>
    if failure.status = some 401 ∨ failure.status = some 403 then .downstreamAuthentication
    else .invalidRequest
  | .transport => .network
  | .internal => .internalInvariant
  | .upstream => classifyUpstreamClass failure

def classifyProviderFailure : FailureClassification :=
  let c := failureClassOf failure
  let result := { FailureClassification.forClass c with
    evidence := ⟨failure.status, failure.providerCode, failure.message⟩ }
  let recovery := failure.retryAfter.getD (defaultRecoveryFor c)
  if recovery > 0 ∧ allowsRecoveryHint c then
    match cooldownScopeFor c with
    | some scope => (result.withRecoveryAfter recovery).withCooldown ⟨scope, recovery⟩
    | none => result.withRecoveryAfter recovery
  else result

end Pooler
