import Pooler.Lib.Guards
import Pooler.Lib.Trace
import Pooler.Spec.Policy.Failure

/-! The retry policy: bounds, the decision for one failed attempt, and the loop
that feeds each decision's charges into the context of the next one. -/

namespace Pooler

open Lib

inductive CommitmentState where
  | uncommitted | headersSent | committed
  deriving DecidableEq, Repr

def CommitmentState.isCommitted (s : CommitmentState) : Bool := s ≠ .uncommitted

def CommitmentState.markHeadersSent (s : CommitmentState) : CommitmentState :=
  if s = .uncommitted then .headersSent else s

def CommitmentState.markCommitted (_ : CommitmentState) : CommitmentState := .committed

structure ReplayCheck where
  (bodyReplayable operationReplayable noNonrepeatableSideEffect sessionAllowsReplay : Bool)
  deriving DecidableEq, Repr

namespace ReplayCheck

def safe : ReplayCheck := ⟨true, true, true, true⟩

def isSafe (r : ReplayCheck) : Bool :=
  r.bodyReplayable && r.operationReplayable && r.noNonrepeatableSideEffect && r.sessionAllowsReplay

end ReplayCheck

inductive RetryTargetChange where
  | sameTarget | differentCredential | differentProvider
  deriving DecidableEq, Repr

def RetryTargetChange.avoids : RetryTargetChange → ErrorScope → Bool
  | .differentCredential, .credential => true
  | .differentProvider, .credential => true
  | .differentProvider, .provider => true
  | _, _ => false

structure RetryContext where
  attempt : ℕ
  commitment : CommitmentState
  replay : ReplayCheck
  (elapsedRetryDelay elapsed : ℕ := 0)
  (credentialsUsed providersUsed : ℕ := 1)
  elapsedRecoveryWait : ℕ := 0
  idempotencyKeyPresent : Bool := false
  targetChange : RetryTargetChange := .sameTarget
  deriving DecidableEq, Repr

inductive RetryStopReason where
  | downstreamCommitted | notReplaySafe | classificationNotRetryable | requiresIdempotencyKey
  | attemptsExhausted | credentialsExhausted | providersExhausted | recoveryWaitExhausted
  | retryBudgetExhausted | noAlternateTarget
  deriving DecidableEq, Repr

inductive RetryReason where
  | replaySafeBeforeCommit | alternateCredential | alternateProvider
  deriving DecidableEq, Repr

inductive RetryDecision where
  | retry (delay retryDelay recoveryWait : ℕ) (reason : RetryReason)
  | doNotRetry (reason : RetryStopReason)
  deriving DecidableEq, Repr

namespace RetryDecision

def isRetry : RetryDecision → Bool
  | retry .. => true
  | doNotRetry _ => false

def delay : RetryDecision → ℕ
  | retry delay _ _ _ => delay
  | doNotRetry _ => 0

def retryDelay : RetryDecision → ℕ
  | retry _ retryDelay _ _ => retryDelay
  | doNotRetry _ => 0

def recoveryWait : RetryDecision → ℕ
  | retry _ _ recoveryWait _ => recoveryWait
  | doNotRetry _ => 0

end RetryDecision

/-- Bounds that have passed the constructors' validation. -/
structure RetryPolicy where
  (maxAttempts maxCredentials maxProviders baseDelay maxDelay maxTotalDelay : ℕ)
  maxElapsed : Option ℕ
  maxRecoveryWait : ℕ
  maxAttempts_pos : 0 < maxAttempts
  maxCredentials_pos : 0 < maxCredentials
  maxProviders_pos : 0 < maxProviders
  baseDelay_le : baseDelay ≤ maxDelay

/-- `PolicyError::InvalidRetryBudget`. -/
inductive RetryPolicyError where
  | invalidRetryBudget
  deriving DecidableEq, Repr

namespace RetryPolicy

def default : RetryPolicy where
  maxAttempts := 2
  maxCredentials := 2
  maxProviders := 2
  baseDelay := fromMillis 100
  maxDelay := fromSecs 30
  maxTotalDelay := fromSecs 60
  maxElapsed := some (fromSecs 60)
  maxRecoveryWait := fromSecs 60
  maxAttempts_pos := by decide
  maxCredentials_pos := by decide
  maxProviders_pos := by decide
  baseDelay_le := by decide

def withBounds (maxAttempts maxCredentials maxProviders : ℕ)
    (baseDelay maxDelay maxTotalDelay maxRecoveryWait : ℕ) :
    Except RetryPolicyError RetryPolicy :=
  if h : maxAttempts = 0 ∨ maxCredentials = 0 ∨ maxProviders = 0 ∨ baseDelay > maxDelay then
    .error .invalidRetryBudget
  else
    .ok { maxAttempts, maxCredentials, maxProviders, baseDelay, maxDelay, maxTotalDelay,
          maxRecoveryWait, maxElapsed := some maxTotalDelay,
          maxAttempts_pos := by omega, maxCredentials_pos := by omega,
          maxProviders_pos := by omega, baseDelay_le := by omega }

/-- `RetryPolicy::new`: the target bounds follow the attempt bound. -/
def new (maxAttempts baseDelay maxDelay maxTotalDelay : ℕ) :
    Except RetryPolicyError RetryPolicy :=
  if h : maxAttempts = 0 ∨ baseDelay > maxDelay then .error .invalidRetryBudget
  else
    .ok { maxAttempts, maxCredentials := maxAttempts, maxProviders := maxAttempts, baseDelay,
          maxDelay, maxTotalDelay, maxRecoveryWait := maxTotalDelay,
          maxElapsed := some maxTotalDelay,
          maxAttempts_pos := by omega, maxCredentials_pos := by omega,
          maxProviders_pos := by omega, baseDelay_le := by omega }

variable (p : RetryPolicy)

def withMaxElapsed (maxElapsed : Option ℕ) : RetryPolicy := { p with maxElapsed }

variable (failure : FailureClassification)

/-- The backoff charge and the recovery charge of a retry. -/
def delayComponents (attempt : ℕ)
    (avoidsFailedScope : Bool) : ℕ × ℕ :=
  if avoidsFailedScope then (0, 0)
  else
    let multiplier := 2 ^ min (attempt - 1) 31
    (min (durationSaturatingMul p.baseDelay multiplier) p.maxDelay, failure.classification.recoveryAfter.getD 0)

def reasonFor : RetryTargetChange → RetryReason
  | .sameTarget => .replaySafeBeforeCommit
  | .differentCredential => .alternateCredential
  | .differentProvider => .alternateProvider

/-- The wall-clock bound is passed. An absent bound never is. -/
def overElapsed (elapsed : ℕ) : Bool :=
  match p.maxElapsed with
  | some limit => elapsed > limit
  | none => false

variable (context : RetryContext)

/-- The checks made before any delay is computed, in order. -/
def refusals :
    List (Bool × RetryStopReason) :=
  let c := failure.classification
  [(context.commitment.isCommitted, .downstreamCommitted),
   (p.overElapsed context.elapsed, .retryBudgetExhausted),
   (c.retryability ≠ .beforeCommit || c.replaySafety = .notReplayable, .classificationNotRetryable),
   (!context.replay.isSafe, .notReplaySafe),
   (c.replaySafety = .requiresIdempotencyKey && !context.idempotencyKeyPresent, .requiresIdempotencyKey),
   (context.attempt = 0 || context.attempt ≥ p.maxAttempts, .attemptsExhausted),
   (c.scope = .credential && context.credentialsUsed ≥ p.maxCredentials, .credentialsExhausted),
   (c.scope = .provider && context.providersUsed ≥ p.maxProviders, .providersExhausted)]

/-- The checks of the wait that the retry would charge. -/
def waitRefusals (retryDelay recoveryWait : ℕ) :
    List (Bool × RetryStopReason) :=
  let delay := max retryDelay recoveryWait
  [(p.overElapsed (durationSaturatingAdd context.elapsed delay), .retryBudgetExhausted),
   (durationSaturatingAdd context.elapsedRecoveryWait recoveryWait > p.maxRecoveryWait, .recoveryWaitExhausted),
   (durationSaturatingAdd context.elapsedRetryDelay retryDelay > p.maxTotalDelay, .retryBudgetExhausted)]

def decide :
    RetryDecision :=
  match firstGuard (p.refusals failure context) with
  | some reason => .doNotRetry reason
  | none =>
    let avoidsFailedScope := context.targetChange.avoids failure.classification.scope
    let (retryDelay, recoveryWait) := p.delayComponents failure context.attempt avoidsFailedScope
    match firstGuard (p.waitRefusals context retryDelay recoveryWait) with
    | some reason => .doNotRetry reason
    | none => .retry (max retryDelay recoveryWait) retryDelay recoveryWait (reasonFor context.targetChange)

end RetryPolicy

/-- One failed attempt as the loop reports it, apart from the charges it carries itself. -/
structure FailedAttempt where
  failure : FailureClassification
  replay : ReplayCheck
  (elapsed credentialsUsed providersUsed : ℕ)
  idempotencyKeyPresent : Bool
  targetChange : RetryTargetChange

/-- What happens to one request between two decisions: output becomes visible, or an attempt fails. -/
inductive RetryEvent where
  | headersSent
  | committed
  | failed (attempt : FailedAttempt)

/-- The counters the request loop carries from attempt to attempt, with the decisions made so far. -/
structure RetryLoop where
  attempt : ℕ := 1
  (elapsedRetryDelay elapsedRecoveryWait : ℕ := 0)
  commitment : CommitmentState := .uncommitted
  decisions : List RetryDecision := []

namespace RetryLoop

def context (s : RetryLoop) (f : FailedAttempt) : RetryContext :=
  { attempt := s.attempt, commitment := s.commitment, replay := f.replay,
    elapsedRetryDelay := s.elapsedRetryDelay, elapsed := f.elapsed,
    credentialsUsed := f.credentialsUsed, providersUsed := f.providersUsed,
    elapsedRecoveryWait := s.elapsedRecoveryWait,
    idempotencyKeyPresent := f.idempotencyKeyPresent, targetChange := f.targetChange }

/-- A decided retry charges its two waits and starts the next attempt, as `wait_for_policy_retry`
and the request loop do. -/
def charge (s : RetryLoop) (d : RetryDecision) : RetryLoop :=
  match d with
  | .retry _ retryDelay recoveryWait _ =>
    { s with attempt := s.attempt + 1,
             elapsedRetryDelay := durationSaturatingAdd s.elapsedRetryDelay retryDelay,
             elapsedRecoveryWait := durationSaturatingAdd s.elapsedRecoveryWait recoveryWait,
             decisions := d :: s.decisions }
  | .doNotRetry _ => { s with decisions := d :: s.decisions }

def step (p : RetryPolicy) (s : RetryLoop) : RetryEvent → RetryLoop
  | .headersSent => { s with commitment := s.commitment.markHeadersSent }
  | .committed => { s with commitment := s.commitment.markCommitted }
  | .failed f => s.charge (p.decide f.failure (s.context f))

def run (p : RetryPolicy) (s : RetryLoop) (events : List RetryEvent) : RetryLoop := Lib.run (step p) s events

end RetryLoop

end Pooler
