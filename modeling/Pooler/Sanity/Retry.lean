import Pooler.Spec.Policy.Retry

/-! What an allowed retry says about its context, and how the loop's counters move. -/

namespace Pooler

open Lib Bool Nat

/-- The facts behind a decided retry that charges `retryDelay` and `recoveryWait`. -/
structure RetryAllowed (p : RetryPolicy) (failure : FailureClassification) (context : RetryContext)
    (retryDelay recoveryWait : ℕ) : Prop where
  uncommitted : context.commitment.isCommitted = false
  replaySafe : context.replay.isSafe = true
  attempt_pos : 0 < context.attempt
  attempt_lt : context.attempt < p.maxAttempts
  credentials_lt : failure.classification.scope = .credential → context.credentialsUsed < p.maxCredentials
  providers_lt : failure.classification.scope = .provider → context.providersUsed < p.maxProviders
  recoveryWait_le : durationSaturatingAdd context.elapsedRecoveryWait recoveryWait ≤ p.maxRecoveryWait
  retryDelay_le : durationSaturatingAdd context.elapsedRetryDelay retryDelay ≤ p.maxTotalDelay

variable {failure : FailureClassification} {context : RetryContext}

theorem RetryPolicy.decide_retry {p} {delay retryDelay recoveryWait : ℕ} {reason}
    (h : p.decide failure context = .retry delay retryDelay recoveryWait reason) :
    RetryAllowed p failure context retryDelay recoveryWait := by
  unfold RetryPolicy.decide at h
  split at h
  · cases h
  next hg =>
    rcases hd : p.delayComponents failure context.attempt
      (context.targetChange.avoids failure.classification.scope) with ⟨r, w⟩
    simp only [hd] at h
    split at h
    · cases h
    next hw =>
      obtain ⟨-, rfl, rfl, -⟩ := RetryDecision.retry.inj h
      simp only [RetryPolicy.refusals, firstGuard_cons_eq_none, or_eq_false_iff,
        and_eq_false_iff, not_eq_false', decide_eq_false_iff_not, not_le, ge_iff_le] at hg
      simp only [RetryPolicy.waitRefusals, firstGuard_cons_eq_none, decide_eq_false_iff_not, not_lt, gt_iff_lt] at hw
      obtain ⟨h1, -, -, h4, -, ⟨h6, h6'⟩, h7, h8, -⟩ := hg
      exact
        { uncommitted := h1
          replaySafe := h4
          attempt_pos := pos_of_ne_zero h6
          attempt_lt := h6'
          credentials_lt := fun hs => h7.resolve_left (fun hn => hn hs)
          providers_lt := fun hs => h8.resolve_left (fun hn => hn hs)
          recoveryWait_le := hw.2.1
          retryDelay_le := hw.2.2.1 }

theorem RetryPolicy.decide_isRetry {p} (h : (p.decide failure context).isRetry = true) :
    ∃ retryDelay recoveryWait, RetryAllowed p failure context retryDelay recoveryWait := by
  cases hd : p.decide failure context with
  | retry => exact ⟨_, _, RetryPolicy.decide_retry hd⟩
  | doNotRetry => rw [hd] at h; simp [RetryDecision.isRetry] at h

variable (ds : List ℕ)

/-- A sum of durations in the saturating arithmetic the loop uses. -/
def durationSum : ℕ := ds.foldr durationSaturatingAdd 0

theorem durationSum_le_max : durationSum ds ≤ durationMax := by
  cases ds with
  | nil => exact zero_le _
  | cons => exact satAdd_le_cap _ _ _

theorem durationSum_cons (d : ℕ) (ds : List ℕ) : durationSum (d :: ds) = durationSaturatingAdd (durationSum ds) d := by
  simp [durationSum, durationSaturatingAdd, satAdd, add_comm]

theorem durationSum_zero_cons : durationSum (0 :: ds) = durationSum ds := by
  rw [durationSum_cons]
  exact satAdd_eq_add (durationSum_le_max ds)

/-- Below the largest duration nothing has saturated and the sum is the true one. -/
theorem durationSum_eq_sum {ds} (h : durationSum ds < durationMax) : durationSum ds = ds.sum := by
  induction ds with
  | nil => rfl
  | cons d ds ih =>
    rw [durationSum_cons] at h ⊢
    have hadd := satAdd_eq_add_of_lt h
    have hds : durationSum ds < durationMax := by
      unfold durationSaturatingAdd at h
      omega
    rw [List.sum_cons, durationSaturatingAdd, hadd, ih hds, add_comm]

/-- The retries decided so far. -/
def RetryLoop.retries (s : RetryLoop) : ℕ := s.decisions.countP RetryDecision.isRetry

theorem CommitmentState.isCommitted_markHeadersSent (c : CommitmentState) : c.markHeadersSent.isCommitted = true := by
  cases c <;> rfl

end Pooler
