import Pooler.Sanity.Retry

/-! The retry budget of one request. Whatever fails and however often, the loop that
charges every decided retry stays inside the attempt, delay and recovery bounds, and
decides no retry after output became visible. -/

namespace Pooler

open Lib RetryPolicy List

namespace RetryLoop

/-- The counters are the sums of the decisions made, and inside the policy's bounds. -/
structure WithinBudget (p : RetryPolicy) (s : RetryLoop) : Prop where
  attempt_eq : s.attempt = s.retries + 1
  attempt_le : s.attempt ≤ p.maxAttempts
  delay_eq : s.elapsedRetryDelay = durationSum (s.decisions.map RetryDecision.retryDelay)
  delay_le : s.elapsedRetryDelay ≤ p.maxTotalDelay
  wait_eq : s.elapsedRecoveryWait = durationSum (s.decisions.map RetryDecision.recoveryWait)
  wait_le : s.elapsedRecoveryWait ≤ p.maxRecoveryWait

theorem withinBudget_init (p : RetryPolicy) : WithinBudget p {} :=
  { attempt_eq := rfl
    attempt_le := p.maxAttempts_pos
    delay_eq := rfl
    delay_le := Nat.zero_le _
    wait_eq := rfl
    wait_le := Nat.zero_le _ }

variable {p : RetryPolicy}

theorem withinBudget_charge {s} (f : FailedAttempt)
    (h : WithinBudget p s) : WithinBudget p (s.charge (p.decide f.failure (s.context f))) := by
  cases hd : p.decide f.failure (s.context f) with
  | doNotRetry =>
    exact
      { attempt_eq := by simpa [charge, retries, RetryDecision.isRetry] using h.attempt_eq
        attempt_le := h.attempt_le
        delay_eq := h.delay_eq.trans (durationSum_zero_cons _).symm
        delay_le := h.delay_le
        wait_eq := h.wait_eq.trans (durationSum_zero_cons _).symm
        wait_le := h.wait_le }
  | retry =>
    have ha := decide_retry hd
    have heq := h.attempt_eq
    exact
      { attempt_eq := by
          simp only [charge, retries, countP_cons, RetryDecision.isRetry, if_true] at heq ⊢
          omega
        attempt_le := ha.attempt_lt
        delay_eq := by
          simp [charge, RetryDecision.retryDelay, durationSum_cons, h.delay_eq]
        delay_le := ha.retryDelay_le
        wait_eq := by
          simp [charge, RetryDecision.recoveryWait, durationSum_cons, h.wait_eq]
        wait_le := ha.recoveryWait_le }

theorem withinBudget_step (s : RetryLoop) (e : RetryEvent) (h : WithinBudget p s) : WithinBudget p (step p s e) := by
  cases e with
  | headersSent | committed => exact { h with }
  | failed f => exact withinBudget_charge f h

theorem committed_step {n : ℕ} (s : RetryLoop) (e : RetryEvent) (h : s.commitment.isCommitted = true ∧ s.retries = n) :
    (step p s e).commitment.isCommitted = true ∧ (step p s e).retries = n := by
  obtain ⟨hc, hn⟩ := h
  cases e with
  | headersSent => exact ⟨CommitmentState.isCommitted_markHeadersSent _, hn⟩
  | committed => exact ⟨rfl, hn⟩
  | failed f =>
    cases hd : p.decide f.failure (s.context f) with
    | retry =>
      have hu : s.commitment.isCommitted = false := (decide_retry hd).uncommitted
      rw [hc] at hu
      cases hu
    | doNotRetry =>
      simp only [step, hd, charge]
      exact ⟨hc, by simpa [retries, RetryDecision.isRetry] using hn⟩

/-- Over any sequence of failures: at most `maxAttempts` attempts are made, the charged retry
delays and recovery waits stay inside their bounds, and after output is visible no further retry
is decided. The charges are summed in the saturating arithmetic of durations; for a bound below
the largest duration the true sums are bounded as well. -/
theorem retry_loop_within_budget (p : RetryPolicy) (events more : List RetryEvent) :
    let s := run p {} events
    s.attempt = s.retries + 1 ∧ s.attempt ≤ p.maxAttempts ∧
      durationSum (s.decisions.map RetryDecision.retryDelay) ≤ p.maxTotalDelay ∧
      durationSum (s.decisions.map RetryDecision.recoveryWait) ≤ p.maxRecoveryWait ∧
      (p.maxTotalDelay < durationMax → (s.decisions.map RetryDecision.retryDelay).sum ≤ p.maxTotalDelay) ∧
      (p.maxRecoveryWait < durationMax → (s.decisions.map RetryDecision.recoveryWait).sum ≤ p.maxRecoveryWait) ∧
      (s.commitment.isCommitted = true → (run p s more).retries = s.retries) := by
  intro s
  have h : WithinBudget p s := run_invariant withinBudget_step events _ (withinBudget_init p)
  have hdel := h.delay_eq ▸ h.delay_le
  have hwait := h.wait_eq ▸ h.wait_le
  refine ⟨h.attempt_eq, h.attempt_le, hdel, hwait, ?_, ?_, ?_⟩
  · intro hmax
    rw [← durationSum_eq_sum (lt_of_le_of_lt hdel hmax)]
    exact hdel
  · intro hmax
    rw [← durationSum_eq_sum (lt_of_le_of_lt hwait hmax)]
    exact hwait
  · intro hc
    exact (run_invariant committed_step more s ⟨hc, rfl⟩).2

end RetryLoop

end Pooler
