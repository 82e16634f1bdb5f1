import Pooler.Sanity.Health
import Pooler.Proofs.Selection

/-! Health over whole runs: a disablement holds until it is lifted, and a cooldown keeps every
candidate it covers out, as long as cooldowns are stored under scopes that selection looks up. -/

namespace Pooler

open Lib World HealthRegistry RegistryInner List

/-! ### Operator disablement -/

variable {request : SelectionRequest} {lease : LeaseGrant} {h : HealthRegistry}

theorem granted_not_disabled {s s'} (hsel : selectFromState s h request = (.ok lease, s')) :
    isDisabled h.credentials[lease.binding.accountId]? = false ∧ isDisabled h.bindings[lease.binding]? = false := by
  obtain ⟨-, e, mid, hg⟩ := selectFromState_ok hsel
  have hpass := hg.best.1.2
  rw [hg.binding]
  exact ⟨hpass.credential_healthy, hpass.binding_healthy⟩

namespace World

/-- The replacement of a recovery was selected under a health that disables as much as before. -/
theorem recoverQuota_granted {w : World} {i t : ℕ} {hd cls pol context recovery}
    (hget : w.holdings[t]? = some hd)
    (hrec : (w.recoverQuota i t hd cls request pol context).1 = .ok recovery)
    (hls : recovery.selection = some lease) :
    ∃ s s' h, selectFromState s h (rotationRequest request hd.grant) = (.ok lease, s') ∧
      KeepsDisabled (fun _ => False) (fun _ => False) (w.registries i).health h := by
  rcases hw : w.recoverQuota i t hd cls request pol context with ⟨res, w'⟩
  rw [hw] at hrec
  cases hrec
  rcases recoverQuota_cases hget hw with ⟨⟨err, herr⟩, -⟩ | ⟨fail, r, -, -, -, -, hrot, -⟩
  · cases herr
  · rcases rotateQuota_slots hrot with ⟨hn, -⟩ | ⟨lease', mid, hsome, -, hsel⟩
    · rw [show QuotaRecovery.leaseOf (.ok recovery) = recovery.selection from rfl, hls] at hn
      cases hn
    · rw [show QuotaRecovery.leaseOf (.ok recovery) = recovery.selection from rfl, hls] at hsome
      cases hsome
      refine ⟨mid, r.state, r.health, hsel, ?_⟩
      rw [← w.release_health t i]
      rcases rotateQuota_health hrot with hh | hh
      · rw [hh]; exact .refl _
      · rw [hh]; exact applyFailure_keeps _ _ _ _

end World

/-- The event enables the account in registry `i`. -/
def WorldEvent.enablesCredential (i : ℕ) (c : CredentialId) : WorldEvent → Prop
  | .op j call => j = i ∧ call.enablesCredential c
  | _ => False

/-- The event enables the binding in registry `i`, or removes it from there. -/
def WorldEvent.liftsBinding (i : ℕ) (b : BindingKey) (w : World) : WorldEvent → Prop
  | .op j call => j = i ∧ call.liftsBinding (w.registries i) b
  | _ => False

theorem World.step_keeps (w : World) (e : WorldEvent) (i : ℕ) :
    KeepsDisabled (fun c => e.enablesCredential i c) (fun b => e.liftsBinding i b w)
      (w.registries i).health ((w.step e).registries i).health := by
  rcases w.step_health e i with hh | ⟨op, rfl, hh⟩ | ⟨fail, subject, now, b, -, hh⟩
  · rw [hh]; exact .refl _
  · have hk := apply_keeps (w.registries i) op
    rw [hh]
    exact ⟨fun c hc => hk.credential c (fun hop => hc ⟨rfl, hop⟩), fun b hb => hk.binding b (fun hop => hb ⟨rfl, hop⟩)⟩
  · rw [hh]; exact applyFailure_keeps _ _ _ _

theorem World.run_credential_disabled {i : ℕ} {c} (evs : List WorldEvent) (w : World)
    (hev : ∀ e ∈ evs, ¬e.enablesCredential i c) (hd : isDisabled (w.registries i).health.credentials[c]? = true) :
    isDisabled ((w.run evs).registries i).health.credentials[c]? = true := by
  have hstep : ∀ (w : World) (e : WorldEvent), ¬e.enablesCredential i c →
      isDisabled (w.registries i).health.credentials[c]? = true →
      isDisabled ((w.step e).registries i).health.credentials[c]? = true :=
    fun w e => (w.step_keeps e i).credential c
  exact run_of_stepsMeet hstep evs w (stepsMeet_of_forall evs w hev) hd

theorem World.run_binding_disabled {i : ℕ} {b} (evs : List WorldEvent) (w : World)
    (hev : StepsMeet World.step (fun w e => ¬e.liftsBinding i b w) w evs)
    (hd : isDisabled (w.registries i).health.bindings[b]? = true) :
    isDisabled ((w.run evs).registries i).health.bindings[b]? = true := by
  have hstep : ∀ (w : World) (e : WorldEvent), ¬e.liftsBinding i b w →
      isDisabled (w.registries i).health.bindings[b]? = true →
      isDisabled ((w.step e).registries i).health.bindings[b]? = true :=
    fun w e => (w.step_keeps e i).binding b
  exact run_of_stepsMeet hstep evs w hev hd

/-- No grant of registry `i` under its own health is for a binding in `bs`. -/
structure World.NeverGrants (w : World) (i : ℕ) (bs : BindingKey → Prop) : Prop where
  select : ∀ request lease, (w.selectWith i (w.registries i).health request).1 = .ok lease → ¬bs lease.binding
  recover : ∀ t hd classification request policy context recovery lease, w.holdings[t]? = some hd →
    (w.recoverQuota i t hd classification request policy context).1 = .ok recovery →
    recovery.selection = some lease → ¬bs lease.binding

/-- A property of the health that no grant satisfies, and that keeping disablement keeps. -/
theorem World.neverGrants_of_health {w : World} {i : ℕ} {bs}
    (disables : HealthRegistry → BindingKey → Prop) (hd : ∀ b, bs b → disables (w.registries i).health b)
    (hkeep : ∀ h h' b, KeepsDisabled (fun _ => False) (fun _ => False) h h' → disables h b → disables h' b)
    (hno : ∀ s s' h request lease, selectFromState s h request = (.ok lease, s') → ¬disables h lease.binding) :
    w.NeverGrants i bs := by
  constructor
  · intro request lease hsel hb
    rcases hs : selectFromState (w.registries i).state (w.registries i).health request with ⟨res, s'⟩
    have hres : res = .ok lease := by rw [← hsel, World.selectWith, hs]
    exact hno _ s' _ request lease (hs.trans (by rw [hres])) (hd _ hb)
  · intro t hd' cls request pol context recovery lease hget hrec hls hb
    obtain ⟨s, s', h, hsel, hk⟩ := recoverQuota_granted hget hrec hls
    exact hno s s' h _ lease hsel (hkeep _ _ _ hk (hd _ hb))

theorem disablement_is_sticky (w : World) (i : ℕ) :
    (∀ (c : CredentialId) (events : List WorldEvent), (∀ e ∈ events, ¬e.enablesCredential i c) →
      ((w.step (.op i (.disable c))).run events).NeverGrants i (fun b => b.accountId = c)) ∧
    ∀ (b : BindingKey) (events : List WorldEvent),
      StepsMeet World.step (fun w e => ¬e.liftsBinding i b w) (w.step (.op i (.disableBinding b))) events →
      ((w.step (.op i (.disableBinding b))).run events).NeverGrants i (fun b' => b' = b) := by
  constructor
  · intro c events hev
    have hdis : isDisabled
        (((w.step (.op i (.disable c))).run events).registries i).health.credentials[c]? = true := by
      refine run_credential_disabled events _ hev ?_
      simp [World.step, RegistryInner.apply, RegistryInner.disable, HealthRegistry.disableCredential, isDisabled]
    refine neverGrants_of_health (fun h b => isDisabled h.credentials[b.accountId]? = true) ?_ ?_ ?_
    · rintro b rfl
      exact hdis
    · intro h h' b hk hd
      exact hk.credential _ id hd
    · intro s s' h request lease hsel hd
      rw [(granted_not_disabled hsel).1] at hd
      cases hd
  · intro b events hev
    have hdis : isDisabled
        (((w.step (.op i (.disableBinding b))).run events).registries i).health.bindings[b]? = true := by
      refine run_binding_disabled events _ hev ?_
      simp [World.step, RegistryInner.apply, RegistryInner.disableBinding, HealthRegistry.disableBinding, isDisabled]
    refine neverGrants_of_health (fun h b => isDisabled h.bindings[b]? = true) ?_ ?_ ?_
    · rintro b' rfl
      exact hdis
    · intro h h' b hk hd
      exact hk.binding _ id hd
    · intro s s' h request lease hsel hd
      rw [(granted_not_disabled hsel).2] at hd
      cases hd

def sampleAccount : CredentialId := sampleBinding.accountId

def sampleWorld : World := World.run {} [.op 0 (.register sampleRegistration)]

/-- The account is selectable, and once disabled it is not, though its slot is enabled again. -/
theorem disablement_is_sticky_sample : (sampleWorld.selectWith 0 {} sampleRequest).1.isOk = true ∧
    ((sampleWorld.step (.op 0 (.disable sampleAccount))).run
      [.op 0 (.setEnabled sampleAccount true), .op 0 (.enableBinding sampleBinding),
        .op 0 (.register sampleRegistration)]).NeverGrants 0 (fun b => b.accountId = sampleAccount) := by
  refine ⟨by decide, (disablement_is_sticky sampleWorld 0).1 sampleAccount _ ?_⟩
  intro e he
  simp only [mem_cons, not_mem_nil, or_false] at he
  rcases he with rfl | rfl | rfl <;> rintro ⟨-, hop⟩ <;> exact hop

/-! ### Cooldowns -/

/-- Every scope that covers a registration is looked up for it, but for the plain ones. -/
theorem resolve_of_covers {r scope} (hp : scope.plain = false) (hc : scope.covers request.route r = true) :
    ∃ kind, (candidateSubject request r).resolve kind = some scope := by
  refine ⟨scope.kind, ?_⟩
  cases scope <;> simp only [CooldownScope.covers, Bool.and_eq_true, decide_eq_true_eq] at hc
  case credential | credentialModel => cases hp
  case binding => subst hc; rfl
  case model => subst hc; rfl
  case provider => subst hc; rfl
  case bindingModel | providerModel =>
    obtain ⟨rfl, rfl⟩ := hc
    rfl
  case route id =>
    show request.route.map CooldownScope.route = some (.route id)
    rw [hc]
    rfl

/-- With no plain scope stored, an active cooldown that covers a candidate keeps it out. -/
theorem not_selected_of_noPlain {s} (hp : NoPlain h)
    {scope : CooldownScope} {expiry : ℕ} (hstd : h.cooldowns[scope]? = some expiry) (hactv : request.now < expiry)
    (hsel : (selectFromState s h request).1 = .ok lease) : scope.covers request.route lease.registration = false := by
  rcases hs : selectFromState s h request with ⟨res, s'⟩
  rw [hs] at hsel
  cases hsel
  obtain ⟨-, e, mid, hg⟩ := selectFromState_ok hs
  rw [Bool.eq_false_iff, hg.registration]
  intro hc
  have hc' : scope.covers (resolveRequest s request).route e.registration = true := hc
  obtain ⟨kind, hk⟩ := resolve_of_covers (hp scope expiry hstd) hc'
  have hcool := hg.best.1.2.not_cooling kind scope hk
  have hnow : (resolveRequest s request).now = request.now := rfl
  simp [HealthRegistry.isCoolingDown, HealthRegistry.cooldownUntil, hstd, hnow, hactv] at hcool

/-- The event stores a cooldown under a plain scope. -/
def WorldEvent.writesPlain : WorldEvent → Prop
  | .op _ call => call.writesPlain
  | _ => False

theorem World.step_noPlain (w : World) (e : WorldEvent) (he : ¬e.writesPlain)
    (hp : ∀ i, NoPlain (w.registries i).health) (i : ℕ) : NoPlain ((w.step e).registries i).health := by
  rcases w.step_health e i with hh | ⟨op, rfl, hh⟩ | ⟨fail, subject, now, b, hb, hh⟩
  · rw [hh]; exact hp i
  · rw [hh]; exact apply_noPlain _ op he (hp i)
  · rw [hh]; exact (hp i).applyFailure (fun spec scope _ hr => resolve_not_plain hb hr)

theorem World.run_noPlain (evs : List WorldEvent) (hev : ∀ e ∈ evs, ¬e.writesPlain) (i : ℕ) :
    NoPlain ((World.run {} evs).registries i).health := by
  have hstep : ∀ (w : World) (e : WorldEvent), ¬e.writesPlain → (∀ i, NoPlain (w.registries i).health) →
      ∀ i, NoPlain ((w.step e).registries i).health := fun w e => w.step_noPlain e
  exact run_of_stepsMeet hstep evs {} (stepsMeet_of_forall evs _ hev) (fun _ => noPlain_empty) i

theorem active_cooldown_excludes (events : List WorldEvent) (hev : ∀ e ∈ events, ¬e.writesPlain) (i : ℕ)
    (request : SelectionRequest) (scope : CooldownScope) (expiry : ℕ)
    (hstored : ((World.run {} events).registries i).health.cooldowns[scope]? = some expiry)
    (hactive : request.now < expiry) (lease : LeaseGrant)
    (hsel : ((World.run {} events).selectWith i ((World.run {} events).registries i).health request).1 = .ok lease) :
    scope.covers request.route lease.registration = false :=
  not_selected_of_noPlain (run_noPlain events hev i) hstored hactive hsel

def cooledEvents (scope : CooldownScope) : List WorldEvent :=
  [.op 0 (.register sampleRegistration), .op 0 (.restoreCooldown scope 10)]

/-- A cooldown of another provider is stored and active, and the candidate that is granted is not one
of its own. -/
theorem active_cooldown_excludes_sample :
    ∃ lease, ((World.run {} (cooledEvents (.provider ⟨"other", by decide⟩))).selectWith 0
      ((World.run {} (cooledEvents (.provider ⟨"other", by decide⟩))).registries 0).health sampleRequest).1 =
        .ok lease ∧
      CooldownScope.covers sampleRequest.route lease.registration (.provider ⟨"other", by decide⟩) = false := by
  cases hsel : ((World.run {} (cooledEvents (.provider ⟨"other", by decide⟩))).selectWith 0
      ((World.run {} (cooledEvents (.provider ⟨"other", by decide⟩))).registries 0).health sampleRequest).1 with
  | ok lease =>
    refine ⟨lease, rfl, active_cooldown_excludes _ ?_ 0 sampleRequest _ 10 (by decide) (by decide) lease hsel⟩
    intro e he
    simp only [cooledEvents, mem_cons, not_mem_nil, or_false] at he
    rcases he with rfl | rfl
    · exact id
    · exact Bool.false_ne_true
  | error err =>
    have hok : ((World.run {} (cooledEvents (.provider ⟨"other", by decide⟩))).selectWith 0
      ((World.run {} (cooledEvents (.provider ⟨"other", by decide⟩))).registries 0).health
        sampleRequest).1.isOk = true := by decide
    rw [hsel] at hok
    cases hok

/-- A restored cooldown of the whole account is stored and active, and the account is selected. -/
theorem account_cooldown_ignored :
    ∃ lease, ((World.run {} (cooledEvents (.credential sampleAccount))).registries 0).health.cooldowns[
        CooldownScope.credential sampleAccount]? = some 10 ∧ sampleRequest.now < 10 ∧
      ((World.run {} (cooledEvents (.credential sampleAccount))).selectWith 0
        ((World.run {} (cooledEvents (.credential sampleAccount))).registries 0).health sampleRequest).1 = .ok lease ∧
      CooldownScope.covers sampleRequest.route lease.registration (.credential sampleAccount) = true := by
  have hcov : (((World.run {} (cooledEvents (.credential sampleAccount))).selectWith 0
      ((World.run {} (cooledEvents (.credential sampleAccount))).registries 0).health
        sampleRequest).1.toOption.any (fun lease =>
          CooldownScope.covers sampleRequest.route lease.registration (.credential sampleAccount))) = true := by
    decide
  cases hsel : ((World.run {} (cooledEvents (.credential sampleAccount))).selectWith 0
      ((World.run {} (cooledEvents (.credential sampleAccount))).registries 0).health sampleRequest).1 with
  | ok lease =>
    rw [hsel] at hcov
    exact ⟨lease, by decide, by decide, rfl, hcov⟩
  | error err =>
    rw [hsel] at hcov
    cases hcov

end Pooler
