import Pooler.Proofs.Leases
import Pooler.Sanity.Windows

/-! Quota recovery. Every way out gives the failed slot back once; a lease that is foreign or no
longer current changes nothing else; a recovery that succeeds has filed its window and rotates to
a binding that no exhausted window covers. -/

namespace Pooler

open Lib World Except Option RegistryInner Bool

/-- The snapshot is on file: under the binding for the account scopes, and under the subject that the
registration gives its scope for the others. -/
def WindowInstalled (s : RegistryState) (b : BindingKey) (r : CredentialRegistration)
    (snapshot : QuotaSnapshot) : Prop :=
  match snapshot.scope with
  | .credential | .credentialModel => s.bindingQuotas[((b, snapshot.unit) : BindingKey × QuotaUnit)]? = some snapshot
  | .project | .projectModel | .provider | .providerModel =>
    ∃ subject, quotaSubject r snapshot.scope = .ok subject ∧
      s.quotas[((subject, snapshot.unit) : QuotaSubject × QuotaUnit)]? = some snapshot

variable {snapshot : QuotaSnapshot} {s s' : RegistryState} {r : CredentialRegistration}

theorem insertQuotaForBinding_installed {b} (h : s.insertQuotaForBinding b r snapshot = (.ok true, s')) :
    WindowInstalled s' b r snapshot := by
  rcases insertQuotaForBinding_cases s b r snapshot with ⟨hscp, heq⟩ | ⟨hscp, ⟨err, -, heq⟩ | ⟨subject, hq, heq⟩⟩
  · obtain ⟨htkn, rfl⟩ := Prod.mk.inj (heq.symm.trans h)
    have hfil := (insertWindow_taken (ok.inj htkn)).2
    unfold WindowInstalled
    cases hs : snapshot.scope <;> rw [hs] at hscp <;> first | exact hfil | cases hscp
  · cases heq.symm.trans h
  · obtain ⟨htkn, rfl⟩ := Prod.mk.inj (heq.symm.trans h)
    have hfil := (insertWindow_taken (ok.inj htkn)).2
    unfold WindowInstalled
    cases hs : snapshot.scope <;> rw [hs] at hscp hq <;> first | exact ⟨subject, hq, hfil⟩ | cases hscp

/-- The quota windows of `s'` are those of `s` but for some that had expired. -/
structure KeepsWindows (now : ℕ) (s s' : RegistryState) : Prop where
  quotas : DropsOnly (·.expiredAt now) s.quotas s'.quotas
  bindingQuotas : DropsOnly (·.expiredAt now) s.bindingQuotas s'.bindingQuotas

theorem RefusedFrame.keepsWindows {now : ℕ} (h : RefusedFrame s s' now) :
    KeepsWindows now s s' := ⟨h.quotas, h.bindingQuotas⟩

variable {request : SelectionRequest}

theorem GrantedFrame.keepsWindows {lease}
    (h : GrantedFrame s s' request lease) : KeepsWindows request.now s s' := ⟨h.quotas, h.bindingQuotas⟩

theorem select_keepsWindows {h res}
    (hsel : selectFromState s h request = (res, s')) : KeepsWindows request.now s s' := by
  cases res with
  | error =>
    rcases selectFromState_error hsel with ⟨-, -, rfl⟩ | ⟨-, rfl, -⟩
    · exact (RefusedFrame.refl _ _).keepsWindows
    · exact (refusedFrame_dropExpired s request.now).keepsWindows
  | ok =>
    obtain ⟨-, e, mid, hg⟩ := selectFromState_ok hsel
    exact (grantedFrame_of_granted hg).keepsWindows

theorem WindowInstalled.keeps {now : ℕ} (h : KeepsWindows now s s') {b}
    (hex : snapshot.exhausted now = true) (hin : WindowInstalled s b r snapshot) : WindowInstalled s' b r snapshot := by
  have hexp := not_expiredAt_of_exhausted hex
  unfold WindowInstalled at hin ⊢
  cases hscp : snapshot.scope <;> simp only [hscp] at hin ⊢
  case credential | credentialModel => exact h.bindingQuotas.2 _ _ hin hexp
  all_goals
    obtain ⟨subject, hq, hget⟩ := hin
    exact ⟨subject, hq, h.quotas.2 _ _ hget hexp⟩

theorem CoveredByExhausted.of_keeps {now : ℕ} (h : KeepsWindows now s s')
    (hc : CoveredByExhausted s' now r) : CoveredByExhausted s now r := by
  rcases hc with ⟨subject, unit, window, hget, hm, hex⟩ | ⟨unit, window, hget, hex⟩
  · exact .inl ⟨subject, unit, window, h.quotas.1 _ _ hget, hm, hex⟩
  · exact .inr ⟨unit, window, h.bindingQuotas.1 _ _ hget, hex⟩

/-- What a recovery promises of a result that is no error. -/
structure RotatesAway (r : RegistryInner) (failed : LeaseGrant) (classification : QuotaClassification)
    (request : SelectionRequest) (decision : RetryDecision) (recovery : QuotaRecovery) : Prop where
  installed : WindowInstalled r.state failed.binding failed.registration classification.snapshot
  allowed : ∀ lease, recovery.selection = some lease → decision.isRetry = true ∧ recovery.retryDecision = decision
  other : ∀ lease, recovery.selection = some lease → lease.binding ≠ failed.binding
  uncovered : ∀ lease, recovery.selection = some lease → ¬CoveredByExhausted r.state request.now lease.registration

theorem RotatesAway.of_none {r failed classification decision recovery}
    (hin : WindowInstalled r.state failed.binding failed.registration classification.snapshot)
    (hn : recovery.selection = none) : RotatesAway r failed classification request decision recovery := by
  refine ⟨hin, ?_, ?_, ?_⟩
  all_goals
    intro lease hl
    rw [hn] at hl
    cases hl

/-- A selection for a rotation avoids the failed binding and every exhausted window. -/
theorem rotation_selected {h failed lease}
    (hsel : selectFromState s h (rotationRequest request failed) = (.ok lease, s')) :
    lease.binding ≠ failed.binding ∧ KeepsWindows request.now s s' ∧
      ¬CoveredByExhausted s' request.now lease.registration := by
  obtain ⟨-, e, mid, hg⟩ := selectFromState_ok hsel
  have hpass := hg.best.1.2
  have hkeep := select_keepsWindows hsel
  refine ⟨?_, hkeep, ?_⟩
  · intro heq
    have hout : e.registration.binding ∉ request.excludedBindings.insert failed.binding := hpass.binding_not_excluded
    rw [← hg.binding, heq] at hout
    exact hout Std.ExtTreeSet.mem_insert_self
  · rw [hg.registration]
    exact fun hc => hpass.quota (hc.of_keeps hkeep)

namespace RegistryInner

variable {i r : RegistryInner} {failed : LeaseGrant} {classification : QuotaClassification}
  {failure : FailureClassification} {request : SelectionRequest} {policy : RetryPolicy}
  {context : RetryContext} {recovery : QuotaRecovery}

theorem rotateQuota_ok (hex : classification.exhausted request.now = true)
    (h : i.rotateQuota failed classification failure request policy context = (.ok recovery, r)) :
    RotatesAway r failed classification request
      (policy.decide failure { context with targetChange := rotationTarget classification.snapshot.scope })
      recovery := by
  rcases rotateQuota_cases h with ⟨err, taken, -, -, herr, -⟩ | ⟨state, hins, hre⟩
  · cases herr
  have hinst := insertQuotaForBinding_installed hins
  generalize policy.decide failure _ = decision at hre ⊢
  rcases reselect_cases hre with ⟨-, hres, rfl⟩ | ⟨hrt, lease, state', hsel, hres, rfl⟩ |
      ⟨-, err, state', hsel, hres, rfl⟩
  · exact .of_none hinst (by rw [ok.inj hres])
  · obtain ⟨hoth, hkeep, hunc⟩ := rotation_selected hsel
    have hsome : ∀ lease', recovery.selection = some lease' → lease' = lease := by
      intro lease' hl
      rw [ok.inj hres] at hl
      exact (some.inj hl).symm
    refine ⟨hinst.keeps hkeep hex, fun _ _ => ⟨hrt, by rw [ok.inj hres]⟩, ?_, ?_⟩
    · intro lease' hl
      rw [hsome lease' hl]
      exact hoth
    · intro lease' hl
      rw [hsome lease' hl]
      exact hunc
  · have hkeep := select_keepsWindows hsel
    rcases hres with hres | ⟨expl, hres⟩
    · cases hres
    · exact .of_none (hinst.keeps hkeep hex) (by rw [ok.inj hres])

theorem rotateQuota_slot {res} (h : i.rotateQuota failed classification failure request policy context = (res, r)) :
    r.state.slot failed.binding = i.state.slot failed.binding := by
  rcases rotateQuota_slots h with ⟨-, hsame⟩ | ⟨lease, mid, -, hsame, hsel⟩
  · rw [hsame.slot]
  · obtain ⟨c, -, -, -, hslot⟩ := select_slot hsel
    rw [hslot, Function.update_apply, if_neg (rotation_selected hsel).1.symm, hsame.slot]

end RegistryInner

namespace World

variable {w : World} {t : ℕ} {hd : Holding}

theorem release_releases (hget : w.holdings[t]? = some hd) (hlive : hd.released = false) :
    (w.release t).releases = t :: w.releases := by
  rw [release_of_unreleased hget hlive]

theorem release_registry (hget : w.holdings[t]? = some hd) (hlive : hd.released = false) (i : ℕ) :
    (w.release t).registries i = if i = hd.registry
      then { w.registries i with
        state := (w.registries i).state.releaseSlot hd.grant.binding hd.grant.registrationOrder }
      else w.registries i := by
  rw [release_of_unreleased hget hlive]
  simp only [setHolding_registries, setRegistry_registries]
  split_ifs with hi
  · rw [hi]
  · rfl

/-- Nothing but slots changes in registry `i`: its windows and its health are as before. -/
structure OnlySlots (w w' : World) (i : ℕ) : Prop where
  quotas : (w'.registries i).state.quotas = (w.registries i).state.quotas
  bindingQuotas : (w'.registries i).state.bindingQuotas = (w.registries i).state.bindingQuotas
  health : (w'.registries i).health = (w.registries i).health

theorem dropTicket_onlySlots (hget : w.holdings[t]? = some hd) (hlive : hd.released = false) (i : ℕ) :
    OnlySlots w (w.dropTicket t) i := by
  have hreg : (w.dropTicket t).registries i = (w.release t).registries i := by
    rw [dropTicket_eq hget, setHolding_registries]
  constructor <;> rw [hreg, release_registry hget hlive i] <;> split_ifs <;> rfl

end World

theorem recover_quota_all_or_nothing (w w' : World) (self t : ℕ) (hd : Holding)
    (hget : w.holdings[t]? = some hd) (hlive : hd.released = false) (classification : QuotaClassification)
    (request : SelectionRequest) (policy : RetryPolicy) (context : RetryContext)
    (res : Except SelectionError QuotaRecovery)
    (hrec : w.recoverQuota self t hd classification request policy context = (res, w')) :
    (w'.releases = t :: w.releases ∧
      (w'.registries hd.registry).state.slot hd.grant.binding =
        ((w.registries hd.registry).state.releaseSlot hd.grant.binding
          hd.grant.registrationOrder).slot hd.grant.binding) ∧
    ((hd.registry ≠ self ∨ ¬∃ e, (w.registries self).state.entries.get hd.grant.binding = some e ∧
        e.order = hd.grant.registrationOrder ∧ e.registration = hd.grant.registration) →
      (∃ err, res = .error err) ∧ w.OnlySlots w' self) ∧
    ∀ recovery, res = .ok recovery → ∃ failure, classification.failure = some failure ∧
      RotatesAway (w'.registries self) hd.grant classification request
        (policy.decide failure { context with targetChange := rotationTarget classification.snapshot.scope })
        recovery := by
  rcases recoverQuota_cases hget hrec with ⟨⟨err, rfl⟩, rfl⟩ | ⟨failure, r, hf, hex, rfl, howns, hrot, rfl⟩
  · refine ⟨⟨?_, ?_⟩, fun _ => ⟨⟨err, rfl⟩, dropTicket_onlySlots hget hlive self⟩, ?_⟩
    · rw [dropTicket_eq hget]
      exact release_releases hget hlive
    · rw [dropTicket_eq hget, setHolding_registries, release_registry hget hlive, if_pos rfl]
    · intro recovery hres
      cases hres
  · have hrel := release_registry hget hlive hd.registry
    rw [if_pos rfl] at hrel
    simp only [setHolding_registries, setHolding_releases, issue_registries,
      issue_releases, setRegistry_registries, setRegistry_releases, if_true]
    refine ⟨⟨release_releases hget hlive, ?_⟩, ?_, ?_⟩
    · rw [rotateQuota_slot hrot, hrel]
    · rintro (hfor | hstale)
      · exact absurd rfl hfor
      · refine absurd ?_ hstale
        simpa [RegistryInner.ownsEntry, any_eq_true] using howns
    · rintro recovery rfl
      exact ⟨failure, hf, rotateQuota_ok hex hrot⟩

def exhaustedQuota : QuotaClassification := classifyQuota ⟨.exhausted, .credential, .requests, none, none, none, none, none⟩ 0

def retryOnce : RetryContext := { attempt := 1, commitment := .uncommitted, replay := .safe }

/-- The world of one granted lease, and its recovery. -/
theorem recover_quota_all_or_nothing_sample :
    ∃ hd, (World.run {} leaseEvents).holdings[0]? = some hd ∧
      ((World.run {} leaseEvents).recoverQuota 0 0 hd exhaustedQuota sampleRequest .default retryOnce).1.isOk = true ∧
      ((World.run {} leaseEvents).recoverQuota 0 0 hd exhaustedQuota sampleRequest .default
        retryOnce).2.releases = [0] := by
  have hlive : (World.run {} leaseEvents).holdings[0]?.any (fun hd => !hd.released &&
      ((World.run {} leaseEvents).recoverQuota 0 0 hd exhaustedQuota sampleRequest .default
        retryOnce).1.isOk) = true := by decide
  obtain ⟨hd, hget, hd'⟩ := (any_eq_true _ _).1 hlive
  simp only [and_eq_true, not_eq_true'] at hd'
  exact ⟨hd, hget, hd'.2, (recover_quota_all_or_nothing _ _ 0 0 hd hget hd'.1 exhaustedQuota sampleRequest
    .default retryOnce _ rfl).1.1⟩

end Pooler
