import Pooler.Sanity.Registry

/-! What a step of the lease world can do: one lemma per part of a quota recovery, and the
recovery of a lease as a release, a rotation and a destructor that finds nothing left to do. -/

namespace Pooler

open Lib

namespace RegistryInner

variable {i r : RegistryInner} {res : Except SelectionError QuotaRecovery} {mutation : HealthMutation}
  {decision : RetryDecision}

theorem reselect_cases {request} (h : i.reselect mutation decision request = (res, r)) :
    (decision.isRetry = false ∧ res = .ok ⟨mutation, decision, none, none⟩ ∧ r = i) ∨
    (decision.isRetry = true ∧ ∃ lease state, selectFromState i.state i.health request = (.ok lease, state) ∧
      res = .ok ⟨mutation, decision, some lease, none⟩ ∧ r = { i with state }) ∨
    (decision.isRetry = true ∧ ∃ err state, selectFromState i.state i.health request = (.error err, state) ∧
      (res = .error err ∨ ∃ expl, res = .ok ⟨mutation, .doNotRetry .noAlternateTarget, none, some expl⟩) ∧
      r = { i with state }) := by
  unfold reselect at h
  cases hd : decision.isRetry with
  | false =>
    rw [hd] at h
    cases h
    exact .inl ⟨rfl, rfl, rfl⟩
  | true =>
    rw [hd] at h
    simp only [Bool.not_true, Bool.false_eq_true, if_false] at h
    split at h
    next lease state hsel =>
      cases h
      exact .inr (.inl ⟨rfl, lease, state, hsel, rfl, rfl⟩)
    next hsel =>
      cases h
      exact .inr (.inr ⟨rfl, _, _, hsel, .inr ⟨_, rfl⟩, rfl⟩)
    next hsel =>
      cases h
      exact .inr (.inr ⟨rfl, _, _, hsel, .inl rfl, rfl⟩)

/-- A reselection that hands out a lease has selected it; any other only drops expired entries. -/
theorem reselect_slots {request} (h : i.reselect mutation decision request = (res, r)) : r.health = i.health ∧
    ((QuotaRecovery.leaseOf res = none ∧ SameSlots i.state r.state) ∨
      ∃ lease, QuotaRecovery.leaseOf res = some lease ∧
        selectFromState i.state i.health request = (.ok lease, r.state)) := by
  rcases reselect_cases h with ⟨-, rfl, rfl⟩ | ⟨-, lease, state, hsel, rfl, rfl⟩ | ⟨-, err, state, hsel, hres, rfl⟩
  · exact ⟨rfl, .inl ⟨rfl, .refl _⟩⟩
  · exact ⟨rfl, .inr ⟨lease, rfl, hsel⟩⟩
  · refine ⟨rfl, .inl ⟨?_, ?_⟩⟩
    · rcases hres with rfl | ⟨expl, rfl⟩ <;> rfl
    · exact selectFromState_error_slots hsel

variable {failed : LeaseGrant} {classification : QuotaClassification} {failure : FailureClassification}
  {request : SelectionRequest} {policy : RetryPolicy} {context : RetryContext}

/-- A rotation either files no window and does nothing more, or files it, applies the cooldown and
reselects. -/
theorem rotateQuota_cases (h : i.rotateQuota failed classification failure request policy context = (res, r)) :
    (∃ err taken, taken ≠ .ok true ∧ (i.state.dropExpired request.now).insertQuotaForBinding failed.binding
        failed.registration classification.snapshot = (taken, r.state) ∧ res = .error err ∧ r.health = i.health) ∨
    ∃ state, (i.state.dropExpired request.now).insertQuotaForBinding failed.binding failed.registration
        classification.snapshot = (.ok true, state) ∧
      reselect ⟨state, (i.health.applyFailure failure (failedSubject request failed) request.now).2⟩
        (i.health.applyFailure failure (failedSubject request failed) request.now).1
        (policy.decide failure { context with targetChange := rotationTarget classification.snapshot.scope })
        (rotationRequest request failed) = (res, r) := by
  unfold rotateQuota at h
  split at h
  next err state hins =>
    cases h
    exact .inl ⟨err, .error err, nofun, hins, rfl, rfl⟩
  next state hins =>
    cases h
    exact .inl ⟨_, .ok false, nofun, hins, rfl, rfl⟩
  next state hins => exact .inr ⟨state, hins, h⟩

theorem insertQuota_slots {state taken}
    (h : (i.state.dropExpired request.now).insertQuotaForBinding failed.binding failed.registration
      classification.snapshot = (taken, state)) : SameSlots i.state state := by
  have hdrop : SameSlots i.state (i.state.dropExpired request.now) := .of_entries rfl rfl
  have hins := insertQuotaForBinding_slots (i.state.dropExpired request.now) failed.binding
    failed.registration classification.snapshot
  rw [h] at hins
  exact hdrop.trans hins

section

variable (h : i.rotateQuota failed classification failure request policy context = (res, r))
include h

/-- A rotation's slots: a replacement lease was selected in a state with the same slots. -/
theorem rotateQuota_slots : (QuotaRecovery.leaseOf res = none ∧ SameSlots i.state r.state) ∨
    ∃ lease mid, QuotaRecovery.leaseOf res = some lease ∧ SameSlots i.state mid ∧
      selectFromState mid r.health (rotationRequest request failed) = (.ok lease, r.state) := by
  rcases rotateQuota_cases h with ⟨err, taken, -, hins, rfl, -⟩ | ⟨state, hins, hre⟩
  · exact .inl ⟨rfl, insertQuota_slots hins⟩
  · obtain ⟨hheal, ⟨hn, hs⟩ | ⟨lease, hls, hsel⟩⟩ := reselect_slots hre
    · exact .inl ⟨hn, (insertQuota_slots hins).trans hs⟩
    · exact .inr ⟨lease, state, hls, insertQuota_slots hins, by rw [hheal]; exact hsel⟩

theorem rotateQuota_isRetry {lease} (hls : QuotaRecovery.leaseOf res = some lease) :
    (policy.decide failure
      { context with targetChange := rotationTarget classification.snapshot.scope }).isRetry = true := by
  rcases rotateQuota_cases h with ⟨err, taken, -, -, rfl, -⟩ | ⟨state, -, hre⟩
  · cases hls
  · rcases reselect_cases hre with ⟨-, rfl, -⟩ | ⟨hrt, -⟩ | ⟨hrt, -⟩
    · cases hls
    · exact hrt
    · exact hrt

theorem rotateQuota_health :
    r.health = i.health ∨ r.health = (i.health.applyFailure failure (failedSubject request failed) request.now).2 := by
  rcases rotateQuota_cases h with ⟨err, taken, -, -, -, hh⟩ | ⟨state, -, hre⟩
  · exact .inl hh
  · exact .inr (reselect_slots hre).1

end

end RegistryInner

namespace World

variable {hd : Holding} {t : ℕ}

section

variable (w : World) (i : ℕ)

@[simp] theorem setRegistry_registries (i j : ℕ) (r : RegistryInner) :
    (w.setRegistry i r).registries j = if j = i then r else w.registries j := Function.update_apply _ _ _ _

@[simp] theorem setRegistry_holdings (r : RegistryInner) : (w.setRegistry i r).holdings = w.holdings := rfl

@[simp] theorem setRegistry_releases (r : RegistryInner) : (w.setRegistry i r).releases = w.releases := rfl

@[simp] theorem issue_registries (grant : Option LeaseGrant) :
    (w.issue i grant).registries = w.registries := by cases grant <;> rfl

@[simp] theorem issue_releases (grant : Option LeaseGrant) :
    (w.issue i grant).releases = w.releases := by cases grant <;> rfl

@[simp] theorem setHolding_registries (t : ℕ) (hd : Holding) : (w.setHolding t hd).registries = w.registries := rfl

@[simp] theorem setHolding_releases (t : ℕ) (hd : Holding) : (w.setHolding t hd).releases = w.releases := rfl

theorem issue_holding (i t : ℕ) (grant : Option LeaseGrant)
    (h : w.holdings[t]? = some hd) : (w.issue i grant).holdings[t]? = some hd := by
  cases grant with
  | none => exact h
  | some =>
    show (w.holdings ++ [_])[t]? = some hd
    rw [List.getElem?_append_left (List.getElem?_eq_some_iff.1 h).1, h]

theorem setHolding_get {hd hd'} (h : w.holdings[t]? = some hd) : (w.setHolding t hd').holdings[t]? = some hd' := by
  simp [setHolding, (List.getElem?_eq_some_iff.1 h).1]

end

variable {w : World} {request : SelectionRequest}

theorem selectWith_eq {i : ℕ} {h res state} (hsel : selectFromState (w.registries i).state h request = (res, state)) :
    w.selectWith i h request = (res, (w.setRegistry i ⟨state, (w.registries i).health⟩).issue i res.toOption) := by
  simp [selectWith, hsel]

section

variable (h : w.holdings[t]? = some hd)
include h

theorem release_of_unreleased (hr : hd.released = false) :
    w.release t = { ((w.setRegistry hd.registry { w.registries hd.registry with
        state := (w.registries hd.registry).state.releaseSlot hd.grant.binding
          hd.grant.registrationOrder }).setHolding t { hd with released := true }) with
      releases := t :: w.releases } := by
  simp [release, h, hr]

theorem release_of_released (hr : hd.released = true) : w.release t = w := by
  simp [release, h, hr]

theorem release_holding :
    (w.release t).holdings[t]? = some { hd with released := true } := by
  cases hr : hd.released with
  | true => rw [release_of_released h hr, h, ← hr]
  | false =>
    rw [release_of_unreleased h hr]
    exact setHolding_get _ h

/-- The destructor of a ticket that was released before: it only ends the value. -/
theorem dropTicket_of_released
    (hr : hd.released = true) : w.dropTicket t = w.setHolding t { hd with state := .gone } := by
  simp [dropTicket, release_of_released h hr, h]

theorem dropTicket_eq : w.dropTicket t = (w.release t).setHolding t ⟨hd.registry, hd.grant, true, .gone⟩ := by
  simp [dropTicket, release_holding h]

end

/-- A recovery either ends at once and only drops the lease, or releases it, rotates, hands out the
replacement and ends the value. -/
theorem recoverQuota_cases {w w' : World} {self t : ℕ} {failed classification policy context res} (hg : w.holdings[t]? = some failed)
    (h : w.recoverQuota self t failed classification request policy context = (res, w')) :
    ((∃ err, res = .error err) ∧ w' = w.dropTicket t) ∨
    ∃ failure r, classification.failure = some failure ∧ classification.exhausted request.now = true ∧
      failed.registry = self ∧ (w.registries self).ownsEntry failed.grant = true ∧
      ((w.release t).registries self).rotateQuota failed.grant classification failure request policy
        context = (res, r) ∧
      w' = (((w.release t).setRegistry self r).issue self (QuotaRecovery.leaseOf res)).setHolding t
        ⟨failed.registry, failed.grant, true, .gone⟩ := by
  unfold recoverQuota at h
  split at h
  · cases h; exact .inl ⟨⟨_, rfl⟩, rfl⟩
  next failure hf =>
  by_cases hex : classification.exhausted request.now = true
  swap
  · rw [if_pos (by simpa using hex)] at h
    cases h; exact .inl ⟨⟨_, rfl⟩, rfl⟩
  rw [if_neg (by simpa using hex)] at h
  by_cases hreg : failed.registry = self
  swap
  · rw [if_pos hreg] at h
    cases h; exact .inl ⟨⟨_, rfl⟩, rfl⟩
  rw [if_neg (by simpa using hreg)] at h
  cases howns : (w.registries self).ownsEntry failed.grant with
  | false =>
    simp only [howns, Bool.not_false, if_true] at h
    cases h
    exact .inl ⟨⟨_, rfl⟩, by rw [dropTicket_of_released (release_holding hg) rfl, dropTicket_eq hg]⟩
  | true =>
    simp only [howns, Bool.not_true, Bool.false_eq_true, if_false] at h
    rcases hrot : ((w.release t).registries self).rotateQuota failed.grant classification failure request
      policy context with ⟨res', r⟩
    rw [hrot] at h
    cases h
    have hheld : (((w.release t).setRegistry self r).issue self (QuotaRecovery.leaseOf res')).holdings[t]? =
        some { failed with released := true } := issue_holding _ _ _ _ (release_holding hg)
    exact .inr ⟨failure, r, hf, hex, hreg, rfl, hrot, dropTicket_of_released hheld rfl⟩

/-- A registry has handed out a lease or none. -/
inductive Handed (w : World) (i : ℕ) : World → Prop
  | none {r} (hsame : SameSlots (w.registries i).state r.state) : Handed w i (w.setRegistry i r)
  | some {r mid h request lease} (hsame : SameSlots (w.registries i).state mid)
      (hsel : selectFromState mid h request = (.ok lease, r.state)) :
      Handed w i ((w.setRegistry i r).issue i (some lease))

theorem selectWith_handed (w : World) (i : ℕ) (h : HealthRegistry) (request : SelectionRequest) :
    Handed w i (w.selectWith i h request).2 := by
  rcases hsel : selectFromState (w.registries i).state h request with ⟨res, state⟩
  rw [selectWith_eq hsel]
  cases res with
  | ok => exact .some (r := ⟨state, (w.registries i).health⟩) (.refl _) hsel
  | error => exact .none (r := ⟨state, (w.registries i).health⟩) (selectFromState_error_slots hsel)

/-- What an event comes to. -/
inductive Moved (w : World) : WorldEvent → World → Prop
  | idle {e} : Moved w e w
  | op (i : ℕ) (op : RegistryOp) : Moved w (.op i op) (w.setRegistry i ((w.registries i).apply op))
  | handed {e i w'} (h : Handed w i w') : Moved w e w'
  | dropped {e t hd} (hget : w.holdings[t]? = some hd) : Moved w e (w.dropTicket t)
  | put {e t hd} (state : HoldState) (hget : w.holdings[t]? = some hd) :
      Moved w e (w.setHolding t { hd with state })
  | recovered {e i t hd held w'} (hget : w.holdings[t]? = some hd)
      (h : Handed (w.release t) i w') (hheld : w'.holdings[t]? = some held) :
      Moved w e (w'.setHolding t { held with state := .gone })

theorem recoverQuota_moved {e} {i : ℕ} {classification policy context} (hg : w.holdings[t]? = some hd) :
    Moved w e (w.recoverQuota i t hd classification request policy context).2 := by
  rcases hrec : w.recoverQuota i t hd classification request policy context with ⟨res, w'⟩
  rcases recoverQuota_cases hg hrec with ⟨-, rfl⟩ | ⟨failure, r, -, -, -, -, hrot, rfl⟩
  · exact .dropped hg
  have hheld : (((w.release t).setRegistry i r).issue i (QuotaRecovery.leaseOf res)).holdings[t]? =
      some { hd with released := true } := issue_holding _ _ _ _ (release_holding hg)
  refine .recovered (i := i) hg ?_ hheld
  rcases RegistryInner.rotateQuota_slots hrot with ⟨hn, hs⟩ | ⟨lease, mid, hsome, hs, hsel⟩
  · rw [hn]
    exact .none hs
  · rw [hsome]
    exact .some hs hsel

theorem step_moved (w : World) (e : WorldEvent) : Moved w e (w.step e) := by
  cases e with
  | op i op => exact .op i op
  | select i request | selectWithHealth i request => exact .handed (w.selectWith_handed i _ request)
  | recoverQuota =>
    simp only [step]
    split
    · exact .idle
    next hg =>
    split_ifs
    · exact recoverQuota_moved hg
    · exact .idle
  | intoParts =>
    simp only [step]
    split
    · exact .idle
    next hg =>
    split_ifs
    · exact .put .reservation hg
    · exact .idle
  | drop =>
    simp only [step]
    split
    · exact .idle
    next hg =>
    split_ifs
    · exact .idle
    · exact .dropped hg

end World

end Pooler
