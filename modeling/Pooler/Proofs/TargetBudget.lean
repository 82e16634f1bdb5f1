import Pooler.Proofs.AccountCap
import Pooler.Proofs.Registrations
import Pooler.Sanity.Retry

/-! The budgets of distinct credentials and providers over a whole request. The replacements of a
transport retry and of a rejected authorization stay inside them; a fresh selection and a quota
rotation do so where the registries hold no candidate that would exceed them. -/

namespace Pooler

open Lib KeySet List World Std.ExtTreeMap Bool

/-! ### Budgets -/

/-- The target can be used: it was used before, or its budget has room. -/
structure UsedTargets.Admits (p : RetryPolicy) (used : UsedTargets) (r : CredentialRegistration) : Prop where
  credential : r.credential ∈ used.credentials ∨ used.credentials.size < p.maxCredentials
  provider : r.provider ∈ used.providers ∨ used.providers.size < p.maxProviders

/-- The distinct targets are within the policy's bounds. -/
structure UsedTargets.Within (p : RetryPolicy) (used : UsedTargets) : Prop where
  credentials : used.credentials.size ≤ p.maxCredentials
  providers : used.providers.size ≤ p.maxProviders

variable {selection : PoolSelection}

theorem UsedTargets.Within.add {p} {used : UsedTargets}
    (h : used.Within p) (ha : used.Admits p selection.registration) : (used.add selection).Within p where
  credentials := size_insert_le h.credentials ha.credential
  providers := size_insert_le h.providers ha.provider

/-- The budget of a failure's own scope has room. -/
structure UsedTargets.HasRoom (p : RetryPolicy) (used : UsedTargets) (scope : ErrorScope) : Prop where
  credentials : scope = .credential → used.credentials.size < p.maxCredentials
  providers : scope = .provider → used.providers.size < p.maxProviders

/-- No account has the id that stands for catalog targets without accounts. -/
def BuiltView.StaticFree (v : BuiltView) : Prop := v.config.accounts[catalogStatic]? = none

variable {i : ℕ} {r : CredentialRegistration} {v : BuiltView}

theorem BuiltView.indexed (hfree : v.StaticFree)
    (hr : (World.ofView v.view).Registered i r) : v.view.index[r.binding]? = some r.provider := by
  have hsd := buildRegistryView_sound v.built
  obtain ⟨e, he, rfl⟩ := hr
  simp only [World.ofView] at he
  cases hi : v.view.registries.toList[i]? with
  | none =>
    rw [hi] at he
    simp [Slots.get, Slots.empty] at he
  | some pair =>
    obtain ⟨key, registry⟩ := pair
    rw [hi] at he
    have hseed := hsd.seeded key registry (mem_toList_iff_getElem?_eq_some.1 (mem_of_getElem? hi))
    obtain ⟨account, ha, hslot⟩ := hseed.slots _ e he
    obtain ⟨provider, hprov⟩ := hseed.indexed _ e he
    rcases hsd.indexOk _ provider hprov with hstat | ⟨account', ha', hp⟩
    · rw [hstat, hfree] at ha
      cases ha
    · rw [ha] at ha'
      cases ha'
      rw [hprov, Ident.ext (hp.trans hslot.provider.symm)]

namespace ProxyLoop

variable {policy : PolicyPlan} {s : ProxyLoop}

/-- The index names the provider of every binding that stands in a registry of the view. -/
def Indexed (s : ProxyLoop) (w : World) : Prop :=
  ∀ key i r, s.registryFor key = some i → w.Registered i r → s.index[r.binding]? = some r.provider

variable {w w' : World}

theorem Indexed.keeps (h : s.Indexed w) (hk : w.Keeps w') : s.Indexed w' :=
  fun key i r hi hr => h key i r hi (hk.registered hr)

theorem rebuild_indexed (s : ProxyLoop) (hfree : v.StaticFree) : (s.rebuild v).Indexed (s.rebuild v).world := by
  intro key i r hi hr
  obtain ⟨n, -, rfl⟩ := Option.map_eq_some_iff.1 hi
  -- The registry of a key is one of the new ones, past those that stood before.
  have hnew : (s.rebuild v).world.registries (s.base + s.keys.length + n) = (World.ofView v.view).registries n := by
    simp [rebuild, World.install]
  have hr' : (World.ofView v.view).Registered n r := by
    obtain ⟨e, he, hreg⟩ := hr
    exact ⟨e, by rw [← hnew]; exact he, hreg⟩
  exact BuiltView.indexed hfree hr'

def CandidatesAdmitted (policy : PolicyPlan) (s : ProxyLoop) (key : String) : Prop :=
  ∀ i r, s.registryFor key = some i → s.world.Registered i r → s.used.Admits policy.retry r

/-- A bound that fits a `u32` is not reached where the capped count does not reach it. -/
theorem lt_of_min_lt {n m : ℕ} (hm : m ≤ u32Max) (h : min n u32Max < m) : n < m := by omega

/-- A target that a budget's check lets through was used before, or the budget has room. -/
theorem used_or_lt {α : Type} [StringKeyed α] {used : KeySet α} {a : α} {n m : ℕ}
    (h : (decide (n ≥ m) && !used.contains a) = false) (hn : n < m → used.size < m) : a ∈ used ∨ used.size < m := by
  rw [and_eq_false_iff, decide_eq_false_iff_not, not_eq_false', Std.ExtTreeSet.contains_iff_mem] at h
  rcases h with hrm | hused
  · exact .inr (hn (not_le.1 hrm))
  · exact .inl hused

variable {replay : ReplayCheck} {idempotent : Bool} {elapsed : ℕ}

/-- A decision to retry leaves room in the budget of the failure's own scope. -/
theorem hasRoom_of_isRetry {failure change}
    (h : (policy.retry.decide failure
      { s.context replay idempotent elapsed with targetChange := change }).isRetry = true) :
    s.used.HasRoom policy.retry failure.classification.scope := by
  obtain ⟨_, _, hall⟩ := RetryPolicy.decide_isRetry h
  exact
    { credentials := fun hscp => lt_of_min_lt policy.maxCredentials_le (hall.credentials_lt hscp)
      providers := fun hscp => lt_of_min_lt policy.maxProviders_le (hall.providers_lt hscp) }

theorem admits_of_not_excluded {key} (hidx : s.index[r.binding]? = some r.provider)
    (hb : r.binding ∉ s.budgetExclusions policy (s.context replay key elapsed)) : s.used.Admits policy.retry r := by
  have hmem : (r.binding, r.provider) ∈ s.index.toList := mem_toList_iff_getElem?_eq_some.2 hidx
  have hkept := filter_eq_false_of_notMem (f := Prod.fst) hmem hb
  rw [or_eq_false_iff] at hkept
  exact
    { credential := used_or_lt hkept.1 (lt_of_min_lt policy.maxCredentials_le)
      provider := used_or_lt hkept.2 (lt_of_min_lt policy.maxProviders_le) }

theorem lend_excluding_draws {key base budget others res}
    (h : w.lend key i (insertNetworkRetryExclusions base (budget ++ others)).1 = (res, w')) :
    w.Draws (w.Unexcluded i (· ∈ budget)) res.toOption w' := by
  refine (lend_draws h).after (.refl w) (fun r hr => ⟨hr.1, fun hb => hr.2 ?_⟩)
  exact mem_insertMany.2 (.inr (mem_append_left _ hb))

variable {failed : PoolSelection} {out : Option (RetryDecision × Option PoolSelection)} {fallback : RetryDecision}

theorem fallbackReplacement_draws {base budget}
    (h : s.fallbackReplacement failed i base budget fallback w = (out, w')) :
    w.Draws (w.Unexcluded i (· ∈ budget)) (out.bind Prod.snd) w' := by
  unfold fallbackReplacement at h
  split_ifs at h
  · cases h
    exact .nothing (.refl w)
  · rcases hl : w.lend failed.registryKey i (insertNetworkRetryExclusions base
      (budget ++ s.providerBindings (fun provider => provider ≠ failed.provider))).1 with ⟨lent, mid⟩
    have hlent := lend_excluding_draws hl
    simp only [hl] at h
    cases lent with
    | error =>
      cases h
      exact .nothing hlent.keeps
    | ok candidate =>
      simp only at h
      split_ifs at h
      · cases h
        exact .one hlent.keeps (hlent.drawn candidate rfl)
      · cases h
        exact .nothing (hlent.keeps.trans (mid.keeps_dropLease _))

theorem networkRetryReplacement_draws {cls ctx} {now : ℕ}
    (h : s.networkRetryReplacement policy failed i cls fallback ctx now w = (out, w')) :
    w.Draws (w.Unexcluded i (· ∈ s.budgetExclusions policy ctx)) (out.bind Prod.snd) w' := by
  unfold networkRetryReplacement at h
  split at h
  · cases h
    exact .nothing (.refl w)
  next t _ =>
  rcases hl : (w.dropTicket t).lend failed.registryKey i (insertNetworkRetryExclusions (s.retryRequest failed now)
    (s.budgetExclusions policy ctx ++
      s.providerBindings (fun provider => provider = failed.provider))).1 with ⟨lent, mid⟩
  have hlent := (lend_excluding_draws hl).unexcluded (w.keeps_dropTicket t)
  simp only [hl] at h
  cases lent with
  | error => exact (fallbackReplacement_draws h).unexcluded hlent.keeps
  | ok candidate =>
    simp only at h
    split_ifs at h
    · cases h
      exact .one hlent.keeps (hlent.drawn candidate rfl)
    · exact (fallbackReplacement_draws h).unexcluded (hlent.keeps.trans (mid.keeps_dropLease candidate.lease))

theorem rotate_draws {quota} {elapsed now : ℕ} {w'}
    (h : s.rotate policy failed i quota (s.context replay idempotent elapsed) now = (out, w')) :
    s.world.Draws (fun r => s.world.Registered i r ∧ ∃ failure, quota.failure = some failure ∧
      s.used.HasRoom policy.retry failure.classification.scope) (out.bind Prod.snd) w' := by
  unfold rotate at h
  split at h
  · cases h
    exact .nothing (.refl _)
  split at h
  · cases h
    exact .nothing (.refl _)
  next hget =>
  split at h
  next hrec =>
    cases h
    exact .nothing (recoverQuota_registrations hget hrec).1
  next recovery w hrec =>
    obtain ⟨hkeep, hls⟩ := recoverQuota_registrations hget hrec
    cases h
    cases hgr : recovery.selection with
    | none => exact .nothing hkeep
    | some grant =>
      obtain ⟨hr, failure, hfail, hrt⟩ := hls grant hgr
      exact .one hkeep ⟨hr, failure, hfail, hasRoom_of_isRetry hrt⟩

theorem applyFailed_keeps (failed : PoolSelection) (i : ℕ) (input : FailureInput) (w : World) :
    w.Keeps (applyFailed failed i input w) :=
  (keeps_applyQuotas _ _ _ w).trans (keeps_step _ _ rfl)

theorem reconsider_draws (policy : PolicyPlan) (s : ProxyLoop) (failed : PoolSelection) (i : ℕ)
    (input : FailureInput) (ctx : RetryContext) (decision : RetryDecision) (w : World) :
    w.Draws (w.Unexcluded i (· ∈ s.budgetExclusions policy ctx))
      (s.reconsider policy failed i input ctx decision w).replacement
      (s.reconsider policy failed i input ctx decision w).world := by
  unfold reconsider
  split_ifs
  · rcases hn : s.networkRetryReplacement policy failed i (effectiveClassification input) decision ctx
      input.now w with ⟨out, w'⟩
    have hdraws := networkRetryReplacement_draws hn
    cases out with
    | none | some => exact hdraws
  · exact .nothing (.refl w)

/-- What the next round takes from a failure can be used. -/
def Reserves (policy : PolicyPlan) (s : ProxyLoop) (failure : PoolFailure) : Prop :=
  s.world.Draws (s.used.Admits policy.retry) failure.replacement failure.world

theorem reconsider_reserves (hs : s.Indexed s.world) {input decision w}
    (hi : s.registryFor failed.registryKey = some i) (hw : s.world.Keeps w) :
    Reserves policy s (s.reconsider policy failed i input (s.context replay idempotent elapsed) decision w) := by
  refine (reconsider_draws policy s failed i input _ decision w).after hw (fun r hr => ?_)
  exact admits_of_not_excluded (hs _ i r hi (hw.registered hr.1)) hr.2

/-- Where a rotation announces a target for which its own budget has room, every candidate of its
registry can be used. -/
def RotationAdmitted (policy : PolicyPlan) (s : ProxyLoop) (key : String) (input : FailureInput) : Prop :=
  ∀ quota failure, rotationQuota policy input = some quota → quota.failure = some failure →
    s.used.HasRoom policy.retry failure.classification.scope → CandidatesAdmitted policy s key

theorem classifyFailure_reserves (hs : s.Indexed s.world) {input}
    (hrotat : RotationAdmitted policy s failed.registryKey input) :
    Reserves policy s (s.classifyFailure policy failed input) := by
  unfold classifyFailure
  cases hi : s.registryFor failed.registryKey with
  | none => exact .nothing (.refl _)
  | some i =>
    simp only [classifyIn]
    cases hq : rotationQuota policy input with
    | none => exact reconsider_reserves hs hi (applyFailed_keeps failed i input s.world)
    | some quota =>
      simp only
      rcases hr : s.rotate policy failed i quota
        (s.context input.replay input.idempotencyKeyPresent input.elapsed) input.now with ⟨out, w⟩
      have hrot := rotate_draws hr
      have hquot := hrot.keeps.trans (keeps_applyQuotas i failed.credential input.quotas w)
      match out, hrot with
      | none, hrot => exact reconsider_reserves hs hi (hrot.keeps.trans (applyFailed_keeps failed i input w))
      | some (decision, none), _ => exact reconsider_reserves hs hi hquot
      | some (decision, some replacement), hrot =>
        obtain ⟨hregis, failure, hfail, hrm⟩ := hrot.drawn replacement rfl
        exact .one hquot (hrotat quota failure hq hfail hrm i _ hi hregis)

/-! ### Rejected authorizations -/

/-- A registration that a rejected authorization does not exclude can be used. -/
theorem admits_of_not_reauthExcluded {input} (hr : s.world.Registered i r)
    (hb : r.binding ∉ s.reauthExclusions policy failed i input) : s.used.Admits policy.retry r := by
  obtain ⟨e, he, rfl⟩ := hr
  have hmem : e.registration ∈ (s.world.registries i).state.entries.values.map RegistryEntry.registration :=
    mem_map_of_mem (Slots.mem_values.2 he)
  have hkept := filter_eq_false_of_notMem hmem hb
  simp only [or_eq_false_iff] at hkept
  exact
    { credential := used_or_lt hkept.1.2 id
      provider := used_or_lt hkept.2 id }

/-- What a rejected authorization leaves: a failure for the next round, or an error. -/
def ReservesOrEnds (policy : PolicyPlan) (s : ProxyLoop) : Except World PoolFailure → Prop
  | .ok failure => Reserves policy s failure
  | .error w => s.world.Keeps w

theorem reauthIn_reserves (policy : PolicyPlan) (s : ProxyLoop) (failed : PoolSelection) (i : ℕ)
    (input : NativeReauthInput) : ReservesOrEnds policy s (s.reauthIn policy failed i input) := by
  have hdrop := s.world.keeps_dropLease failed.lease
  unfold reauthIn
  rcases hl : (s.world.dropLease failed.lease).lend failed.registryKey i
    (s.reauthRequest policy failed i input) with ⟨lent, w⟩
  have hlent : s.world.Draws (s.used.Admits policy.retry) lent.toOption w := by
    refine (lend_draws hl).after hdrop (fun r hr => ?_)
    have hnew : r.binding ∉ s.reauthExclusions policy failed i input :=
      fun hb => hr.2 (mem_insertMany.2 (.inr hb))
    exact admits_of_not_reauthExcluded (hdrop.registered hr.1) hnew
  cases lent with
  | error err =>
    cases err with
    | noEligible => exact hlent
    | _ => exact hlent.keeps
  | ok =>
    simp only
    split_ifs
    · exact hlent
    · exact .nothing (hlent.keeps.trans (w.keeps_dropLease _))

theorem classifyNativeReauth_reserves (policy : PolicyPlan) (s : ProxyLoop) (failed : PoolSelection)
    (input : NativeReauthInput) : ReservesOrEnds policy s (s.classifyNativeReauth policy failed input) := by
  unfold classifyNativeReauth
  simp only
  split_ifs
  · exact .nothing (.refl _)
  · split
    · exact .nothing (.refl _)
    · exact reauthIn_reserves policy s failed _ input

/-! ### Fresh selections -/

/-- A registration of one of the registries that the chain consults. -/
def Consulted (s : ProxyLoop) (w : World) (chain : List (String × SelectionRequest)) (r : CredentialRegistration) :
    Prop :=
  ∃ q ∈ chain, ∃ i, s.registryFor q.1 = some i ∧ w.Registered i r

theorem selectFirst_draws (s : ProxyLoop) :
    ∀ chain w w' res, s.selectFirst w chain = (res, w') → w.Draws (s.Consulted w chain) res w' := by
  intro chain
  induction chain with
  | nil =>
    intro w w' res h
    cases h
    exact .nothing (.refl w)
  | cons q chain ih =>
    intro w w' res h
    obtain ⟨key, req⟩ := q
    -- The rest of the chain is consulted in a world with the same registrations.
    have hrest : ∀ {mid : World}, w.Keeps mid → s.selectFirst mid chain = (res, w') →
        w.Draws (s.Consulted w ((key, req) :: chain)) res w' := by
      intro mid hmid h
      refine (ih mid w' res h).after hmid ?_
      rintro r ⟨q, hq, i, hi, hr⟩
      exact ⟨q, mem_cons_of_mem _ hq, i, hi, hmid.registered hr⟩
    unfold selectFirst at h
    cases hi : s.registryFor key with
    | none =>
      simp only [hi] at h
      exact hrest (.refl w) h
    | some i =>
      rcases hl : w.lend key i req with ⟨lent, mid⟩
      have hlent := lend_draws hl
      simp only [hi, hl] at h
      cases lent with
      | ok selection =>
        simp only at h
        split_ifs at h
        · cases h
          exact .one hlent.keeps ⟨(key, req), mem_cons_self, i, hi, (hlent.drawn selection rfl).1⟩
        · cases h
          exact .nothing (hlent.keeps.trans (mid.keeps_dropLease _))
      | error err =>
        cases err with
        | noEligible => exact hrest hlent.keeps h
        | _ =>
          cases h
          exact .nothing hlent.keeps

/-! ### The loop -/

/-- What the loop keeps: the budgets, an index that knows the providers, and a selection at hand
that can be used, or has been. -/
structure OnBudget (policy : PolicyPlan) (s : ProxyLoop) : Prop where
  within : s.used.Within policy.retry
  indexed : s.Indexed s.world
  forced : ∀ selection, s.phase = .choosing (some selection) → s.used.Admits policy.retry selection.registration
  attempting : ∀ selection, s.phase = .attempting selection →
    selection.credential ∈ s.used.credentials ∧ selection.provider ∈ s.used.providers

/-- The condition on one step. A view gives no account the id of the targets without accounts; a
fresh selection and a quota rotation see only candidates that can be used. -/
def Guarded (policy : PolicyPlan) (s : ProxyLoop) : ProxyEvent → Prop
  | .rebuilt view => view.StaticFree
  | .choose chain => s.phase = .choosing none → ∀ q ∈ chain, CandidatesAdmitted policy s q.1
  | .failed input => ∀ selection, s.phase = .attempting selection →
      RotationAdmitted policy s selection.registryKey input
  | _ => True

theorem start_onBudget (policy : PolicyPlan) {view} (hfree : view.StaticFree) : OnBudget policy (start view) where
  within := ⟨Nat.zero_le _, Nat.zero_le _⟩
  indexed := fun _ _ _ _ hr => BuiltView.indexed hfree hr
  forced := fun _ h => absurd h (by simp [start])
  attempting := fun _ h => absurd h (by simp [start])

theorem OnBudget.finish (h : OnBudget policy s) {w} (hw : s.world.Keeps w) :
    OnBudget policy { s with world := w, phase := .finished } where
  within := h.within
  indexed := h.indexed.keeps hw
  forced := fun _ h => absurd h (by simp)
  attempting := fun _ h => absurd h (by simp)

theorem OnBudget.attemptWith (h : OnBudget policy s) {w : World}
    (hw : s.world.Keeps w) (ha : s.used.Admits policy.retry selection.registration) :
    OnBudget policy (s.attemptWith selection w) where
  within := h.within.add ha
  indexed := h.indexed.keeps hw
  forced := fun _ h => absurd h (by simp [ProxyLoop.attemptWith])
  attempting := by
    rintro _ ⟨⟩
    exact ⟨mem_insert.2 (.inl rfl), mem_insert.2 (.inl rfl)⟩

theorem OnBudget.afterFailure (h : OnBudget policy s) {failure}
    (hr : Reserves policy s failure) (consumed : Bool) : OnBudget policy (s.afterFailure failure consumed) := by
  unfold ProxyLoop.afterFailure
  split
  · exact
      { within := h.within
        indexed := h.indexed.keeps (hr.keeps.trans (failure.world.keeps_dropLease _))
        forced := fun selection hp => hr.drawn selection (LoopPhase.choosing.inj hp)
        attempting := fun _ h => absurd h (by simp) }
  · exact h.finish hr.keeps

theorem OnBudget.resend (h : OnBudget policy s) (hp : s.phase = .attempting selection) (n : ℕ) :
    OnBudget policy { s with attempt := n, phase := .choosing (some selection) } where
  within := h.within
  indexed := h.indexed
  forced := by
    rintro _ ⟨⟩
    obtain ⟨hcred, hprov⟩ := h.attempting selection hp
    exact ⟨.inl hcred, .inl hprov⟩
  attempting := fun _ h => absurd h (by simp)

theorem OnBudget.step {e} (hg : Guarded policy s e) (h : OnBudget policy s) : OnBudget policy (s.step policy e) := by
  cases e with
  | others e he => exact { h with indexed := h.indexed.keeps (s.world.keeps_step e he) }
  | rebuilt => exact { h with indexed := s.rebuild_indexed hg }
  | choose chain =>
    cases hp : s.phase with
    | choosing forced =>
      cases forced with
      | some selection =>
        simp only [ProxyLoop.step, hp]
        exact h.attemptWith (.refl _) (h.forced selection hp)
      | none =>
        rcases hs : s.selectFirst s.world chain with ⟨res, w⟩
        have hdraws := s.selectFirst_draws chain s.world w res hs
        simp only [ProxyLoop.step, hp, hs]
        cases res with
        | none => exact h.finish hdraws.keeps
        | some selection =>
          obtain ⟨q, hq, i, hi, hr⟩ := hdraws.drawn selection rfl
          exact h.attemptWith hdraws.keeps (hg hp q hq i _ hi hr)
    | _ => simpa [ProxyLoop.step, hp] using h
  | resent =>
    cases hp : s.phase with
    | attempting =>
      simp only [ProxyLoop.step, hp]
      split_ifs
      · exact h.resend hp _
      · exact h
    | _ => simpa [ProxyLoop.step, hp] using h
  | failed =>
    cases hp : s.phase with
    | attempting selection =>
      simp only [ProxyLoop.step, hp]
      exact h.afterFailure (classifyFailure_reserves h.indexed (hg selection hp)) true
    | _ => simpa [ProxyLoop.step, hp] using h
  | reauth input =>
    cases hp : s.phase with
    | attempting selection =>
      have hres := classifyNativeReauth_reserves policy s selection input
      simp only [ProxyLoop.step, hp]
      cases hc : s.classifyNativeReauth policy selection input with
      | ok =>
        rw [hc] at hres
        exact h.afterFailure hres input.consumed
      | error =>
        rw [hc] at hres
        exact h.finish hres
    | _ => simpa [ProxyLoop.step, hp] using h
  | responded =>
    cases hp : s.phase with
    | attempting =>
      simp only [ProxyLoop.step, hp]
      exact h.finish (.refl _)
    | _ => simpa [ProxyLoop.step, hp] using h

/-- In a run whose fresh selections and quota rotations see only candidates that can be used, the
distinct credentials and providers stay within the policy's bounds. -/
theorem targets_within_budget (policy : PolicyPlan) (view : BuiltView) (hfree : view.StaticFree)
    (events : List ProxyEvent) (hok : StepsMeet (step policy) (Guarded policy) (start view) events) :
    (run policy (start view) events).used.credentials.size ≤ policy.retry.maxCredentials ∧
      (run policy (start view) events).used.providers.size ≤ policy.retry.maxProviders := by
  have h := run_of_stepsMeet (fun _ _ hg hinv => hinv.step hg) events _ hok (start_onBudget policy hfree)
  exact ⟨h.within.credentials, h.within.providers⟩

def namedAccount (name : String) : AccountPlan :=
  { boundedAccount with id := name, provider := name, maxConcurrency := none, maxConcurrency_le := by simp }

def namedTarget (name : String) : ModelTargetPlan := { boundedTarget name with provider := name, account := some name }

/-- One model with a target at each of two providers. -/
def twoProviders : PoolConfig where
  accounts := ((∅ : Table String AccountPlan).insert "first" (namedAccount "first")).insert "second"
    (namedAccount "second")
  accountPools := ∅
  upstreams := Std.ExtTreeMap.ofList [("first", ⟨"first", none, false⟩), ("second", ⟨"second", none, false⟩)] _
  models := Std.ExtTreeMap.ofList [("model", [namedTarget "first", namedTarget "second"])] _
  routes := []
  accounts_keyed := by
    intro id account h
    rw [Table.get_insert, Table.get_insert] at h
    split_ifs at h with hsecond hfirst
    · cases h; exact hsecond
    · cases h; exact hfirst
    · simp at h

/-- Two attempts, with a bound on the distinct credentials and one on the distinct providers. -/
def targetPolicy (maxCredentials maxProviders : Fin 8) : PolicyPlan where
  retry := { RetryPolicy.default with
    maxCredentials := maxCredentials + 1, maxProviders := maxProviders + 1
    maxCredentials_pos := by omega, maxProviders_pos := by omega }
  allowsStatus status := status = 503
  maxCredentials_le := by simp only [u32Max]; omega
  maxProviders_le := by simp only [u32Max]; omega

def unavailable : FailureInput :=
  { status := some 503, classification := classifyProviderFailure { status := some 503 }
    replay := .safe, now := 0 }

/-- The chain of a model without fallbacks. -/
def roundRobin (attempt now : ℕ) : List (String × SelectionRequest) :=
  [("model", { modelRequest "model" sampleModel.valid with strategy := .roundRobin, attempt, now })]

/-- An attempt, an unavailable provider, and after its cooldown an attempt with a fresh selection. -/
def unavailableRun : List ProxyEvent :=
  [.choose (roundRobin 1 0), .failed unavailable, .choose (roundRobin 2 (fromSecs 1))]

/-- With room for both targets, the run stays within its bounds. -/
theorem two_targets_within_budget : ∃ view : BuiltView, view.config = twoProviders ∧
    (run (targetPolicy 1 1) (start view) unavailableRun).used.credentials.size = 2 ∧
    (run (targetPolicy 1 1) (start view) unavailableRun).used.credentials.size ≤ 2 ∧
    (run (targetPolicy 1 1) (start view) unavailableRun).used.providers.size ≤ 2 := by
  refine ⟨⟨plainDigests, twoProviders, [], _, rfl⟩, rfl, by decide, ?_⟩
  have hnone : rotationQuota (targetPolicy 1 1) unavailable = none := rfl
  refine targets_within_budget (targetPolicy 1 1) ⟨plainDigests, twoProviders, [], _, rfl⟩ rfl unavailableRun
    ⟨?_, ?_, ?_, trivial⟩
  · exact fun _ _ _ _ _ _ _ => ⟨.inr (by decide), .inr (by decide)⟩
  · exact fun _ _ _ _ hq => absurd (hnone.symm.trans hq) (by simp)
  · exact fun _ _ _ _ _ _ _ => ⟨.inr (by decide), .inr (by decide)⟩

/-- An unavailable provider is charged to the budget of providers. The fresh selection that follows
takes the second credential, although one is the bound. -/
theorem provider_failure_exceeds_credentials : ∃ view : BuiltView, view.config = twoProviders ∧ view.StaticFree ∧
    (targetPolicy 0 1).retry.maxCredentials = 1 ∧
    (run (targetPolicy 0 1) (start view) unavailableRun).used.credentials.size = 2 := by
  exact ⟨⟨plainDigests, twoProviders, [], _, rfl⟩, rfl, rfl, rfl, by decide⟩

end ProxyLoop

end Pooler
