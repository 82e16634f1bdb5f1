import Pooler.Sanity.Registry
import Pooler.Spec.Http.Pool

/-! What the coordinator's registries hold before the first selection: no lease, and in each slot
the bound of its account. -/

namespace Pooler

open Lib Table BindingKey

theorem register_get (s : RegistryState) (r : CredentialRegistration) (b : BindingKey) :
    (s.register r).entries.get b =
      if r.binding = b then
        some (((s.entries.get b).map (fun e => { e with registration := r })).getD ⟨r, true, 0, s.nextOrder⟩)
      else s.entries.get b := by
  unfold RegistryState.register
  cases hget : s.entries.get r.binding with
  | none =>
    show (s.entries.put _).get b = _
    rw [Slots.get_put]
    by_cases hb : r.binding = b
    · rw [if_pos hb, if_pos hb, ← hb, hget]
      rfl
    · rw [if_neg hb, if_neg hb]
  | some =>
    show (s.entries.put _).get b = _
    rw [Slots.get_put]
    by_cases hb : r.binding = b
    · rw [if_pos hb, if_pos hb, ← hb, hget]
      rfl
    · rw [if_neg hb, if_neg hb]

section

variable {digests : Digests} {config : PoolConfig} {b : BindingKey}

theorem BindingKey.new_account {targetId accountId fingerprint}
    (h : BindingKey.new targetId accountId fingerprint = .ok b) : b.accountId.asStr = accountId := by
  unfold BindingKey.new at h
  split_ifs at h
  obtain ⟨target, -, h⟩ := bind_eq_ok.1 h
  obtain ⟨account, ha, h⟩ := bind_eq_ok.1 h
  cases h
  exact Ident.new_asStr (mapError_eq_ok.1 ha)

variable {account : AccountPlan}

theorem accountBinding_account {upstreams target}
    (h : accountBinding digests upstreams target account = .ok b) : b.accountId.asStr = account.id := by
  obtain ⟨fingerprint, -, h⟩ := bind_eq_ok.1 h
  exact new_account (mapError_eq_ok.1 h)

/-- A setting of a registration that leaves its binding, its provider and its bound alone. -/
structure KeepsBound (r r' : CredentialRegistration) : Prop where
  binding : r'.binding = r.binding
  provider : r'.provider = r.provider
  maxInFlight : r'.maxInFlight = r.maxInFlight

theorem KeepsBound.trans {r r' r''} (h : KeepsBound r r') (h' : KeepsBound r' r'') : KeepsBound r r'' where
  binding := h'.binding.trans h.binding
  provider := h'.provider.trans h.provider
  maxInFlight := h'.maxInFlight.trans h.maxInFlight

variable {r r' : CredentialRegistration}

theorem KeepsBound.of_checked {bad : Prop} [Decidable bad]
    {err : RegistrationError} {set : ¬bad → CredentialRegistration}
    (h : (if hbad : bad then .error err else .ok (set hbad)) = Except.ok r')
    (hset : ∀ hbad, KeepsBound r (set hbad)) : KeepsBound r r' := by
  split_ifs at h with hbad
  rw [← Except.ok.inj h]
  exact hset hbad

theorem withPoolId_keeps {poolId} (h : r.withPoolId poolId = .ok r') : KeepsBound r r' := by
  unfold CredentialRegistration.withPoolId at h
  split_ifs at h
  cases h
  exact ⟨rfl, rfl, rfl⟩

theorem withCodecs_keeps {codecs : List String}
    (h : codecs.foldlM CredentialRegistration.withCodec r = .ok r') : KeepsBound r r' := by
  refine foldlM_ok_invariant ?_ (p := KeepsBound r) ⟨rfl, rfl, rfl⟩ h
  intro s codec s' _ hs hcod
  unfold CredentialRegistration.withCodec at hcod
  split_ifs at hcod
  cases hcod
  exact hs.trans ⟨rfl, rfl, rfl⟩

theorem withAccountQuotaProject_keeps (h : withAccountQuotaProject digests r account = .ok r') : KeepsBound r r' := by
  unfold withAccountQuotaProject at h
  split at h
  · cases h; exact ⟨rfl, rfl, rfl⟩
  · split_ifs at h
    cases h
    exact ⟨rfl, rfl, rfl⟩

variable {target : TargetMetadata}

theorem accountRegistration_bound {binding r} (h : accountRegistration digests account binding target = .ok r) :
    r.binding = binding ∧ r.provider.asStr = account.provider ∧ r.maxInFlight = account.maxConcurrency := by
  obtain ⟨provider, hp, h⟩ := bind_eq_ok.1 h
  obtain ⟨r1, h1, h⟩ := bind_eq_ok.1 h
  obtain ⟨r2, h2, h⟩ := bind_eq_ok.1 h
  obtain ⟨r3, h3, h⟩ := bind_eq_ok.1 h
  obtain ⟨r4, h4, h⟩ := bind_eq_ok.1 h
  obtain ⟨r5, h5, h⟩ := bind_eq_ok.1 h
  obtain ⟨r6, h6, h⟩ := bind_eq_ok.1 h
  rw [mapError_eq_ok] at h1 h2 h3 h4 h5
  have hweig : KeepsBound _ r1 := .of_checked h1 (fun _ => ⟨rfl, rfl, rfl⟩)
  have htgt : KeepsBound r1 r2 := .of_checked h2 (fun _ => ⟨rfl, rfl, rfl⟩)
  have hprio : KeepsBound r2 r3 := .of_checked h3 (fun _ => ⟨rfl, rfl, rfl⟩)
  have hpool := withPoolId_keeps h4
  have hcodecs := withCodecs_keeps h5
  have hfac : KeepsBound r5 (r5.withFacts target.facts) := ⟨rfl, rfl, rfl⟩
  have hkeep : KeepsBound (.withBinding binding provider target.model target.capabilities) r6 :=
    (((((hweig.trans htgt).trans hprio).trans hpool).trans hcodecs).trans hfac).trans (withAccountQuotaProject_keeps h6)
  have hprov : r6.provider.asStr = account.provider := by
    rw [hkeep.provider]
    exact Ident.new_asStr (mapError_eq_ok.1 hp)
  split at h
  next hn =>
    cases h
    exact ⟨hkeep.binding, hprov, hkeep.maxInFlight.trans hn.symm⟩
  next hsome =>
    have hmax := mapError_eq_ok.1 h
    unfold CredentialRegistration.withMaxInFlight at hmax
    split_ifs at hmax
    cases hmax
    exact ⟨hkeep.binding, hprov, hsome.symm⟩

/-- The slot is one of its account: no lease is out, and bound and provider are the account's. -/
structure SlotOf (account : AccountPlan) (e : RegistryEntry) : Prop where
  inFlight : e.inFlight = 0
  maxInFlight : e.registration.maxInFlight = account.maxConcurrency
  provider : e.registration.provider.asStr = account.provider

/-- Every slot belongs to an account of the configuration, and its binding is in the index. -/
structure Seeded (config : PoolConfig) (registry : RegistryInner) (index : BindingIndex) : Prop where
  slots : ∀ b e, registry.state.entries.get b = some e →
    ∃ account, config.accounts[b.accountId.asStr]? = some account ∧ SlotOf account e
  indexed : ∀ b e, registry.state.entries.get b = some e → ∃ provider, index[b]? = some provider

/-- The index gives every binding of an account the account's provider. -/
def IndexOk (config : PoolConfig) (index : BindingIndex) : Prop :=
  ∀ (b : BindingKey) (provider : ProviderId), index[b]? = some provider → b.accountId.asStr = catalogStatic ∨
    ∃ account, config.accounts[b.accountId.asStr]? = some account ∧ provider.asStr = account.provider

theorem seeded_empty {index} : Seeded config {} index := by
  constructor <;>
  · intro b e h
    simp [Slots.get, Slots.empty] at h

/-- The later index knows every binding that the earlier one knows. -/
def IndexGrows (index index' : BindingIndex) : Prop :=
  ∀ (b : BindingKey), (∃ provider, index[b]? = some provider) → ∃ provider, index'[b]? = some provider

theorem IndexGrows.insert {index index'} (h : IndexGrows index index') (b : BindingKey)
    (provider : ProviderId) : IndexGrows index (index'.insert b provider) := by
  intro b' hb'
  rw [get_insert]
  split_ifs
  · exact ⟨provider, rfl⟩
  · exact h b' hb'

theorem Seeded.grow {registry index index'} (h : Seeded config registry index)
    (hg : IndexGrows index index') : Seeded config registry index' where
  slots := h.slots
  indexed b e he := hg b (h.indexed b e he)

theorem IndexOk.insert {index} (h : IndexOk config index) {provider}
    (hb : b.accountId.asStr = catalogStatic ∨ ∃ account, config.accounts[b.accountId.asStr]? = some account ∧
      provider.asStr = account.provider) : IndexOk config (index.insert b provider) := by
  intro b' provider' hget
  rw [get_insert] at hget
  split_ifs at hget with heq
  · cases hget
    rw [← heq]
    exact hb
  · exact h b' provider' hget

/-- A registry that has been filled, from an index that has grown since. -/
structure Filled (config : PoolConfig) (index : BindingIndex) (filling : Filling) : Prop where
  seeded : Seeded config filling.registry filling.index
  indexOk : IndexOk config filling.index
  grows : IndexGrows index filling.index

variable {index : BindingIndex} {filling filling' : Filling}

section

variable (hf : Filled config index filling)
include hf

theorem Filled.registerAccount {bindingId} (ha : config.accounts[account.id]? = some account)
    (h : registerAccount digests config.upstreams filling account bindingId target = .ok filling') :
    Filled config index filling' := by
  obtain ⟨binding, hb, h⟩ := bind_eq_ok.1 h
  obtain ⟨r, hr, h⟩ := bind_eq_ok.1 h
  cases h
  obtain ⟨rfl, hprov, hmax⟩ := accountRegistration_bound hr
  have hown : config.accounts[r.binding.accountId.asStr]? = some account := by
    rw [accountBinding_account hb]
    exact ha
  refine ⟨⟨?_, ?_⟩, hf.indexOk.insert (.inr ⟨account, hown, hprov⟩), hf.grows.insert _ _⟩
  · intro b e he
    change (filling.registry.state.register r).entries.get b = some e at he
    rw [register_get] at he
    split_ifs at he with hbind
    · subst hbind
      refine ⟨account, hown, ?_⟩
      cases hget : filling.registry.state.entries.get r.binding with
      | none =>
        rw [hget] at he
        cases he
        exact ⟨rfl, hmax, hprov⟩
      | some old =>
        rw [hget] at he
        cases he
        obtain ⟨_, -, hold⟩ := hf.seeded.slots _ old hget
        exact ⟨hold.inFlight, hmax, hprov⟩
    · exact hf.seeded.slots b e he
  · intro b e he
    change (filling.registry.state.register r).entries.get b = some e at he
    rw [register_get] at he
    rw [get_insert]
    split_ifs at he ⊢
    · exact ⟨_, rfl⟩
    · exact hf.seeded.indexed b e he

theorem Filled.registerAccounts {provider bindingId accountIds}
    (h : registerAccounts digests config provider bindingId target accountIds filling = .ok filling') :
    Filled config index filling' := by
  refine foldlM_ok_invariant ?_ hf h
  intro s id s' _ hs hstep
  split at hstep
  · cases hstep; exact hs
  next account hget =>
    split_ifs at hstep
    · cases hstep; exact hs
    · refine hs.registerAccount ?_ hstep
      rw [config.accounts_keyed id account hget]
      exact hget

theorem Filled.registerModelAccounts {model targets}
    (h : registerModelAccounts digests config filling model targets = .ok filling') : Filled config index filling' := by
  obtain ⟨model, -, h⟩ := bind_eq_ok.1 h
  exact foldlM_ok_invariant (fun s target s' _ hs hstep => hs.registerAccounts hstep) hf h

theorem Filled.registerRouteAccounts {route}
    (h : registerRouteAccounts digests config filling route = .ok filling') : Filled config index filling' := by
  obtain ⟨model, -, h⟩ := bind_eq_ok.1 h
  exact hf.registerAccounts h

theorem Filled.registerCatalogTarget {model target}
    (h : registerCatalogTarget digests config model filling target = .ok filling') : Filled config index filling' := by
  unfold Pooler.registerCatalogTarget at h
  split at h
  · cases h; exact hf
  · split at h
    · obtain ⟨binding, hb, h⟩ := bind_eq_ok.1 h
      cases h
      have hstat := new_account (mapError_eq_ok.1 hb)
      have hone : IndexGrows filling.index (filling.index.insert binding target.provider) :=
        IndexGrows.insert (fun _ => id) _ _
      exact ⟨hf.seeded.grow hone, hf.indexOk.insert (.inl hstat), hf.grows.insert _ _⟩
    · exact hf.registerAccounts h

theorem Filled.registerCatalogModel {model}
    (h : registerCatalogModel digests config filling model = .ok filling') : Filled config index filling' :=
  foldlM_ok_invariant (fun _ _ _ _ hs hstep => hs.registerCatalogTarget hstep) hf h

end

/-- Every registry of the view is seeded under the view's index. -/
structure RegistryView.Sound (config : PoolConfig) (view : RegistryView) : Prop where
  seeded : ∀ (key : String) (registry : RegistryInner), view.registries[key]? = some registry →
    Seeded config registry view.index
  indexOk : IndexOk config view.index

variable {view view' : RegistryView}

theorem RegistryView.Sound.file {key} (hv : view.Sound config)
    (hf : Filled config view.index filling) : (view.file key filling).Sound config := by
  refine ⟨?_, hf.indexOk⟩
  intro key' registry' h
  simp only [RegistryView.file, get_insert] at h ⊢
  split_ifs at h
  · cases h; exact hf.seeded
  · exact (hv.seeded key' registry' h).grow hf.grows

theorem RegistryView.Sound.filled (hv : view.Sound config) {registry}
    (hr : Seeded config registry view.index) : Filled config view.index ⟨registry, view.index⟩ :=
  ⟨hr, hv.indexOk, fun _ => id⟩

theorem modelView_sound (h : modelView digests config = .ok view) : view.Sound config := by
  refine foldlM_ok_invariant ?_ (p := RegistryView.Sound config) ?_ h
  · rintro view ⟨id, targets⟩ view' - hv hstep
    obtain ⟨filling, hf, hstep⟩ := bind_eq_ok.1 hstep
    cases hstep
    exact hv.file ((hv.filled seeded_empty).registerModelAccounts hf)
  · refine ⟨?_, ?_⟩
    · intro key registry h
      simp at h
    · intro b provider h
      simp at h

theorem routeView_sound (hv : view.Sound config) (h : routeView digests config view = .ok view') :
    view'.Sound config := by
  refine foldlM_ok_invariant ?_ hv h
  intro view route view' _ hv hstep
  split_ifs at hstep
  · cases hstep; exact hv
  · obtain ⟨filling, hf, hstep⟩ := bind_eq_ok.1 hstep
    cases hstep
    exact hv.file ((hv.filled seeded_empty).registerRouteAccounts hf)

theorem buildRegistryView_sound {catalog}
    (h : buildRegistryView digests config catalog = .ok view) : view.Sound config := by
  obtain ⟨models, hm, h⟩ := bind_eq_ok.1 h
  obtain ⟨routes, hr, h⟩ := bind_eq_ok.1 h
  refine foldlM_ok_invariant ?_ (routeView_sound (modelView_sound hm) hr) h
  intro view model view' _ hv hstep
  obtain ⟨filling, hf, hstep⟩ := bind_eq_ok.1 hstep
  cases hstep
  refine hv.file (Filled.registerCatalogModel (hv.filled ?_) hf)
  cases hget : view.registries[model.id.asStr]? with
  | none => exact seeded_empty
  | some => exact hv.seeded _ _ hget

end

end Pooler
