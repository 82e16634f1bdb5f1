import Pooler.Lib.Guards
import Pooler.Spec.Catalog.Merge

/-! What `compile_public_model` makes of the candidates of a public model: one target for each
provider, account and pool. -/

namespace Pooler

open Lib List OrderedMap Except

theorem Capability.index_lt (c : Capability) : c.index < 64 := by
  cases c <;> decide

theorem CapabilitySet.contains_eq (s : CapabilitySet) (c : Capability) : s.contains c = s.bits.getLsbD c.index := by
  have hbit : c.bit = BitVec.twoPow 64 c.index := by rw [Capability.bit, BitVec.twoPow_eq]
  have hne : BitVec.twoPow 64 c.index ≠ 0#64 := by
    intro h
    have := congrArg (fun x => x.getLsbD c.index) h
    simp [c.index_lt] at this
  rw [CapabilitySet.contains, hbit, BitVec.and_twoPow]
  cases s.bits.getLsbD c.index <;> simp [hne]

@[simp] theorem CapabilitySet.contains_intersection (s t : CapabilitySet) (c : Capability) :
    (s.intersection t).contains c = (s.contains c && t.contains c) := by
  simp [contains_eq, intersection]

theorem Ident.new_valid {k} (id : Ident k) : Ident.new k id.asStr = .ok id := by
  unfold Ident.new
  split
  next h =>
    have := id.valid
    rw [h] at this
    cases this
  next => rfl

namespace Catalog

variable (publicId : ModelId)

/-- The binding of a source's target never fails to be valid. -/
def bindingOf (source : SourceId) : TargetBindingId := ⟨publicId, ⟨source.asStr, source.validNamed⟩⟩

theorem TargetBindingId.new_eq (src : SourceId) :
    TargetBindingId.new publicId.asStr src.asStr = .ok (bindingOf publicId src) := by
  have htgt : Ident.new .target src.asStr = .ok (⟨src.asStr, src.validNamed⟩ : TargetId) :=
    Ident.new_valid (⟨src.asStr, src.validNamed⟩ : TargetId)
  rw [TargetBindingId.new, Ident.new_valid, htgt]
  rfl

def targetRule : GroupRule Candidate CatalogTarget TargetIdentity where
  key := Candidate.identity
  label := CatalogTarget.identity
  start := fun c => c.target publicId (bindingOf publicId c.provenance.source)
  join := CatalogTarget.join
  label_start := fun _ => rfl
  label_join := by
    intro target candidate
    unfold CatalogTarget.join
    dsimp only
    split_ifs <;> rfl

/-- What a target says of the candidates it was made of, in no order. -/
structure Sums (publicId : ModelId) (members : List Candidate) (target : CatalogTarget) : Prop where
  capabilities : ∀ capability, target.capabilities.contains capability = true ↔
    ∀ c ∈ members, c.capabilities.contains capability = true
  forceMapping : target.forceMapping = true ↔ ∃ c ∈ members, c.forceMapping = true
  reaches : ∃ c ∈ members, target.priority = c.priority
  best : ∀ c ∈ members, target.priority ≤ c.priority
  provenance : target.provenance.Perm (members.map (·.provenance))
  upstream : ∃ c ∈ members, target.upstreamModel = c.upstreamModel
  binding : ∃ c ∈ members, target.binding.bindingId = (bindingOf publicId c.provenance.source).toString

variable {publicId : ModelId} {members : List Candidate} {target : CatalogTarget}

theorem Sums.start (c : Candidate) : Sums publicId [c] ((targetRule publicId).start c) where
  capabilities := by
    intro capability
    rw [forall_mem_singleton]
    exact Iff.rfl
  forceMapping := by
    simp only [mem_singleton, exists_eq_left]
    exact Iff.rfl
  reaches := ⟨c, mem_cons_self, rfl⟩
  best := forall_mem_singleton.2 (Nat.le_refl _)
  provenance := Perm.refl _
  upstream := ⟨c, mem_cons_self, rfl⟩
  binding := ⟨c, mem_cons_self, rfl⟩

theorem CatalogTarget.join_priority (target : CatalogTarget) (c : Candidate) :
    (target.join c).priority = min c.priority target.priority := by
  unfold CatalogTarget.join
  dsimp only
  split_ifs with h
  · exact (min_eq_left h.le).symm
  · exact (min_eq_right (not_lt.1 h)).symm

theorem CatalogTarget.join_rest (target : CatalogTarget) (c : Candidate) :
    (target.join c).capabilities = target.capabilities.intersection c.capabilities ∧
      (target.join c).forceMapping = (target.forceMapping || c.forceMapping) ∧
      (target.join c).provenance = target.provenance ++ [c.provenance] ∧
      (target.join c).upstreamModel = target.upstreamModel ∧
      (target.join c).binding.bindingId = target.binding.bindingId := by
  unfold CatalogTarget.join
  dsimp only
  split_ifs
  · exact ⟨rfl, rfl, rfl, rfl, rfl⟩
  · exact ⟨rfl, rfl, rfl, rfl, rfl⟩

theorem Sums.join (h : Sums publicId members target) (c : Candidate) :
    Sums publicId (members ++ [c]) (target.join c) := by
  obtain ⟨hcaps, hfor, hprov, hups, hbind⟩ := target.join_rest c
  refine ⟨fun capability => ?_, ?_, ?_, fun d hd => ?_, ?_, ?_, ?_⟩
  · rw [hcaps, CapabilitySet.contains_intersection, Bool.and_eq_true, h.capabilities capability,
      forall_mem_append, forall_mem_singleton]
  · rw [hfor, Bool.or_eq_true, h.forceMapping]
    simp only [mem_append, mem_singleton, or_and_right, exists_or, exists_eq_left]
  · rw [CatalogTarget.join_priority]
    obtain ⟨d, hd, hprio⟩ := h.reaches
    obtain hmin | hmin := min_choice c.priority target.priority
    · exact ⟨c, mem_append_right _ mem_cons_self, hmin⟩
    · exact ⟨d, mem_append_left _ hd, hmin.trans hprio⟩
  · rw [CatalogTarget.join_priority]
    obtain hd | hd := mem_append.1 hd
    · exact (min_le_right _ _).trans (h.best d hd)
    · obtain rfl := mem_singleton.1 hd
      exact min_le_left _ _
  · rw [hprov, map_append]
    exact h.provenance.append_right _
  · obtain ⟨d, hd, hs⟩ := h.upstream
    exact ⟨d, mem_append_left _ hd, hups.trans hs⟩
  · obtain ⟨d, hd, hs⟩ := h.binding
    exact ⟨d, mem_append_left _ hd, hbind.trans hs⟩

theorem Sums.of_fold (h : (targetRule publicId).fold members = some target) : Sums publicId members target := by
  cases members with
  | nil => cases h
  | cons c rest =>
    obtain rfl := Option.some.inj h
    induction rest using List.reverseRecOn with
    | nil => exact Sums.start c
    | append_singleton rest d ih =>
      rw [foldl_append]
      exact (ih rfl).join d

theorem Sums.perm {members'} (h : Sums publicId members target) (hp : members.Perm members') :
    Sums publicId members' target := by
  refine ⟨fun capability => ?_, ?_, ?_, fun c hc => h.best c (hp.mem_iff.2 hc),
    h.provenance.trans (hp.map _), ?_, ?_⟩
  · simp [h.capabilities capability, hp.mem_iff]
  · simp [h.forceMapping, hp.mem_iff]
  · simpa [hp.mem_iff] using h.reaches
  · simpa [hp.mem_iff] using h.upstream
  · simpa [hp.mem_iff] using h.binding

def Mapped (passed : List Candidate) (mappings : OrderedMap TargetIdentity (ModelId × SourceId)) : Prop :=
  ∀ c ∈ passed, ∃ source, mappings.get c.identity = some (c.upstreamModel, source)

variable {targets : List CatalogTarget}

section Mappings

variable {passed passed' : List Candidate} {mappings mappings' : OrderedMap TargetIdentity (ModelId × SourceId)}
  {c d : Candidate}

theorem Mapped.unique (h : Mapped passed mappings) (hc : c ∈ passed) (hd : d ∈ passed)
    (hiden : c.identity = d.identity) : c.upstreamModel = d.upstreamModel := by
  obtain ⟨src, hg⟩ := h c hc
  obtain ⟨src', hg'⟩ := h d hd
  rw [hiden, hg'] at hg
  exact (Prod.mk.inj (Option.some.inj hg)).1.symm

theorem Mapped.upstream_eq (h : Mapped passed' mappings)
    (hgroups : (targetRule publicId).Groups passed targets) (hpass : ∀ c ∈ passed, c ∈ passed')
    (htgt : target ∈ targets) (hc : c ∈ passed') (hiden : target.identity = c.identity) :
    c.upstreamModel = target.upstreamModel := by
  obtain ⟨d, hd, hups⟩ := (Sums.of_fold (hgroups.fold target htgt)).upstream
  obtain ⟨hd, hlab⟩ := mem_filter.1 hd
  have hlab : d.identity = target.identity := of_decide_eq_true hlab
  rw [hups]
  exact h.unique hc (hpass d hd) (hiden.symm.trans hlab.symm)

theorem checkMapping_mapped (h : checkMapping publicId mappings c = .ok mappings') (hmapp : Mapped passed mappings) :
    Mapped (passed ++ [c]) mappings' := by
  unfold checkMapping at h
  split at h
  next src hg =>
    split_ifs at h with hs
    obtain rfl := ok.inj h
    rw [not_not] at hs
    subst hs
    exact forall_mem_append.2 ⟨hmapp, forall_mem_singleton.2 ⟨src, hg⟩⟩
  next hg =>
    obtain rfl := ok.inj h
    refine forall_mem_append.2 ⟨fun d hd => ?_, forall_mem_singleton.2 ⟨_, get_insert_self _ _ _⟩⟩
    obtain ⟨src, hent⟩ := hmapp d hd
    refine ⟨src, ?_⟩
    rw [get_insert, if_neg, hent]
    intro hiden
    rw [← hiden, hg] at hent
    cases hent

end Mappings

/-- The loop of `compile_public_model` in front of the next candidate. -/
structure Compiling (publicId : ModelId) (passed : List Candidate) (state : CompileState) : Prop where
  groups : (targetRule publicId).Groups passed state.targets
  mapped : Mapped passed state.providerMappings

theorem Compiling.start : Compiling publicId [] ⟨[], .empty⟩ := ⟨.nil, fun _ h => absurd h not_mem_nil⟩

def sameTarget (c : Candidate) (target : CatalogTarget) : Bool :=
  target.identity = c.identity && target.upstreamModel = c.upstreamModel

theorem compileCandidate_eq_ok {state state' c} (h : compileCandidate publicId state c = .ok state') :
    checkMapping publicId state.providerMappings c = .ok state'.providerMappings ∧
      state'.targets = joinOrStart (sameTarget c) (·.join c) ((targetRule publicId).start c) state.targets := by
  obtain ⟨mappings, hmap, h⟩ := bind_eq_ok.1 h
  dsimp only at h
  rw [joinOrStart]
  split_ifs at h with hany
  · obtain rfl := ok.inj h
    exact ⟨hmap, (if_pos hany).symm⟩
  · rw [TargetBindingId.new_eq] at h
    obtain rfl := ok.inj h
    exact ⟨hmap, (if_neg hany).symm⟩

theorem Compiling.step {passed state state' c}
    (h : Compiling publicId passed state) (hstep : compileCandidate publicId state c = .ok state') :
    Compiling publicId (passed ++ [c]) state' := by
  obtain ⟨hmap, htar⟩ := compileCandidate_eq_ok hstep
  have hmapp := checkMapping_mapped hmap h.mapped
  -- the check has passed, so a target of the identity has the upstream model too
  have hs : ∀ t ∈ state.targets, sameTarget c t = decide (t.identity = c.identity) := by
    intro t ht
    by_cases hiden : t.identity = c.identity
    · have := hmapp.upstream_eq h.groups (fun d hd => mem_append_left _ hd) ht
        (mem_append_right _ mem_cons_self) hiden
      simp [sameTarget, hiden, this]
    · simp [sameTarget, hiden]
  refine ⟨?_, hmapp⟩
  rw [htar, joinOrStart_congr hs]
  exact h.groups.step c

structure Compiled (publicId : ModelId) (cs : List Candidate) (targets : List CatalogTarget) : Prop where
  identities : (targets.map (·.identity)).Nodup
  covers : ∀ c ∈ cs, ∃ target ∈ targets, target.identity = c.identity
  sums : ∀ target ∈ targets, Sums publicId (cs.filter fun c => c.identity = target.identity) target
  upstream : ∀ target ∈ targets, ∀ c ∈ cs, c.identity = target.identity → c.upstreamModel = target.upstreamModel

variable {cs : List Candidate}

theorem Compiling.compiled {state} (h : Compiling publicId cs state) : Compiled publicId cs state.targets where
  identities := h.groups.distinct
  covers := h.groups.covers
  sums := fun target htgt => Sums.of_fold (h.groups.fold target htgt)
  upstream := fun _ htgt _ hc hiden => h.mapped.upstream_eq h.groups (fun _ hd => hd) htgt hc hiden.symm

theorem Compiled.perm_candidates {cs cs'}
    (h : Compiled publicId cs targets) (hp : cs.Perm cs') : Compiled publicId cs' targets where
  identities := h.identities
  covers := fun c hc => h.covers c (hp.mem_iff.2 hc)
  sums := fun target htgt => (h.sums target htgt).perm (hp.filter _)
  upstream := fun target htgt c hc => h.upstream target htgt c (hp.mem_iff.2 hc)

theorem Compiled.perm_targets {targets targets'}
    (h : Compiled publicId cs targets) (hp : targets.Perm targets') : Compiled publicId cs targets' where
  identities := (hp.map _).nodup_iff.1 h.identities
  covers := by
    intro c hc
    obtain ⟨target, htgt, hiden⟩ := h.covers c hc
    exact ⟨target, hp.mem_iff.1 htgt, hiden⟩
  sums := fun target htgt => h.sums target (hp.mem_iff.2 htgt)
  upstream := fun target htgt => h.upstream target (hp.mem_iff.2 htgt)

theorem Compiled.map_targets {f}
    (h : Compiled publicId cs targets) (hiden : ∀ target, (f target).identity = target.identity)
    (hups : ∀ target, (f target).upstreamModel = target.upstreamModel)
    (hsums : ∀ target members, Sums publicId members target → Sums publicId members (f target)) :
    Compiled publicId cs (targets.map f) where
  identities := by
    rw [map_map, show CatalogTarget.identity ∘ f = CatalogTarget.identity from funext hiden]
    exact h.identities
  covers := by
    intro c hc
    obtain ⟨target, htgt, hs⟩ := h.covers c hc
    exact ⟨f target, mem_map_of_mem htgt, (hiden target).trans hs⟩
  sums := by
    rw [forall_mem_map]
    intro target htgt
    rw [hiden]
    exact hsums target _ (h.sums target htgt)
  upstream := by
    rw [forall_mem_map]
    intro target htgt c hc hs
    rw [hiden] at hs
    rw [hups]
    exact h.upstream target htgt c hc hs

theorem compilePublicModel_eq_ok {model}
    (h : compilePublicModel publicId cs = .ok model) : Compiled publicId cs model.targets := by
  obtain ⟨state, hstate, h⟩ := bind_eq_ok.1 h
  obtain rfl := ok.inj h
  have hcom := foldlM_ok_all (Compiling publicId)
    (fun passed state c state' hpass hstep => hpass.step hstep) Compiling.start hstate
  have hcomp := hcom.compiled.perm_candidates (perm_sortBy candidateOrder cs)
  have hsort : Compiled publicId cs (state.targets.map CatalogTarget.sortProvenance) := by
    refine hcomp.map_targets (fun _ => rfl) (fun _ => rfl) fun target members hsums => ?_
    exact ⟨hsums.capabilities, hsums.forceMapping, hsums.reaches, hsums.best,
      (perm_sortBy provenanceOrder _).trans hsums.provenance, hsums.upstream, hsums.binding⟩
  exact hsort.perm_targets (perm_sortBy targetOrder _).symm

structure CompiledAll (entries : List (ModelId × List Candidate)) (models : OrderedMap ModelId CatalogModel) :
    Prop where
  present : ∀ id cs, (id, cs) ∈ entries → ∃ model, models.get id = some model ∧ Compiled id cs model.targets
  only : ∀ id model, models.get id = some model → ∃ cs, (id, cs) ∈ entries

theorem compileModels_eq_ok {cands models}
    (h : compileModels cands = .ok models) : CompiledAll cands.entries models := by
  refine foldlM_ok_all (fun passed models => (passed.map Prod.fst).Nodup → CompiledAll passed models)
    (fun passed models entry models' hpass hstep hkeys => ?_) (fun _ => ?_) h cands.nodup_keys
  swap
  · exact ⟨fun _ _ h => absurd h not_mem_nil, fun _ _ h => absurd (h.symm.trans (get_empty _)) nofun⟩
  obtain ⟨model, hmod, hstep⟩ := bind_eq_ok.1 hstep
  obtain rfl := ok.inj hstep
  rw [map_append, nodup_append] at hkeys
  obtain ⟨hkeys, -, hlast⟩ := hkeys
  obtain ⟨hpres, honly⟩ := hpass hkeys
  refine ⟨fun id cs hm => ?_, fun id other hg => ?_⟩
  · obtain hm | hm := mem_append.1 hm
    · have hne : id ≠ entry.1 := hlast id (mem_map_of_mem hm) entry.1 mem_cons_self
      obtain ⟨other, hg, hcomp⟩ := hpres id cs hm
      exact ⟨other, by rw [get_insert, if_neg hne.symm, hg], hcomp⟩
    · obtain rfl := mem_singleton.1 hm
      exact ⟨model, get_insert_self _ _ _, compilePublicModel_eq_ok hmod⟩
  · rw [get_insert] at hg
    split_ifs at hg with hid
    · exact ⟨entry.2, mem_append_right _ (mem_singleton.2 (Prod.ext hid.symm rfl))⟩
    · obtain ⟨cs, hcs⟩ := honly id other hg
      exact ⟨cs, mem_append_left _ hcs⟩

variable (overrides : ModelOverrides)

def ModelOverrides.overridden (id : ModelId) (model : CatalogModel) : CatalogModel :=
  match overrides.entries.get id with
  | none => model
  | some o => o.apply model

theorem ModelOverrides.retained_applyOne (applied : Applied)
    (entry : ModelId × CatalogModel) : (overrides.applyOne applied entry).retained =
      applied.retained.insert entry.1 (overrides.overridden entry.1 entry.2) := by
  cases h : overrides.entries.get entry.1 with
  | none | some => simp [applyOne, overridden, h]

theorem ModelOverrides.retained_foldl (entries : List (ModelId × CatalogModel)) :
    ∀ applied, (entries.foldl overrides.applyOne applied).retained =
      entries.foldl (fun models entry => models.insert entry.1 (overrides.overridden entry.1 entry.2))
        applied.retained := by
  induction entries with
  | nil => intro applied; rfl
  | cons entry entries ih =>
    intro applied
    rw [foldl_cons, foldl_cons, ih, retained_applyOne]

theorem ModelOverrides.get_applyAll (models : OrderedMap ModelId CatalogModel)
    (id : ModelId) (model : CatalogModel) : (overrides.applyAll models).1.get id = some model ↔
      ∃ merged, models.get id = some merged ∧ overrides.overridden id merged = model := by
  unfold applyAll
  split_ifs with hsize
  · have hn : overrides.entries.get id = none := by
      rw [eq_empty (length_eq_zero_iff.1 hsize)]
      rfl
    simp [overridden, hn]
  · dsimp only
    rw [retained_foldl]
    rw [get_foldl_insert models.nodup_keys]
    simp [mem_entries]

end Catalog

end Pooler
