import Pooler.Sanity.Catalog
import Pooler.Sanity.CatalogTargets

/-! Catalog merging meets an order-free specification. -/

namespace Pooler.Catalog

open Lib List ModelOverrides OrderedMap

/-- Inputs that differ in the order of the discovered models only. -/
structure SameInput (a b : CatalogInput) : Prop where
  source : a.source = b.source
  revision : a.response.revision = b.response.revision
  models : a.response.models.Perm b.response.models

/-- The inputs in another order, with the models of each response in another order. -/
def Reordered (inputs inputs' : List CatalogInput) : Prop :=
  ∃ middle, inputs.Perm middle ∧ List.Forall₂ SameInput middle inputs'

theorem pairwise_of_firstRepeated {models} (h : firstRepeated models = none)
    (hsor : models.Pairwise fun a b => a.id ≤ b.id) : models.Pairwise fun a b => a.id < b.id := by
  induction models with
  | nil => exact .nil
  | cons first rest ih =>
    obtain ⟨hfst, hr⟩ := pairwise_cons.1 hsor
    cases rest with
    | nil => exact pairwise_singleton _ _
    | cons second =>
      rw [firstRepeated] at h
      split_ifs at h with hne
      have ih := ih h hr
      refine pairwise_cons.2 ⟨fun model hmod => ?_, ih⟩
      have hsec : first.id < second.id := lt_of_le_of_ne (hfst second mem_cons_self) hne
      obtain rfl | hmod := mem_cons.1 hmod
      · exact hsec
      · exact hsec.trans ((pairwise_cons.1 ih).1 model hmod)

/-- The order of the models in a response does not matter where no id is repeated. -/
theorem sortBy_models_eq {models models'} (hp : models.Perm models')
    (h : firstRepeated (sortBy DiscoveredModel.id models) = none) :
    sortBy DiscoveredModel.id models = sortBy DiscoveredModel.id models' := by
  have hlt := pairwise_of_firstRepeated h (pairwise_sortBy _ _)
  refine sortBy_eq_of_perm hp fun a ha b hb hab => ?_
  exact inj_on_of_nodup_map (pairwise_map.2 (hlt.imp ne_of_lt)) (mem_sortBy.2 ha) (mem_sortBy.2 hb) hab

theorem mergeInput_repeated {input model}
    (h : firstRepeated (sortBy DiscoveredModel.id input.response.models) = some model) (tiers : OrderedMap ℤ ℕ)
    (refreshedAtUnixMs : ℕ) (state : MergeState) :
    (mergeInput tiers refreshedAtUnixMs state input).toOption = none := by
  cases hmrg : mergeInput tiers refreshedAtUnixMs state input with
  | error => rfl
  | ok =>
    obtain ⟨_, -, hmrg⟩ := bind_eq_ok.1 hmrg
    obtain ⟨_, hchk, -⟩ := bind_eq_ok.1 hmrg
    rw [checkRepeated, h] at hchk
    cases hchk

theorem mergeInput_congr {a b} (h : SameInput a b) (tiers : OrderedMap ℤ ℕ) (refreshedAtUnixMs : ℕ)
    (state : MergeState) : (mergeInput tiers refreshedAtUnixMs state a).toOption =
      (mergeInput tiers refreshedAtUnixMs state b).toOption := by
  by_cases hsort : sortBy DiscoveredModel.id a.response.models = sortBy DiscoveredModel.id b.response.models
  · unfold mergeInput
    rw [h.source, h.revision, hsort]
  · -- both responses repeat an id
    cases ha : firstRepeated (sortBy DiscoveredModel.id a.response.models) with
    | none => exact absurd (sortBy_models_eq h.models ha) hsort
    | some =>
      cases hb : firstRepeated (sortBy DiscoveredModel.id b.response.models) with
      | none => exact absurd (sortBy_models_eq h.models.symm hb).symm hsort
      | some => rw [mergeInput_repeated ha, mergeInput_repeated hb]

variable {inputs inputs' : List CatalogInput}

theorem priorityTiers_congr (h : List.Forall₂ SameInput inputs inputs') :
    priorityTiers inputs = priorityTiers inputs' := by
  have : inputs.map (fun input => OrderDual.toDual input.source.priority) =
      inputs'.map fun input => OrderDual.toDual input.source.priority := by
    induction h with
    | nil => rfl
    | cons hab _ ih => rw [map_cons, map_cons, hab.source, ih]
  rw [priorityTiers, priorityTiers, this]

theorem mergeSorted_congr (h : List.Forall₂ SameInput inputs inputs')
    (gen refreshedAtUnixMs : ℕ) (limits : RefreshLimits) (overrides : ModelOverrides) :
    (mergeSorted gen refreshedAtUnixMs inputs limits overrides).toOption =
      (mergeSorted gen refreshedAtUnixMs inputs' limits overrides).toOption := by
  unfold mergeSorted
  dsimp only
  rw [priorityTiers_congr h]
  refine toOption_bind_congr (toOption_foldlM_congr (fun work a b hab => ?_) h _) fun _ => ?_
  · rw [checkInput, checkInput, hab.source, hab.models.length_eq]
  · refine toOption_bind_congr (toOption_foldlM_congr (fun state a b hab => ?_) h _) fun _ => rfl
    exact mergeInput_congr hab _ _ state

theorem merge_congr (hids : (inputs.map (·.source.id)).Nodup)
    (h : Reordered inputs inputs') (gen refreshedAtUnixMs : ℕ) (limits : RefreshLimits)
    (overrides : ModelOverrides) :
    (mergeDiscoveries gen refreshedAtUnixMs inputs limits overrides).toOption =
      (mergeDiscoveries gen refreshedAtUnixMs inputs' limits overrides).toOption := by
  obtain ⟨middle, hp, hs⟩ := h
  have hsor : sortBy (fun input => sourceOrder input.source) inputs =
      sortBy (fun input => sourceOrder input.source) middle := by
    refine sortBy_eq_of_perm hp fun a ha b hb hab => ?_
    exact inj_on_of_nodup_map hids ha hb (Prod.mk.inj hab).2
  have hmodels : List.Forall₂ SameInput (sortBy (fun input => sourceOrder input.source) middle)
      (sortBy (fun input => sourceOrder input.source) inputs') :=
    forall₂_sortBy (fun a b hab => congrArg sourceOrder hab.source) hs
  unfold mergeDiscoveries
  rw [hp.length_eq.trans hs.length_eq, hsor]
  split_ifs
  · rfl
  · exact mergeSorted_congr hmodels _ _ _ _

section Described

variable {inputs : List CatalogInput} {observedAtUnixMs : ℕ} {overrides : ModelOverrides} {id : ModelId}

/-- The exposures of a target, as they were pushed. -/
def pushedFor (inputs : List CatalogInput) (id : ModelId) (identity : TargetIdentity) : List Exposure :=
  (inputs.flatMap CatalogInput.pushed).filter fun e => e.publicName = id.asStr ∧ e.identity = identity

theorem coe_pushedFor (inputs : List CatalogInput) (id : ModelId) (identity : TargetIdentity) :
    (pushedFor inputs id identity : Multiset Exposure) = contributing inputs id identity := by
  rw [contributing, ← coe_pushed, Multiset.filter_coe]
  rfl

variable {identity : TargetIdentity} {e : Exposure}

def candidatesFor (inputs : List CatalogInput) (observedAtUnixMs : ℕ) (id : ModelId) : List Candidate :=
  ((inputs.flatMap CatalogInput.pushed).filter fun e => e.publicName = id.asStr).map
    (·.candidate observedAtUnixMs (tierIn (priorityTiers inputs)))

theorem filter_candidatesFor (inputs : List CatalogInput) (observedAtUnixMs : ℕ) (id : ModelId)
    (identity : TargetIdentity) :
    ((candidatesFor inputs observedAtUnixMs id).filter fun c => c.identity = identity) =
      (pushedFor inputs id identity).map (·.candidate observedAtUnixMs (tierIn (priorityTiers inputs))) := by
  rw [candidatesFor, filter_map, filter_filter, pushedFor]
  congr 2
  funext e
  rw [Bool.decide_and, Bool.and_comm]
  rfl

theorem source_of_contributing (h : e ∈ contributing inputs id identity) :
    ∃ input ∈ inputs, e.source = input.source := by
  obtain ⟨input, hinp, model, -, he⟩ := mem_exposures.1 (Multiset.mem_filter.1 h).1
  exact ⟨input, hinp, source_of_mem_exposuresOf he⟩

theorem tierIn_of_contributing (h : e ∈ contributing inputs id identity) :
    tierIn (priorityTiers inputs) e.source.priority = tier inputs e.source.priority := by
  obtain ⟨input, hinp, hsrc⟩ := source_of_contributing h
  exact tierIn_priorityTiers ⟨input, hinp, by rw [hsrc]⟩

/-- A target with the sums of its candidates, whose capabilities are overridden where they are. -/
theorem standsFor_of_sums {target merged}
    (hsums : Sums id ((candidatesFor inputs observedAtUnixMs id).filter fun c => c.identity = merged.identity) merged)
    (hups : ∀ c ∈ candidatesFor inputs observedAtUnixMs id, c.identity = merged.identity →
      c.upstreamModel = merged.upstreamModel)
    (hkept : target = { merged with
      capabilities := target.capabilities, dialect := target.dialect, profile := target.profile })
    (hcaps : target.capabilities = ((overrides.entries.get id).bind (·.capabilities)).getD merged.capabilities) :
    StandsFor inputs observedAtUnixMs overrides id target := by
  have hiden : target.identity = merged.identity := by rw [hkept]; rfl
  have hs : target.upstreamModel = merged.upstreamModel ∧ target.priority = merged.priority ∧
      target.forceMapping = merged.forceMapping ∧ target.provenance = merged.provenance := by
    rw [hkept]
    exact ⟨rfl, rfl, rfl, rfl⟩
  obtain ⟨hupstreamModel, hprio, hforceMapping, hprov⟩ := hs
  rw [filter_candidatesFor] at hsums
  have hmems : ∀ e, e ∈ contributing inputs id target.identity ↔ e ∈ pushedFor inputs id merged.identity := by
    intro e
    rw [hiden, ← coe_pushedFor, Multiset.mem_coe]
  have htier : ∀ e ∈ pushedFor inputs id merged.identity,
      tierIn (priorityTiers inputs) e.source.priority = tier inputs e.source.priority := fun e he =>
    tierIn_of_contributing ((hmems e).2 he)
  refine ⟨?_, fun e he => ?_, fun hdec capability => ?_, fun capabilities hdec => ?_, ?_, fun e he => ?_, ?_, ?_⟩
  · obtain ⟨c, hc, -⟩ := hsums.reaches
    obtain ⟨e, he, -⟩ := mem_map.1 hc
    exact fun hzero => absurd ((hmems e).2 he) (by rw [hzero]; exact Multiset.notMem_zero e)
  · obtain ⟨hpus, hboth⟩ := mem_filter.1 ((hmems e).1 he)
    obtain ⟨hname, hlab⟩ := of_decide_eq_true hboth
    rw [hupstreamModel]
    exact hups _ (mem_map_of_mem (mem_filter.2 ⟨hpus, decide_eq_true hname⟩)) hlab
  · rw [hcaps, hdec, Option.getD_none, hsums.capabilities, forall_mem_map]
    exact forall_congr' fun e => imp_congr_left (hmems e).symm
  · rw [hcaps, hdec, Option.getD_some]
  · obtain ⟨c, hc, hreac⟩ := hsums.reaches
    obtain ⟨e, he, rfl⟩ := mem_map.1 hc
    exact ⟨e, (hmems e).2 he, hprio.trans (hreac.trans (htier e he))⟩
  · have he := (hmems e).1 he
    rw [hprio, ← htier e he]
    exact hsums.best _ (mem_map_of_mem he)
  · rw [hforceMapping, hsums.forceMapping]
    constructor
    · rintro ⟨c, hc, hfor⟩
      obtain ⟨e, he, rfl⟩ := mem_map.1 hc
      exact ⟨e, (hmems e).2 he, hfor⟩
    · rintro ⟨e, he, hfor⟩
      exact ⟨_, mem_map_of_mem ((hmems e).1 he), hfor⟩
  · rw [hprov, Multiset.coe_eq_coe.2 hsums.provenance, hiden, ← coe_pushedFor, Multiset.map_coe,
      map_map]
    refine congrArg _ (map_congr_left fun e he => ?_)
    exact congrArg (fun priorityTier => e.provenance observedAtUnixMs priorityTier) (htier e he)

theorem ModelOverride.applyTarget_eq (o : ModelOverride) (target : CatalogTarget) :
    o.applyTarget target = { target with
      capabilities := (o.applyTarget target).capabilities
      dialect := (o.applyTarget target).dialect
      profile := (o.applyTarget target).profile } ∧
    (o.applyTarget target).capabilities = o.capabilities.getD target.capabilities := by
  obtain ⟨disabled, displayName, capabilities, profile, dialect, overlay⟩ := o
  cases profile <;> cases capabilities <;> cases dialect <;> exact ⟨rfl, rfl⟩

def ModelOverrides.overriddenTarget (overrides : ModelOverrides) (id : ModelId) (target : CatalogTarget) :
    CatalogTarget :=
  match overrides.entries.get id with
  | none => target
  | some o => o.applyTarget target

theorem ModelOverrides.targets_overridden (overrides : ModelOverrides) (id : ModelId) (model : CatalogModel) :
    (overrides.overridden id model).targets = model.targets.map (overrides.overriddenTarget id) := by
  cases h : overrides.entries.get id with
  | none =>
    simp only [overridden, h]
    exact (map_id'' (fun target => by simp [overriddenTarget, h]) _).symm
  | some =>
    simp only [overridden, h, ModelOverride.apply]
    refine map_congr_left fun target _ => ?_
    simp [overriddenTarget, h]

theorem ModelOverrides.overriddenTarget_eq (overrides : ModelOverrides) (id : ModelId) (target : CatalogTarget) :
    overrides.overriddenTarget id target = { target with
      capabilities := (overrides.overriddenTarget id target).capabilities
      dialect := (overrides.overriddenTarget id target).dialect
      profile := (overrides.overriddenTarget id target).profile } ∧
    (overrides.overriddenTarget id target).capabilities =
      ((overrides.entries.get id).bind (·.capabilities)).getD target.capabilities := by
  unfold overriddenTarget
  cases h : overrides.entries.get id with
  | none => exact ⟨rfl, rfl⟩
  | some o => exact o.applyTarget_eq target

theorem ModelOverrides.overriddenTarget_kept (overrides : ModelOverrides) (id : ModelId) (target : CatalogTarget) :
    (overrides.overriddenTarget id target).identity = target.identity ∧
      (overrides.overriddenTarget id target).binding.bindingId = target.binding.bindingId := by
  rw [(overrides.overriddenTarget_eq id target).1]
  exact ⟨rfl, rfl⟩

/-- What a merge that succeeds has computed. -/
structure Merged (inputs : List CatalogInput) (overrides : ModelOverrides) (snapshot : CatalogSnapshot) : Prop where
  model : ∀ id model, snapshot.models.get id = some model →
    candidatesFor inputs snapshot.refreshedAtUnixMs id ≠ [] ∧
      ∃ merged : CatalogModel, Compiled id (candidatesFor inputs snapshot.refreshedAtUnixMs id) merged.targets ∧
        overrides.overridden id merged = model
  present : ∀ id, candidatesFor inputs snapshot.refreshedAtUnixMs id ≠ [] → ∃ model, snapshot.models.get id = some model
  named : ∀ e ∈ exposures inputs, ∃ id : ModelId, id.asStr = e.publicName

variable {snapshot : CatalogSnapshot} {limits : RefreshLimits}

theorem mergeSorted_eq_ok {gen refreshedAtUnixMs : ℕ}
    (h : mergeSorted gen refreshedAtUnixMs inputs limits overrides = .ok snapshot) :
    Merged inputs overrides snapshot := by
  obtain ⟨_, -, h⟩ := bind_eq_ok.1 h
  obtain ⟨merged, hmgd, h⟩ := bind_eq_ok.1 h
  obtain ⟨models, hmodels, h⟩ := bind_eq_ok.1 h
  obtain rfl := Except.ok.inj h
  have hgat := gathered_inputs hmgd
  have hcomp := compileModels_eq_ok hmodels
  have hg : ∀ id, merged.candidates.get id = listed (candidatesFor inputs refreshedAtUnixMs id) := hgat.get
  refine ⟨fun id model hmod => ?_, fun id hne => ?_, fun e he => ?_⟩
  · obtain ⟨raw, hraw, hover⟩ := (overrides.get_applyAll models id model).1 hmod
    obtain ⟨cs, hcs⟩ := hcomp.only id raw hraw
    obtain ⟨raw', hraw', htar⟩ := hcomp.present id cs hcs
    cases hraw.symm.trans hraw'
    have hlis := (hg id).symm.trans (mem_entries.1 hcs)
    obtain ⟨hne, rfl⟩ : candidatesFor inputs refreshedAtUnixMs id ≠ [] ∧
        candidatesFor inputs refreshedAtUnixMs id = cs := listed_eq_some.1 hlis
    exact ⟨hne, raw, htar, hover⟩
  · have hlis : merged.candidates.get id = some (candidatesFor inputs refreshedAtUnixMs id) :=
      (hg id).trans (listed_eq_some.2 ⟨hne, rfl⟩)
    obtain ⟨raw, hraw, -⟩ := hcomp.present id _ (mem_entries.2 hlis)
    exact ⟨_, (overrides.get_applyAll models id _).2 ⟨raw, hraw, rfl⟩⟩
  · rw [← coe_pushed, Multiset.mem_coe] at he
    exact hgat.named e he

theorem mergeSorted_refreshedAt {gen refreshedAtUnixMs : ℕ}
    (h : mergeSorted gen refreshedAtUnixMs inputs limits overrides = .ok snapshot) :
    snapshot.refreshedAtUnixMs = refreshedAtUnixMs := by
  obtain ⟨_, -, h⟩ := bind_eq_ok.1 h
  obtain ⟨_, -, h⟩ := bind_eq_ok.1 h
  obtain ⟨_, -, h⟩ := bind_eq_ok.1 h
  obtain rfl := Except.ok.inj h
  rfl

theorem mem_candidatesFor {c} : c ∈ candidatesFor inputs observedAtUnixMs id ↔
    ∃ e ∈ exposures inputs, e.publicName = id.asStr ∧
      e.candidate observedAtUnixMs (tierIn (priorityTiers inputs)) = c := by
  rw [candidatesFor, mem_map]
  refine exists_congr fun e => ?_
  rw [mem_filter, ← coe_pushed, Multiset.mem_coe, decide_eq_true_iff, and_assoc]

theorem bindingOf_inj {a b} (h : (bindingOf id a).toString = (bindingOf id b).toString) : a = b := by
  have := congrArg String.toList h
  simp only [TargetBindingId.toString, bindingOf, String.toList_append, append_cancel_left_eq] at this
  exact SourceId.ext (String.toList_injective this)

/-- A source binds one provider, account and pool, so the binding id tells the target. -/
theorem Compiled.identity_of_binding (hids : (inputs.map (·.source.id)).Nodup) {targets}
    (h : Compiled id (candidatesFor inputs observedAtUnixMs id) targets) {a b} (ha : a ∈ targets)
    (hb : b ∈ targets) (hbind : a.binding.bindingId = b.binding.bindingId) : a.identity = b.identity := by
  have hsrc : ∀ target ∈ targets, ∃ input ∈ inputs,
      target.binding.bindingId = (bindingOf id input.source.id).toString ∧
        target.identity = ⟨input.source.provider, input.source.account, input.source.accountPool⟩ := by
    intro target htgt
    obtain ⟨c, hc, hbind⟩ := (h.sums target htgt).binding
    obtain ⟨hc, hiden⟩ := mem_filter.1 hc
    obtain ⟨e, he, -, rfl⟩ := mem_candidatesFor.1 hc
    obtain ⟨input, hinp, model, -, hexp⟩ := mem_exposures.1 he
    have hsrc := source_of_mem_exposuresOf hexp
    refine ⟨input, hinp, by rw [← hsrc]; exact hbind, ?_⟩
    rw [← hsrc]
    exact (of_decide_eq_true hiden).symm
  obtain ⟨inputA, hinputA, hbindingA, hidentityA⟩ := hsrc a ha
  obtain ⟨inputB, hinputB, hbindingB, hidentityB⟩ := hsrc b hb
  have hid := bindingOf_inj (hbindingA.symm.trans (hbind.trans hbindingB))
  rw [hidentityA, hidentityB, inj_on_of_nodup_map hids hinputA hinputB hid]

theorem Merged.describes (hids : (inputs.map (·.source.id)).Nodup)
    (h : Merged inputs overrides snapshot) : Describes inputs overrides snapshot where
  published := by
    intro e he
    obtain ⟨id, hid⟩ := h.named e he
    obtain ⟨model, hmod⟩ := h.present id (ne_nil_of_mem (mem_candidatesFor.2 ⟨e, he, hid.symm, rfl⟩))
    exact ⟨id, model, hid, hmod⟩
  exposed := by
    intro id model hmod
    obtain ⟨c, hc⟩ := exists_mem_of_ne_nil _ (h.model id model hmod).1
    obtain ⟨e, he, hname, -⟩ := mem_candidatesFor.1 hc
    exact ⟨e, he, hname⟩
  covered := by
    intro id model hmod e he hname
    obtain ⟨-, merged, hcomp, rfl⟩ := h.model id model hmod
    obtain ⟨target, htgt, hiden⟩ := hcomp.covers _ (mem_candidatesFor.2 ⟨e, he, hname, rfl⟩)
    refine ⟨overrides.overriddenTarget id target, ?_, ?_⟩
    · rw [targets_overridden]
      exact mem_map_of_mem htgt
    · exact (overrides.overriddenTarget_kept id target).1.trans hiden
  identities := by
    intro id model hmod
    obtain ⟨-, merged, hcomp, rfl⟩ := h.model id model hmod
    have hs : CatalogTarget.identity ∘ overrides.overriddenTarget id = CatalogTarget.identity :=
      funext fun target => (overrides.overriddenTarget_kept id target).1
    rw [targets_overridden, map_map, hs]
    exact hcomp.identities
  targets := by
    intro id model hmod target htgt
    obtain ⟨-, merged, hcomp, rfl⟩ := h.model id model hmod
    rw [targets_overridden] at htgt
    obtain ⟨raw, hraw, rfl⟩ := mem_map.1 htgt
    exact standsFor_of_sums (hcomp.sums raw hraw) (hcomp.upstream raw hraw)
      (overrides.overriddenTarget_eq id raw).1 (overrides.overriddenTarget_eq id raw).2
  bindings := by
    intro id model hmod
    obtain ⟨-, merged, hcomp, rfl⟩ := h.model id model hmod
    have hs : (fun target => target.binding.bindingId) ∘ overrides.overriddenTarget id =
        fun target => target.binding.bindingId :=
      funext fun target => (overrides.overriddenTarget_kept id target).2
    rw [targets_overridden, map_map, hs]
    refine List.Nodup.map_on (fun a ha b hb hbind => ?_) hcomp.identities.of_map
    exact inj_on_of_nodup_map hcomp.identities ha hb (hcomp.identity_of_binding hids ha hb hbind)

end Described

/-- A merge of inputs with distinct sources gives the same snapshot, or none, whatever the order of
the inputs and of the models in each response; and the models it publishes are the exposures of the
inputs. -/
theorem catalog_merge_is_order_free (generation refreshedAtUnixMs : ℕ) (inputs : List CatalogInput)
    (limits : RefreshLimits) (overrides : ModelOverrides) (hids : (inputs.map (·.source.id)).Nodup) :
    (∀ inputs', Reordered inputs inputs' →
      (mergeDiscoveries generation refreshedAtUnixMs inputs limits overrides).toOption =
        (mergeDiscoveries generation refreshedAtUnixMs inputs' limits overrides).toOption) ∧
    ∀ snapshot, mergeDiscoveries generation refreshedAtUnixMs inputs limits overrides = .ok snapshot →
      snapshot.refreshedAtUnixMs = refreshedAtUnixMs ∧ Describes inputs overrides snapshot := by
  refine ⟨fun inputs' h => merge_congr hids h _ _ _ _, fun snapshot h => ?_⟩
  have hp := perm_sortBy (fun input : CatalogInput => sourceOrder input.source) inputs
  unfold mergeDiscoveries at h
  split_ifs at h
  refine ⟨mergeSorted_refreshedAt h, ?_⟩
  rw [← Multiset.coe_eq_coe.2 hp]
  exact (mergeSorted_eq_ok h).describes ((hp.map _).nodup_iff.2 hids)

/-- A model that two sources of one provider report. -/
def sharedModel : DiscoveredModel :=
  { id := ⟨"m", by decide +kernel⟩, displayName := none, capabilities := .ofList [.text, .tools]
    dialect := ⟨.accepted⟩, profile := ⟨⟨.accepted⟩, .unknown, .unknown, .unknown, .unknown, .unknown⟩ }

/-- A source that exposes the model under a second name too. -/
def forkingSource : CatalogSource :=
  { id := ⟨"primary", by decide +kernel⟩, provider := ⟨"vendor", by decide +kernel⟩, account := some "main"
    accountPool := none, modelPrefix := some "team", priority := 10
    aliases := [⟨⟨"m", by decide +kernel⟩, ⟨"fast", by decide +kernel⟩, true, none, true⟩]
    inclusions := [], exclusions := [] }

def plainSource : CatalogSource :=
  { forkingSource with id := ⟨"backup", by decide +kernel⟩, priority := 0, aliases := [] }

def twoSources : List CatalogInput := [⟨plainSource, none, [sharedModel]⟩, ⟨forkingSource, none, [sharedModel]⟩]

def smallLimits : RefreshLimits := ⟨10, 10, 10, 100⟩

theorem forked_model_is_described :
    ∃ snapshot, mergeDiscoveries 1 5 twoSources smallLimits ⟨.empty⟩ = .ok snapshot ∧
      mergeDiscoveries 1 5 twoSources.reverse smallLimits ⟨.empty⟩ = .ok snapshot ∧
      Describes twoSources ⟨.empty⟩ snapshot := by
  have hok : (mergeDiscoveries 1 5 twoSources smallLimits ⟨.empty⟩).isOk = true := by decide +kernel
  obtain ⟨hord, hdes⟩ := catalog_merge_is_order_free 1 5 twoSources smallLimits ⟨.empty⟩ (by decide +kernel)
  cases h : mergeDiscoveries 1 5 twoSources smallLimits ⟨.empty⟩ with
  | error =>
    rw [h] at hok
    cases hok
  | ok snapshot =>
    have hreor : Reordered twoSources twoSources.reverse :=
      ⟨twoSources.reverse, (reverse_perm _).symm, forall₂_same.2 fun _ _ => ⟨rfl, rfl, List.Perm.refl _⟩⟩
    refine ⟨snapshot, rfl, ?_, (hdes snapshot h).2⟩
    have := hord _ hreor
    rw [h] at this
    cases hrev : mergeDiscoveries 1 5 twoSources.reverse smallLimits ⟨.empty⟩ with
    | error =>
      rw [hrev] at this
      cases this
    | ok =>
      rw [hrev] at this
      cases this
      rfl

end Pooler.Catalog
