import Pooler.Lib.Guards
import Pooler.Spec.Catalog.Exposure

/-! What the loops of the merge compute. -/

namespace Pooler.Catalog

open Lib List Except

def Exposure.candidate (observedAtUnixMs : ℕ) (tierOf : ℤ → ℕ) (e : Exposure) : Candidate :=
  { displayName := e.displayName, provider := e.source.provider, account := e.source.account
    accountPool := e.source.accountPool, upstreamModel := e.model.id, capabilities := e.model.capabilities
    dialect := e.model.dialect, profile := e.model.profile, forceMapping := e.forceMapping
    priority := tierOf e.source.priority, signedPriority := e.source.priority
    provenance := e.provenance observedAtUnixMs (tierOf e.source.priority) }

theorem Exposure.prefixedModelId_eq_ok {e : Exposure} {id}
    (h : prefixedModelId e.source e.publicId = .ok id) : id.asStr = e.publicName := by
  unfold prefixedModelId at h
  unfold Exposure.publicName
  cases hnmd : e.source.modelPrefix with
  | none =>
    rw [hnmd] at h
    cases h
    rfl
  | some =>
    rw [hnmd] at h
    exact Ident.new_asStr (mapError_eq_ok.1 h)

/-- The list of a key, if it is not empty. -/
def listed {α : Type} (l : List α) : Option (List α) := if l.isEmpty then none else some l

theorem listed_eq_some {α : Type} {l r : List α} : listed l = some r ↔ l ≠ [] ∧ l = r := by
  cases l with
  | nil => exact ⟨nofun, fun h => absurd rfl h.1⟩
  | cons => exact ⟨fun h => ⟨nofun, Option.some.inj h⟩, fun h => congrArg some h.2⟩

theorem getD_listed {α : Type} (l : List α) : (listed l).getD [] = l := by
  cases l <;> rfl

theorem listed_append {α : Type} (l : List α) (a : α) : listed (l ++ [a]) = some (l ++ [a]) := by
  cases l <;> rfl

section Gathering

variable {observedAtUnixMs : ℕ} {tierOf : ℤ → ℕ}

/-- The candidates of each public id, in the order in which the exposures were pushed. -/
structure Gathered (observedAtUnixMs : ℕ) (tierOf : ℤ → ℕ) (es : List Exposure) (candidates : Candidates) :
    Prop where
  get : ∀ id, candidates.get id =
    listed ((es.filter fun e => e.publicName = id.asStr).map (·.candidate observedAtUnixMs tierOf))
  named : ∀ e ∈ es, ∃ id : ModelId, id.asStr = e.publicName

theorem Gathered.empty : Gathered observedAtUnixMs tierOf [] .empty := ⟨fun _ => rfl, fun _ h => absurd h not_mem_nil⟩

theorem Gathered.push {es candidates candidates'} (h : Gathered observedAtUnixMs tierOf es candidates) (e : Exposure)
    (hpush : pushCandidate candidates e.source e.revision observedAtUnixMs e.model e.publicId e.displayName
      e.kind e.forceMapping (tierOf e.source.priority) = .ok candidates') :
    Gathered observedAtUnixMs tierOf (es ++ [e]) candidates' := by
  unfold pushCandidate at hpush
  obtain ⟨id, hid, hpush⟩ := bind_eq_ok.1 hpush
  obtain ⟨_, -, hpush⟩ := bind_eq_ok.1 hpush
  obtain rfl := ok.inj hpush
  have hname := Exposure.prefixedModelId_eq_ok hid
  refine ⟨fun other => ?_, fun e' he' => ?_⟩
  · rw [OrderedMap.get_insert, filter_append, map_append]
    split_ifs with hoth
    · subst hoth
      rw [h.get id, getD_listed, filter_singleton, decide_eq_true hname.symm]
      exact (listed_append _ _).symm
    · have hne : e.publicName ≠ other.asStr := fun heq => hoth (Ident.ext (hname.trans heq))
      rw [h.get other, filter_singleton, decide_eq_false hne]
      simp
  · obtain he' | he' := mem_append.1 he'
    · exact h.named e' he'
    · obtain rfl := mem_singleton.1 he'
      exact ⟨id, hname⟩

end Gathering

section Model

variable {input : CatalogInput} {model : DiscoveredModel}

theorem not_included_iff : (!input.source.inclusions.isEmpty &&
      !input.source.inclusions.any (·.matches model.id.asStr)) = true ↔
    ¬ (input.source.inclusions = [] ∨ ∃ pat ∈ input.source.inclusions, pat.matches model.id.asStr = true) := by
  simp

theorem naming_isEmpty_iff : (input.source.aliases.filter fun rule => rule.upstreamId = model.id).isEmpty = true ↔
    ∀ rule ∈ input.source.aliases, rule.upstreamId ≠ model.id := by
  simp

theorem naming_any_fork_iff :
    (input.source.aliases.filter fun rule => rule.upstreamId = model.id).any (·.fork) = true ↔
      ∃ rule ∈ input.source.aliases, rule.upstreamId = model.id ∧ rule.fork = true := by
  simp

variable {observedAtUnixMs : ℕ} {tierOf : ℤ → ℕ} {es : List Exposure} {tally tally' : SourceTally}

theorem Gathered.exposeDirect (h : Gathered observedAtUnixMs tierOf es tally.candidates)
    (hexp : Catalog.exposeDirect input.source input.response.revision observedAtUnixMs
      (tierOf input.source.priority) model tally = .ok tally') :
    Gathered observedAtUnixMs tierOf (es ++ [input.directExposure model]) tally'.candidates := by
  obtain ⟨candidates, hpush, hr⟩ := bind_eq_ok.1 hexp
  obtain rfl := ok.inj hr
  exact h.push (input.directExposure model) hpush

theorem Gathered.exposeAlias {rule} (h : Gathered observedAtUnixMs tierOf es tally.candidates)
    (hexp : Catalog.exposeAlias input.source input.response.revision observedAtUnixMs
      (tierOf input.source.priority) model tally rule = .ok tally') :
    Gathered observedAtUnixMs tierOf (es ++ [input.aliasExposure model rule]) tally'.candidates := by
  obtain ⟨candidates, hpush, hr⟩ := bind_eq_ok.1 hexp
  obtain rfl := ok.inj hr
  exact h.push (input.aliasExposure model rule) hpush

theorem Gathered.exposeAliases (rules : List CatalogAlias) (h : Gathered observedAtUnixMs tierOf es tally.candidates)
    (hexp : rules.foldlM (Catalog.exposeAlias input.source input.response.revision observedAtUnixMs
      (tierOf input.source.priority) model) tally = .ok tally') :
    Gathered observedAtUnixMs tierOf (es ++ rules.map (input.aliasExposure model)) tally'.candidates := by
  refine foldlM_ok_all (fun passed (tally : SourceTally) =>
    Gathered observedAtUnixMs tierOf (es ++ passed.map (input.aliasExposure model)) tally.candidates)
    (fun passed tally rule tally' hpass hexp => ?_) (by simpa using h) hexp
  rw [map_append, ← append_assoc]
  exact hpass.exposeAlias hexp

theorem Gathered.mergeModel (h : Gathered observedAtUnixMs tierOf es tally.candidates)
    (hmrg : Catalog.mergeModel input.source input.response.revision observedAtUnixMs
      (tierOf input.source.priority) tally model = .ok tally') :
    Gathered observedAtUnixMs tierOf (es ++ input.exposuresOf model) tally'.candidates := by
  unfold Catalog.mergeModel at hmrg
  unfold CatalogInput.exposuresOf
  split_ifs at hmrg with hinc hexc
  · rw [not_included_iff] at hinc
    obtain rfl := ok.inj hmrg
    rw [if_neg fun hadm => hinc hadm.1, append_nil]
    exact h
  · obtain ⟨pat, hpat, hmat⟩ := any_eq_true.1 hexc
    obtain rfl := ok.inj hmrg
    rw [if_neg fun hadm => ?_, append_nil]
    · exact h
    · exact absurd hmat (by rw [hadm.2 pat hpat]; decide)
  · rw [not_included_iff, not_not] at hinc
    have hadm : input.source.Admits model := by
      refine ⟨hinc, fun pat hpat => ?_⟩
      exact Bool.eq_false_iff.2 fun hmat => hexc (any_eq_true.2 ⟨pat, hpat, hmat⟩)
    rw [if_pos hadm]
    obtain ⟨_, -, hmrg⟩ := bind_eq_ok.1 hmrg
    unfold exposeModel at hmrg
    split_ifs at hmrg with hn
    · -- no alias names the model
      rw [if_pos (.inl (naming_isEmpty_iff.1 hn)), isEmpty_iff.1 hn]
      exact h.exposeDirect hmrg
    · obtain ⟨mid, hdir, halias⟩ := bind_eq_ok.1 hmrg
      rw [← append_assoc]
      refine Gathered.exposeAliases _ ?_ halias
      unfold exposeForked at hdir
      split_ifs at hdir with hfork
      · rw [if_pos (.inr (naming_any_fork_iff.1 hfork))]
        exact h.exposeDirect hdir
      · obtain rfl := ok.inj hdir
        have hdirec : ¬ input.source.ExposesDirectly model := by
          rintro (hfree | hfor)
          · exact hn (naming_isEmpty_iff.2 hfree)
          · exact hfork (naming_any_fork_iff.2 hfor)
        rw [if_neg hdirec, append_nil]
        exact h

end Model

/-- The exposures of an input, in the order in which they are pushed. -/
def CatalogInput.pushed (input : CatalogInput) : List Exposure :=
  (sortBy DiscoveredModel.id input.response.models).flatMap input.exposuresOf

/-- The tier the merge looks up. -/
def tierIn (tiers : OrderedMap ℤ ℕ) (priority : ℤ) : ℕ := (tiers.get priority).getD 0

section Inputs

variable {tiers : OrderedMap ℤ ℕ} {observedAtUnixMs : ℕ} {es : List Exposure}

theorem Gathered.mergeInput {state state' input} (h : Gathered observedAtUnixMs (tierIn tiers) es state.candidates)
    (hmrg : Catalog.mergeInput tiers observedAtUnixMs state input = .ok state') :
    Gathered observedAtUnixMs (tierIn tiers) (es ++ input.pushed) state'.candidates := by
  obtain ⟨_, -, hmrg⟩ := bind_eq_ok.1 hmrg
  obtain ⟨_, -, hmrg⟩ := bind_eq_ok.1 hmrg
  obtain ⟨tally, hmod, hmrg⟩ := bind_eq_ok.1 hmrg
  obtain rfl := ok.inj hmrg
  refine foldlM_ok_all (fun passed (tally : SourceTally) => Gathered observedAtUnixMs (tierIn tiers)
    (es ++ passed.flatMap input.exposuresOf) tally.candidates)
    (fun passed tally model tally' hpass hmodel => ?_) (by simpa using h) hmod
  rw [flatMap_append, flatMap_singleton, ← append_assoc]
  exact hpass.mergeModel hmodel

theorem gathered_inputs {inputs : List CatalogInput} {merged}
    (h : inputs.foldlM (mergeInput tiers observedAtUnixMs) ⟨.empty, .empty⟩ = .ok merged) :
    Gathered observedAtUnixMs (tierIn tiers) (inputs.flatMap CatalogInput.pushed) merged.candidates := by
  refine foldlM_ok_all (fun passed (state : MergeState) =>
    Gathered observedAtUnixMs (tierIn tiers) (passed.flatMap CatalogInput.pushed) state.candidates)
    (fun passed state input state' hpass hinp => ?_) Gathered.empty h
  rw [flatMap_append, flatMap_singleton]
  exact hpass.mergeInput hinp

theorem coe_pushed (inputs : List CatalogInput) :
    (inputs.flatMap CatalogInput.pushed : Multiset Exposure) = exposures inputs := by
  rw [← Multiset.coe_bind, exposures]
  refine Multiset.bind_congr fun input _ => ?_
  rw [Multiset.coe_bind]
  exact Multiset.coe_eq_coe.2 ((perm_sortBy _ _).flatMap_right _)

end Inputs

theorem mem_exposures {inputs e} : e ∈ exposures inputs ↔
    ∃ input ∈ inputs, ∃ model ∈ input.response.models, e ∈ input.exposuresOf model := by
  simp [exposures]

theorem source_of_mem_exposuresOf {input : CatalogInput} {model e}
    (h : e ∈ input.exposuresOf model) : e.source = input.source := by
  unfold CatalogInput.exposuresOf at h
  split_ifs at h with hadm hdir
  · obtain h | h := mem_append.1 h
    · obtain rfl := mem_singleton.1 h
      rfl
    · obtain ⟨rule, -, rfl⟩ := mem_map.1 h
      rfl
  · obtain ⟨rule, -, rfl⟩ := mem_map.1 h
    rfl
  · cases h

section Tiers

variable (inputs : List CatalogInput)

/-- The distinct priorities, the highest first. -/
def signedPriorities : List ℤᵒᵈ := sortDedup (inputs.map fun input => OrderDual.toDual input.source.priority)

variable {inputs} {priority : ℤ}

theorem mem_signedPriorities :
    OrderDual.toDual priority ∈ signedPriorities inputs ↔ ∃ input ∈ inputs, input.source.priority = priority := by
  rw [signedPriorities, mem_sortDedup, mem_map]
  rfl

section

variable (h : ∃ input ∈ inputs, input.source.priority = priority)
include h

theorem get_priorityTiers :
    (priorityTiers inputs).get priority = some ((signedPriorities inputs).idxOf (OrderDual.toDual priority) + 1) := by
  have hm := mem_signedPriorities.2 h
  refine Assoc.get_ofList ?_ (mem_map.2 ⟨(OrderDual.toDual priority, _), ?_, rfl⟩)
  · have hkeys : (signedPriorities inputs).Nodup := (pairwise_sortDedup _).imp ne_of_lt
    rw [map_map]
    have : ((signedPriorities inputs).zipIdx.map Prod.fst).Nodup := by rwa [zipIdx_map_fst]
    exact this
  · rw [mem_zipIdx_iff_getElem?]
    exact List.getElem?_idxOf hm

theorem idxOf_signedPriorities :
    (signedPriorities inputs).idxOf (OrderDual.toDual priority) + 1 = tier inputs priority := by
  have hsort : (signedPriorities inputs).Pairwise (· < ·) := pairwise_sortDedup _
  rw [idxOf_eq_countP hsort (mem_signedPriorities.2 h), tier, countP_eq_length_filter]
  congr 1
  rw [← toFinset_card_of_nodup ((hsort.imp ne_of_lt).filter _)]
  refine Finset.card_nbij' OrderDual.ofDual OrderDual.toDual ?_ ?_ (fun _ _ => rfl) (fun _ _ => rfl)
  · intro other hoth
    obtain ⟨hoth, hlt⟩ := mem_filter.1 (mem_toFinset.1 hoth)
    obtain ⟨input, hinp, hprio⟩ := mem_signedPriorities.1 hoth
    refine Finset.mem_filter.2 ⟨Multiset.mem_toFinset.2 (Multiset.mem_map.2 ⟨input, hinp, hprio⟩), ?_⟩
    exact of_decide_eq_true hlt
  · intro other hoth
    obtain ⟨hoth, hlt⟩ := Finset.mem_filter.1 hoth
    obtain ⟨input, hinp, hprio⟩ := Multiset.mem_map.1 (Multiset.mem_toFinset.1 hoth)
    exact mem_toFinset.2 (mem_filter.2 ⟨mem_signedPriorities.2 ⟨input, hinp, hprio⟩, decide_eq_true hlt⟩)

theorem tierIn_priorityTiers : tierIn (priorityTiers inputs) priority = tier inputs priority := by
  rw [tierIn, get_priorityTiers h, Option.getD_some, idxOf_signedPriorities h]

end

end Tiers

end Pooler.Catalog
