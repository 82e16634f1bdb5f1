import Pooler.Spec.Policy.Eligible

/-! The evaluation of a candidate finds no reason exactly when the candidate passes
every filter. -/

namespace Pooler

open Lib CapabilitySet Checks HealthRegistry

namespace CapabilitySet

theorem contains_eq_getLsbD (s : CapabilitySet) (c : Capability) : s.contains c = s.bits.getLsbD c.index := by
  have hi : c.index < 64 := by cases c <;> decide
  have hbit : ∀ i, (s.bits &&& c.bit).getLsbD i = (s.bits.getLsbD i && decide (i = c.index)) := by
    intro i
    by_cases h : i = c.index
    · subst h; simp [Capability.bit, hi]
    · by_cases hlt : i < c.index
      · simp [Capability.bit, h, hlt]
      · have hne : i - c.index ≠ 0 := by omega
        simp [Capability.bit, h, hne]
  rw [contains, Bool.eq_iff_iff, decide_eq_true_iff]
  constructor
  · intro hne
    by_contra hf
    apply hne
    apply BitVec.eq_of_getLsbD_eq
    intro i _
    rw [hbit, BitVec.getLsbD_zero]
    by_cases h : i = c.index
    · subst h; simpa using hf
    · simp [h]
  · intro ht hzero
    have := hbit c.index
    rw [hzero, ht] at this
    simp at this

theorem contains_difference (s t : CapabilitySet) (c : Capability) :
    (s.difference t).contains c = (s.contains c && !t.contains c) := by
  have hi : c.index < 64 := by cases c <;> decide
  simp [contains_eq_getLsbD, difference, hi]

theorem exists_contains {s : CapabilitySet} (h : s.isEmpty = false) : ∃ c, s.contains c = true := by
  by_contra hno
  push Not at hno
  have hz : s.bits = 0#64 := by
    apply BitVec.eq_of_getLsbD_eq
    intro i hi
    rw [BitVec.getLsbD_zero]
    by_cases hk : i < 29
    · obtain ⟨c, hc⟩ : ∃ c : Capability, c.index = i := by
        have : ∀ i < 29, ∃ c ∈ Capability.all, c.index = i := by decide
        obtain ⟨c, -, hc⟩ := this i hk
        exact ⟨c, hc⟩
      have := hno c
      rw [contains_eq_getLsbD, hc] at this
      simpa using this
    · have hk2 : (s.bits &&& ~~~knownBits).getLsbD i = false := by rw [s.known, BitVec.getLsbD_zero]
      have hkb : knownBits.getLsbD i = false := by
        have : ∀ i < 64, 29 ≤ i → knownBits.getLsbD i = false := by decide
        exact this i hi (by omega)
      rw [BitVec.getLsbD_and, BitVec.getLsbD_not, hkb] at hk2
      simpa [hi] using hk2
  simp [isEmpty, hz] at h

theorem not_contains_of_isEmpty {s : CapabilitySet} (h : s.isEmpty = true) (c : Capability) : s.contains c = false := by
  simp only [isEmpty, decide_eq_true_eq] at h
  simp [contains, h]

end CapabilitySet

theorem missingCapabilities_eq_nil (required known : CapabilitySet) :
    missingCapabilities required known = [] ↔ ∀ c, required.contains c → known.contains c := by
  simp only [missingCapabilities, List.map_eq_nil_iff, CapabilitySet.toList, List.filter_eq_nil_iff,
    contains_difference]
  constructor
  · intro h c hc
    have := h c (by cases c <;> decide)
    simpa [hc] using this
  · intro h c _
    cases hr : required.contains c with
    | false => simp
    | true => simp [h c hr]

theorem exists_mem_of_not_isEmpty {s : KeySet String} (h : s.isEmpty = false) : ∃ x, x ∈ s := by
  cases hl : s.toList with
  | nil =>
    rw [← Std.ExtTreeSet.isEmpty_toList, hl] at h
    cases h
  | cons x => exact ⟨x, Std.ExtTreeSet.mem_toList.1 (hl ▸ List.mem_cons_self)⟩

theorem requireLabels_reasons (required : KeySet String) (known : Option (KeySet String))
    (missing : String → FilterReason) (unknown : FilterReason) :
    (requireLabels required known missing unknown).reasons = [] ↔
      ∀ l ∈ required, ∃ labels, known = some labels ∧ l ∈ labels := by
  unfold requireLabels
  split_ifs with he
  · rw [Std.ExtTreeSet.isEmpty_iff] at he
    simp [he]
  · obtain ⟨x, hx⟩ := exists_mem_of_not_isEmpty (Bool.eq_false_iff.2 he)
    cases known with
    | none => simpa using ⟨x, hx⟩
    | some => simp

theorem requireFact_reasons {α : Type} (value : Option α) (meets : α → Bool) (mismatch unknown : FilterReason) :
    (requireFact value meets mismatch unknown).reasons = [] ↔ ∃ v, value = some v ∧ meets v := by
  cases value <;> simp [requireFact]

theorem mem_sortedEntries {s e} : e ∈ sortedEntries s ↔ Registered s e := by
  rw [sortedEntries, List.mem_insertionSort, Slots.mem_values, Registered]

variable {routing : RoutingRequirements}

/-- The fallback check refuses a lower tier of the requested model and nothing else. -/
theorem fallback_refused_iff {s req} (hr : req.routing = some routing) (r : CredentialRegistration) :
    (fallbackPriority s req).any (fun p => r.priority > p && r.model = req.model) = false ↔
      (r.model = req.model → ∀ e, Registered s e → e.registration.model = req.model →
        routingConfigAllows e.registration routing → r.priority ≤ e.registration.priority) := by
  set l := ((sortedEntries s).filter (fun e => e.registration.model = req.model &&
    routingConfigAllows e.registration routing)).map (fun e => e.registration.priority) with hl
  have hmem : ∀ p, p ∈ l ↔ ∃ e, Registered s e ∧ e.registration.model = req.model ∧
      routingConfigAllows e.registration routing ∧ e.registration.priority = p := by
    intro p
    simp [hl, mem_sortedEntries, and_assoc]
  have hfall : fallbackPriority s req = l.min? := by simp [fallbackPriority, hr, hl]
  rw [hfall]
  cases hm : l.min? with
  | none =>
    rw [List.min?_eq_none_iff] at hm
    simp only [Option.any_none, true_iff]
    intro _ e he hmod hallow
    have : e.registration.priority ∈ l := (hmem _).2 ⟨e, he, hmod, hallow, rfl⟩
    rw [hm] at this
    cases this
  | some p =>
    obtain ⟨hp, hle⟩ := List.min?_eq_some_iff.1 hm
    simp only [Option.any_some, Bool.and_eq_false_iff, decide_eq_false_iff_not, gt_iff_lt, not_lt]
    constructor
    · intro h hmod e he hem hallow
      have hpr := h.resolve_right (fun hn => hn hmod)
      exact le_trans hpr (hle _ ((hmem _).2 ⟨e, he, hem, hallow, rfl⟩))
    · intro h
      by_cases hmod : r.model = req.model
      · obtain ⟨e, he, hem, hallow, rfl⟩ := (hmem p).1 hp
        exact .inl (h hmod e he hem hallow)
      · exact .inr hmod

theorem requireCapabilities_reasons (required : CapabilitySet) (known : Option CapabilitySet) :
    (requireCapabilities required known).reasons = [] ↔
      ∀ c, required.contains c → ∃ caps, known = some caps ∧ caps.contains c := by
  unfold requireCapabilities
  split_ifs with he
  · simp [not_contains_of_isEmpty he]
  · obtain ⟨c, hc⟩ := exists_contains (Bool.eq_false_iff.2 he)
    cases known with
    | none => simpa using ⟨c, hc⟩
    | some => simp [missingCapabilities_eq_nil]

theorem requireZdr_reasons (required : Bool) (value : Option Bool) (mismatch unknown : FilterReason) :
    (if required then requireFact value id mismatch unknown else Checks.note []).reasons = [] ↔
      (required = true → value = some true) := by
  cases required <;> simp [requireFact_reasons]

theorem routingChecks_iff {s req} (hr : req.routing = some routing) (r : CredentialRegistration) :
    (∀ c ∈ routingChecks s req routing r, c.reasons = []) ↔ MeetsRouting s req routing r := by
  simp only [routingChecks, List.forall_mem_cons, List.not_mem_nil, false_implies, implies_true,
    and_true, refuse_reasons_eq_nil, forSome_reasons_eq_nil, requireLabels_reasons,
    requireCapabilities_reasons, requireFact_reasons, requireZdr_reasons, Bool.and_eq_false_iff,
    fallback_refused_iff hr, KeySet.contains_eq_false, Std.ExtTreeSet.contains_iff_mem, Bool.not_eq_false',
    Std.ExtTreeSet.isEmpty_iff, List.any_eq_false, List.any_eq_true, Std.ExtTreeSet.mem_toList, ge_iff_le,
    decide_eq_true_eq]
  constructor
  · rintro ⟨h1, h2, h3, h4, h5, h6, h7, h8, h9, h10, h11, h12, h13, h14⟩
    exact ⟨h1, h2, h3, h4, fun hf => h5.resolve_left (by simp [hf]), h6, h7, h8, h9, h10, h11, h12, h13, h14⟩
  · rintro ⟨h1, h2, h3, h4, h5, h6, h7, h8, h9, h10, h11, h12, h13, h14⟩
    exact ⟨h1, h2, h3, h4, (Bool.eq_false_or_eq_true _).imp_right h5, h6, h7, h8, h9, h10, h11, h12, h13, h14⟩

theorem targetCooldownScopes_eq_nil (h : HealthRegistry) (subj : HealthSubject) (now : ℕ) :
    h.targetCooldownScopes subj now = [] ↔
      ∀ kind scope, subj.resolve kind = some scope → h.isCoolingDown scope now = false := by
  simp only [HealthRegistry.targetCooldownScopes, List.map_eq_nil_iff, List.filter_eq_nil_iff,
    List.mem_filterMap, Bool.not_eq_true]
  constructor
  · intro hall kind scope hs
    exact hall scope ⟨kind, by cases kind <;> decide, hs⟩
  · rintro hall scope ⟨kind, -, hs⟩
    exact hall kind scope hs

theorem healthReasons_eq_nil (h : HealthRegistry) (req : SelectionRequest) (r : CredentialRegistration) :
    healthReasons h req r = [] ↔ isDisabled h.credentials[r.credential]? = false ∧
      isDisabled h.bindings[r.binding]? = false ∧
      ∀ kind scope, (candidateSubject req r).resolve kind = some scope →
        h.isCoolingDown scope req.now = false := by
  unfold healthReasons
  split_ifs with hd
  · simp only [Bool.or_eq_true] at hd
    rcases hd with hd | hd <;> simp [hd]
  · rw [Bool.or_eq_true, not_or, Bool.not_eq_true, Bool.not_eq_true] at hd
    simp [hd.1, hd.2, targetCooldownScopes_eq_nil]

variable (s : RegistryState)

theorem quotaExhausted_iff (now : ℕ) (r : CredentialRegistration) :
    quotaExhausted s now r = true ↔ CoveredByExhausted s now r := by
  simp only [quotaExhausted, CoveredByExhausted, Bool.or_eq_true, List.any_eq_true, Prod.exists,
    Std.ExtTreeMap.mem_toList_iff_getElem?_eq_some, Bool.and_eq_true, decide_eq_true_eq]
  constructor
  · rintro (h | ⟨b, unit, w, hw, rfl, he⟩)
    · exact .inl h
    · exact .inr ⟨unit, w, hw, he⟩
  · rintro (h | ⟨unit, w, hw, he⟩)
    · exact .inl h
    · exact .inr ⟨_, unit, w, hw, rfl, he⟩

theorem requestChecks_iff (h : HealthRegistry) (req : SelectionRequest)
    (e : RegistryEntry) (hrout : ∀ routing, req.routing = some routing →
      MeetsRouting s req routing e.registration) :
    (∀ c ∈ requestChecks s h req e, c.reasons = []) ↔ PassesFilters s h req e := by
  have hquota : quotaExhausted s req.now e.registration = false ↔
      ¬CoveredByExhausted s req.now e.registration := by
    rw [← quotaExhausted_iff, Bool.not_eq_true]
  simp only [requestChecks, List.forall_mem_cons, List.not_mem_nil, false_implies, implies_true, and_true,
    refuse_reasons_eq_nil, note_reasons, missingCapabilities_eq_nil, healthReasons_eq_nil, hquota,
    Bool.or_eq_false_iff, Option.any_eq_false, KeySet.contains_eq_false, Std.ExtTreeSet.contains_iff_mem,
    Bool.not_eq_false', decide_eq_false_iff_not, ne_eq, not_not, not_le, List.map_eq_nil_iff,
    Option.toList_eq_nil_iff, Option.filter_eq_none_iff, Bool.not_eq_true']
  constructor
  · rintro ⟨⟨h1, h2⟩, ⟨h3, h4⟩, h5, h6, h7, h8, h9, ⟨h10, h11, h12⟩, h13, h14⟩
    exact ⟨hrout, h1, h2, h3, h4, h5, h6, h7, h8, h9, h10, h11, h12, h13, h14⟩
  · rintro ⟨-, h1, h2, h3, h4, h5, h6, h7, h8, h9, h10, h11, h12, h13, h14⟩
    exact ⟨⟨h1, h2⟩, ⟨h3, h4⟩, h5, h6, h7, h8, h9, ⟨h10, h11, h12⟩, h13, h14⟩

/-- The evaluation leaves a candidate without a reason exactly when it passes every filter. -/
theorem evaluateCandidate_reasons_iff (h : HealthRegistry) (req : SelectionRequest) (e : RegistryEntry) :
    (evaluateCandidate s h req e).reasons = [] ↔ PassesFilters s h req e := by
  rw [evaluateCandidate, all_reasons_eq_nil, candidateChecks, List.forall_mem_append]
  cases hr : req.routing with
  | none =>
    rw [requestChecks_iff s h req e (fun routing hc => by rw [hr] at hc; cases hc)]
    simp
  | some routing =>
    simp only [routingChecks_iff hr]
    constructor
    · rintro ⟨hm, hc⟩
      exact (requestChecks_iff s h req e (fun r' hr' => by
        rw [hr] at hr'; cases hr'; exact hm)).1 hc
    · intro hp
      exact ⟨hp.routing routing hr, (requestChecks_iff s h req e hp.routing).2 hp⟩

end Pooler
