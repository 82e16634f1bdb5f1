import Pooler.Sanity.Evaluate

/-! Selection step by step: the best tier, the choice inside it, and what a whole
selection does to the registry. -/

namespace Pooler

open Lib List Table Std.ExtTreeMap

variable {c : CandidateEvaluation} {rest : List CandidateEvaluation} {first : CandidateEvaluation}

theorem bestPriority_le (hc : c ∈ first :: rest) : bestPriority first rest ≤ c.entry.registration.priority := by
  obtain ⟨h1, h2⟩ := foldl_min_le (fun c : CandidateEvaluation => c.entry.registration.priority) rest
    first.entry.registration.priority
  rcases mem_cons.1 hc with rfl | hc
  · exact h1
  · exact h2 c hc

theorem bestPriority_attained (first : CandidateEvaluation) (rest : List CandidateEvaluation) :
    ∃ c ∈ first :: rest, c.entry.registration.priority = bestPriority first rest := by
  rcases foldl_min_attained (fun c : CandidateEvaluation => c.entry.registration.priority) rest
    first.entry.registration.priority with h | ⟨c, hc, h⟩
  · exact ⟨first, mem_cons_self, h.symm⟩
  · exact ⟨c, mem_cons_of_mem _ hc, h.symm⟩

theorem mem_bestTier :
    c ∈ bestTier first rest ↔ c ∈ first :: rest ∧ ∀ c' ∈ first :: rest,
      c.entry.registration.priority ≤ c'.entry.registration.priority := by
  rw [bestTier, mem_filter, decide_eq_true_eq]
  constructor
  · rintro ⟨hc, hp⟩
    exact ⟨hc, fun c' hc' => hp ▸ bestPriority_le hc'⟩
  · rintro ⟨hc, hle⟩
    obtain ⟨c', hc', hp⟩ := bestPriority_attained first rest
    exact ⟨hc, le_antisymm (hp ▸ hle c' hc') (bestPriority_le hc)⟩

theorem bestTier_ne_nil (first : CandidateEvaluation) (rest : List CandidateEvaluation) : bestTier first rest ≠ [] := by
  obtain ⟨c, hc, hp⟩ := bestPriority_attained first rest
  have : c ∈ bestTier first rest := mem_filter.2 ⟨hc, by simpa using hp⟩
  exact ne_nil_of_mem this

variable {tier : List CandidateEvaluation} (s : RegistryState) {head : CandidateEvaluation}

theorem chooseIndex_mem (hh : head ∈ tier) (request : SelectionRequest) :
    (chooseIndex s head tier request).1 ∈ tier := by
  unfold chooseIndex
  split_ifs
  · exact getD_maxBy_mem hh
  · cases request.strategy with
    | roundRobin =>
      have hlt : s.roundRobin[cursorScope tier request]?.getD 0 % tier.length < tier.length :=
        Nat.mod_lt _ (length_pos_of_mem hh)
      simp only [getD_eq_getElem?_getD, List.getElem?_eq_getElem hlt, Option.getD_some]
      exact getElem_mem hlt
    | smoothWeightedRoundRobin => exact getD_maxBy_mem hh
    | fillFirst => exact hh
    | orderedFallback | leastInFlight => exact getD_minBy_mem hh
    | healthWeighted => exact getD_maxBy_mem hh

/-- Only the strategy state of one pool scope differs: one of its cursors, or its weights. -/
structure StrategyFrame (s s' : RegistryState) (scope : PoolScope) : Prop where
  entries : s'.entries = s.entries
  aliases : s'.aliases = s.aliases
  nextOrder : s'.nextOrder = s.nextOrder
  quotas : s'.quotas = s.quotas
  bindingQuotas : s'.bindingQuotas = s.bindingQuotas
  roundRobin : ∃ cursor : CursorScope, cursor.scope = scope ∧ ∀ k, k ≠ cursor → s'.roundRobin[k]? = s.roundRobin[k]?
  smoothCurrent : ∀ k, k ≠ scope → s'.smoothCurrent[k]? = s.smoothCurrent[k]?

theorem StrategyFrame.refl (scope : PoolScope) : StrategyFrame s s scope :=
  { entries := rfl, aliases := rfl, nextOrder := rfl, quotas := rfl
    bindingQuotas := rfl, roundRobin := ⟨⟨scope, []⟩, rfl, fun _ _ => rfl⟩
    smoothCurrent := fun _ _ => rfl }

theorem chooseIndex_frame (head : CandidateEvaluation) (tier : List CandidateEvaluation) (request : SelectionRequest) :
    StrategyFrame s (chooseIndex s head tier request).2 (poolScope request) := by
  unfold chooseIndex
  split_ifs
  · exact .refl s _
  · cases request.strategy with
    | roundRobin =>
      exact { StrategyFrame.refl s _ with
        roundRobin := ⟨cursorScope tier request, rfl, fun k hk => by
          rw [get_insert, if_neg (Ne.symm hk)]⟩ }
    | smoothWeightedRoundRobin =>
      exact { StrategyFrame.refl s _ with
        smoothCurrent := fun k hk => by rw [get_insert, if_neg (Ne.symm hk)] }
    | fillFirst | orderedFallback | leastInFlight | healthWeighted => exact .refl s _

theorem chooseIndex_affinity (head : CandidateEvaluation)
    (tier : List CandidateEvaluation) (request : SelectionRequest) :
    (chooseIndex s head tier request).2.affinity = s.affinity := by
  unfold chooseIndex
  split_ifs
  · rfl
  · cases request.strategy <;> rfl

/-! ### Expired entries -/

@[simp] theorem resolveRequest_dropExpired (now : ℕ) (request : SelectionRequest) :
    resolveRequest (s.dropExpired now) request = resolveRequest s request := rfl

theorem not_expiredAt_of_exhausted {w : QuotaSnapshot} {now : ℕ} (h : w.exhausted now = true) :
    w.expiredAt now = false := by
  unfold QuotaSnapshot.exhausted at h
  split_ifs at h with hr
  exact Bool.eq_false_iff.2 hr

/-- Dropping expired windows uncovers nobody: an expired window exhausts nothing. -/
theorem coveredByExhausted_dropExpired (now : ℕ) (r : CredentialRegistration) :
    CoveredByExhausted (s.dropExpired now) now r ↔ CoveredByExhausted s now r := by
  have key : ∀ {α : Type} [StringKeyed α] (t : Table α QuotaSnapshot) (k : α) (w : QuotaSnapshot),
      ((t.filter (fun _ w => !w.expiredAt now))[k]? = some w ∧ w.exhausted now = true) ↔
        (t[k]? = some w ∧ w.exhausted now = true) := by
    intro α _ t k w
    rw [get_filter, Option.filter_eq_some_iff]
    constructor
    · rintro ⟨⟨h, -⟩, he⟩; exact ⟨h, he⟩
    · rintro ⟨h, he⟩; exact ⟨⟨h, by simp [not_expiredAt_of_exhausted he]⟩, he⟩
  unfold CoveredByExhausted RegistryState.dropExpired RegistryState.recoverQuotas RegistryState.purgeExpiredAffinity
  refine or_congr ?_ ?_
  · refine exists_congr fun subject => exists_congr fun unit => exists_congr fun w => ?_
    have := key s.quotas (subject, unit) w
    tauto
  · refine exists_congr fun unit => exists_congr fun w => ?_
    exact key s.bindingQuotas (r.binding, unit) w

variable {e : RegistryEntry} {request : SelectionRequest} {h : HealthRegistry}

theorem passesFilters_congr {s s'} (hents : s'.entries = s.entries)
    (hquota : CoveredByExhausted s' request.now e.registration ↔ CoveredByExhausted s request.now e.registration) :
    PassesFilters s' h request e ↔ PassesFilters s h request e := by
  have hreg : ∀ e, Registered s' e ↔ Registered s e := fun e => by unfold Registered; rw [hents]
  have hrout : ∀ routing, MeetsRouting s' request routing e.registration ↔
      MeetsRouting s request routing e.registration := by
    intro routing
    constructor
    · intro hm
      exact { hm with fallback_permitted := fun ha hm' e' he' => hm.fallback_permitted ha hm' e' ((hreg e').2 he') }
    · intro hm
      exact { hm with fallback_permitted := fun ha hm' e' he' => hm.fallback_permitted ha hm' e' ((hreg e').1 he') }
  constructor
  · intro hp
    exact { hp with routing := fun r hr => (hrout r).1 (hp.routing r hr)
                    quota := fun hq => hp.quota (hquota.2 hq) }
  · intro hp
    exact { hp with routing := fun r hr => (hrout r).2 (hp.routing r hr)
                    quota := fun hq => hp.quota (hquota.1 hq) }

theorem mem_eligible {s} :
    c ∈ (evaluateCandidates (s.dropExpired request.now) h (resolveRequest s request)).filter
        (fun c => c.reasons.isEmpty) ↔
      Eligible s h request c.entry ∧
        c = evaluateCandidate (s.dropExpired request.now) h (resolveRequest s request) c.entry := by
  have hnow : (resolveRequest s request).now = request.now := rfl
  have hpass : ∀ e, (evaluateCandidate (s.dropExpired request.now) h (resolveRequest s request) e).reasons
      = [] ↔ PassesFilters s h (resolveRequest s request) e := by
    intro e
    rw [evaluateCandidate_reasons_iff]
    refine passesFilters_congr rfl ?_
    rw [hnow]
    exact coveredByExhausted_dropExpired s request.now e.registration
  simp only [List.mem_filter, evaluateCandidates, List.mem_map, mem_sortedEntries, List.isEmpty_iff]
  constructor
  · rintro ⟨⟨e, he, rfl⟩, hnil⟩
    exact ⟨⟨he, (hpass e).1 hnil⟩, rfl⟩
  · rintro ⟨⟨hreg, hp⟩, hc⟩
    refine ⟨⟨c.entry, hreg, hc.symm⟩, ?_⟩
    rw [hc]
    exact (hpass c.entry).2 hp

/-! ### Affinity -/

variable {decision : AffinityDecision}

theorem affinityLookup_bound {s evaluations tier} {best : ℕ}
    (h : affinityLookup s request evaluations tier best = .bound c decision) : c ∈ tier := by
  unfold affinityLookup at h
  cases hk : request.affinityKey with
  | none => simp [hk] at h
  | some =>
    simp only [hk] at h
    split at h
    · cases h
    next =>
      split at h
      next hc' =>
        cases h
        exact mem_of_find?_eq_some hc'
      · split_ifs at h

theorem affinityLookup_refused_iff {s evaluations tier} {best : ℕ} :
    (∃ decision, affinityLookup s request evaluations tier best = .refused decision) ↔
      request.affinityRebind = false ∧ ∃ key a, request.affinityKey = some key ∧ s.affinity[key]? = some a ∧
        (∀ c ∈ tier, ¬(c.entry.registration.binding = a.binding ∧
          c.entry.registration.provider = a.provider ∧ c.entry.registration.model = a.model)) ∧
        ∀ c ∈ evaluations, c.entry.registration.binding = a.binding → c.entry.registration.priority ≤ best := by
  unfold affinityLookup
  cases hk : request.affinityKey with
  | none => simp
  | some key =>
    cases ha : s.affinity[key]? with
    | none => simp [ha]
    | some =>
      simp only [Option.some.injEq, exists_and_left, exists_eq_left', ha]
      split
      next c hfind =>
        have hc := List.find?_some hfind
        simp only [Bool.and_eq_true, decide_eq_true_eq, and_assoc] at hc
        exact iff_of_false nofun fun h => h.2.1 c (mem_of_find?_eq_some hfind) hc
      next hfind =>
        simp only [List.find?_eq_none, Bool.and_eq_true, decide_eq_true_eq, and_assoc] at hfind
        split_ifs with h <;> simp_all [any_eq_false]

/-- The key stands in the table and no entry was used before its entry. -/
def LeastRecentlyUsed (t : Table AffinityKey AffinityBinding) (key : AffinityKey) : Prop :=
  ∃ a, t[key]? = some a ∧ ∀ (key' : AffinityKey) (a' : AffinityBinding),
    t[key']? = some a' → a.lastUsedAt ≤ a'.lastUsedAt

instance affinityOrder_trans : Std.TransCmp (fun a b : AffinityKey × AffinityBinding =>
    (compare a.2.lastUsedAt b.2.lastUsedAt).then (StringKeyed.cmp a.1 b.1)) :=
  inferInstanceAs (Std.TransCmp (compareLex
    (compareOn (fun a : AffinityKey × AffinityBinding => a.2.lastUsedAt))
    (compareOn (fun a : AffinityKey × AffinityBinding => StringKeyed.key a.1))))

theorem oldestAffinity_lru {s : RegistryState} {key} (h : s.oldestAffinity = some key) :
    LeastRecentlyUsed s.affinity key := by
  unfold RegistryState.oldestAffinity at h
  obtain ⟨⟨k, a⟩, hmin, rfl⟩ := Option.map_eq_some_iff.1 h
  refine ⟨a, mem_toList_iff_getElem?_eq_some.1 (minBy_mem hmin), ?_⟩
  intro key' a' h'
  have hle := minBy_le hmin (key', a') (mem_toList_iff_getElem?_eq_some.2 h')
  have hfst : (compare a.lastUsedAt a'.lastUsedAt).isLE := Ordering.isLE_left_of_isLE_then hle
  exact Nat.isLE_compare.1 hfst

/-- Writing an affinity entry changes its own key and drops at most the least recently used one,
and only to make room for a new key. -/
theorem insertBoundedAffinity_frame (key : AffinityKey) (a : AffinityBinding) :
    ∃ t evicted,
      s.insertBoundedAffinity key a = { s with affinity := t } ∧
      (∀ k, evicted = some k → s.affinity[key]? = none ∧ maxAffinityBindings ≤ s.affinity.size ∧
        LeastRecentlyUsed s.affinity k) ∧ ∀ k, k ≠ key → some k ≠ evicted → t[k]? = s.affinity[k]? := by
  have hplain : ∀ k, k ≠ key → (s.affinity.insert key a)[k]? = s.affinity[k]? := fun k hk => by
    rw [get_insert, if_neg (Ne.symm hk)]
  unfold RegistryState.insertBoundedAffinity
  split_ifs with hfull
  · cases ho : s.oldestAffinity with
    | none => exact ⟨_, none, rfl, by simp, fun k hk _ => hplain k hk⟩
    | some oldest =>
      refine ⟨_, some oldest, rfl, ?_, ?_⟩
      · rintro k ⟨rfl⟩
        exact ⟨hfull.1, hfull.2, oldestAffinity_lru ho⟩
      · intro k hk hne
        rw [get_insert, if_neg (Ne.symm hk), get_erase, if_neg]
        rintro rfl
        exact hne rfl
  · exact ⟨_, none, rfl, by simp, fun k hk _ => hplain k hk⟩

theorem touchAffinity_cases (request : SelectionRequest) :
    touchAffinity s request = s ∨ ∃ key a b, request.affinityKey = some key ∧
      s.affinity[key]? = some a ∧ touchAffinity s request = { s with affinity := s.affinity.insert key b } := by
  unfold touchAffinity
  cases hk : request.affinityKey with
  | none => exact .inl rfl
  | some key =>
    cases ha : s.affinity[key]? with
    | none => exact .inl (by simp [ha])
    | some a =>
      exact .inr ⟨key, a, { a with lastUsedAt := request.now, expiresAt := expiresAt request }, rfl, ha, by simp [ha]⟩

/-- What picking a candidate does: the strategy state of the request's own scope, and at most a
refresh of the request's own affinity entry. -/
structure PickFrame (s s' : RegistryState) (request : SelectionRequest) : Prop
    extends StrategyFrame s s' (poolScope (resolveRequest s request)) where
  affinity : s'.affinity = s.affinity ∨ ∃ key a b, request.affinityKey = some key ∧
    s.affinity[key]? = some a ∧ s'.affinity = s.affinity.insert key b

theorem pickCandidate_ok {s s' c lookup} (hh : head ∈ tier) (hb : ∀ c decision, lookup = .bound c decision → c ∈ tier)
    (h : pickCandidate s request head tier lookup = .ok (c, decision, s')) : c ∈ tier ∧ PickFrame s s' request := by
  have hchoose : ∀ {d : CandidateEvaluation → AffinityDecision},
      (.ok ((chooseIndex s head tier (resolveRequest s request)).1,
        d (chooseIndex s head tier (resolveRequest s request)).1,
        (chooseIndex s head tier (resolveRequest s request)).2) :
        Except AffinityDecision (CandidateEvaluation × AffinityDecision × RegistryState)) =
        .ok (c, decision, s') → c ∈ tier ∧ PickFrame s s' request := by
    intro d hd
    cases hd
    exact ⟨chooseIndex_mem s hh _,
      { chooseIndex_frame s head tier (resolveRequest s request) with
        affinity := .inl (chooseIndex_affinity s head tier _) }⟩
  cases lookup with
  | refused => cases h
  | bound =>
    cases h
    refine ⟨hb c decision rfl, ?_⟩
    rcases touchAffinity_cases s request with ht | ⟨key, a, b, hk, ha, ht⟩
    · rw [ht]
      exact { StrategyFrame.refl s _ with affinity := .inl rfl }
    · rw [ht]
      exact { StrategyFrame.refl s _ with affinity := .inr ⟨key, a, b, hk, ha, rfl⟩ }
  | rebind key previousProvider =>
    exact hchoose (d := fun c => .rebound key previousProvider c.entry.registration.selectionTarget) h
  | free d => exact hchoose (d := fun _ => d) h

theorem pickCandidate_error {s lookup}
    (h : pickCandidate s request head tier lookup = .error decision) : lookup = .refused decision := by
  cases lookup with
  | refused => cases h; rfl
  | bound | rebind | free => cases h

/-! ### A whole selection -/

section Selection

variable {s s' : RegistryState} {h : HealthRegistry} {request : SelectionRequest}

theorem mem_evaluationsFor (hc : c ∈ evaluationsFor s h request) : Registered s c.entry := by
  simp only [evaluationsFor, evaluateCandidates, mem_map, mem_sortedEntries] at hc
  obtain ⟨e, he, rfl⟩ := hc
  exact he

variable {first : CandidateEvaluation} {rest : List CandidateEvaluation}

section

variable (hel : (evaluationsFor s h request).filter (fun c => c.reasons.isEmpty) = first :: rest)
include hel

theorem mem_bestTier_iff :
    c ∈ bestTier first rest ↔ IsBest s h request c.entry ∧
      c = evaluateCandidate (s.dropExpired request.now) h (resolveRequest s request) c.entry := by
  have hmem : ∀ c, c ∈ first :: rest ↔ Eligible s h request c.entry ∧
      c = evaluateCandidate (s.dropExpired request.now) h (resolveRequest s request) c.entry := by
    intro c
    rw [← hel]
    exact mem_eligible
  rw [mem_bestTier, hmem]
  constructor
  · rintro ⟨⟨he, hc⟩, hle⟩
    refine ⟨⟨he, fun e' he' => ?_⟩, hc⟩
    exact hle (evaluateCandidate (s.dropExpired request.now) h (resolveRequest s request) e') ((hmem _).2 ⟨he', rfl⟩)
  · rintro ⟨⟨he, hle⟩, hc⟩
    exact ⟨⟨he, hc⟩, fun c' hc' => hle _ ((hmem c').1 hc').1⟩

theorem bestPriority_eq (he : IsBest s h request e) : bestPriority first rest = e.registration.priority := by
  have hc := (mem_bestTier_iff hel (c := evaluateCandidate (s.dropExpired request.now) h
    (resolveRequest s request) e)).2 ⟨he, rfl⟩
  rw [bestTier, mem_filter, decide_eq_true_eq] at hc
  exact hc.2.symm

theorem affinityRefuses_iff :
    (∃ decision, affinityLookup (s.dropExpired request.now) request (evaluationsFor s h request)
      (bestTier first rest) (bestPriority first rest) = .refused decision) ↔ AffinityRefuses s h request := by
  obtain ⟨c0, hc0⟩ := exists_mem_of_ne_nil _ (bestTier_ne_nil first rest)
  have hbest := ((mem_bestTier_iff hel).1 hc0).1
  have haff : ∀ (key : AffinityKey) (a : AffinityBinding), (s.dropExpired request.now).affinity[key]? = some a ↔
      s.affinity[key]? = some a ∧ a.expiredAt request.now = false := by
    intro key a
    show (s.affinity.filter _)[key]? = some a ↔ _
    rw [get_filter, Option.filter_eq_some_iff]
    simp
  rw [affinityLookup_refused_iff, AffinityRefuses]
  refine and_congr_right fun _ => exists_congr fun key => exists_congr fun a => and_congr_right fun _ => ?_
  rw [haff, and_assoc]
  refine and_congr_right fun _ => and_congr_right fun _ => and_congr ?_ ?_
  · constructor
    · intro hno e he
      exact hno _ ((mem_bestTier_iff hel (c := evaluateCandidate (s.dropExpired request.now) h
        (resolveRequest s request) e)).2 ⟨he, rfl⟩)
    · intro hno c hc
      exact hno c.entry ((mem_bestTier_iff hel).1 hc).1
  · constructor
    · intro hle e best he hb hbe
      obtain ⟨c, hc, rfl⟩ : ∃ c ∈ evaluationsFor s h request, c.entry = e :=
        ⟨_, mem_map.2 ⟨e, mem_sortedEntries.2 he, rfl⟩, rfl⟩
      rw [← bestPriority_eq hel hbe]
      exact hle c hc hb
    · intro hle c hc hb
      rw [bestPriority_eq hel hbest]
      exact hle c.entry c0.entry (mem_evaluationsFor hc) hb hbest

end

/-- A selection that grants: the lease is for a best entry, affinity did not refuse, and the
state is the one the pick left, with the slot counted and the affinity entry written. -/
structure Granted (s : RegistryState) (h : HealthRegistry) (request : SelectionRequest)
    (lease : LeaseGrant) (s' : RegistryState) (e : RegistryEntry) (mid : RegistryState) : Prop where
  best : IsBest s h request e
  not_refused : ¬AffinityRefuses s h request
  registration : lease.registration = e.registration
  binding : lease.binding = e.registration.binding
  order : lease.registrationOrder = e.order
  pick : PickFrame (s.dropExpired request.now) mid request
  state : s' = takeAffinity (mid.grantSlot e.registration.binding) request e.registration

theorem selectFromState_ok {lease} (hsel : selectFromState s h request = (.ok lease, s')) :
    request.affinityTtl ≠ 0 ∧ ∃ e mid, Granted s h request lease s' e mid := by
  unfold selectFromState at hsel
  by_cases httl : request.affinityTtl = 0
  · rw [if_pos httl] at hsel
    cases hsel
  refine ⟨httl, ?_⟩
  rw [if_neg httl] at hsel
  cases hel : (evaluationsFor s h request).filter (fun c => c.reasons.isEmpty) with
  | nil => simp [hel] at hsel
  | cons first rest =>
    simp only [hel, selectEligible] at hsel
    split at hsel
    · cases hsel
    next c decision mid hpick =>
      obtain ⟨hc, hframe⟩ := pickCandidate_ok (headD_mem (bestTier_ne_nil first rest) first)
        (fun _ _ hb => affinityLookup_bound hb) hpick
      cases hsel
      refine ⟨c.entry, mid, ((mem_bestTier_iff hel).1 hc).1, ?_, rfl, rfl, rfl, hframe, rfl⟩
      intro hr
      obtain ⟨d, hd⟩ := (affinityRefuses_iff hel).2 hr
      rw [hd] at hpick
      cases hpick

theorem selectFromState_error {err} (hsel : selectFromState s h request = (.error err, s')) :
    (request.affinityTtl = 0 ∧ err = .zeroAffinityTtl ∧ s' = s) ∨
      (request.affinityTtl ≠ 0 ∧ s' = s.dropExpired request.now ∧
        (∃ expl, err = .noEligible request.model expl) ∧
        ((¬∃ e, Eligible s h request e) ∨ AffinityRefuses s h request)) := by
  unfold selectFromState at hsel
  by_cases httl : request.affinityTtl = 0
  · rw [if_pos httl] at hsel
    cases hsel
    exact .inl ⟨httl, rfl, rfl⟩
  refine .inr ⟨httl, ?_⟩
  rw [if_neg httl] at hsel
  cases hel : (evaluationsFor s h request).filter (fun c => c.reasons.isEmpty) with
  | nil =>
    simp only [hel] at hsel
    cases hsel
    refine ⟨rfl, ⟨_, rfl⟩, .inl ?_⟩
    rintro ⟨e, he⟩
    have hmem : evaluateCandidate (s.dropExpired request.now) h (resolveRequest s request) e ∈
        (evaluationsFor s h request).filter (fun c => c.reasons.isEmpty) := mem_eligible.2 ⟨he, rfl⟩
    rw [hel] at hmem
    cases hmem
  | cons =>
    simp only [hel, selectEligible] at hsel
    split at hsel
    next hpick =>
      cases hsel
      exact ⟨rfl, ⟨_, rfl⟩, .inr ((affinityRefuses_iff hel).1 ⟨_, pickCandidate_error hpick⟩)⟩
    · cases hsel

end Selection

end Pooler
