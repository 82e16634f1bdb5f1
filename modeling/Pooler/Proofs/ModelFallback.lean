import Pooler.Proofs.Selection
import Pooler.Sanity.ModelFallback

/-! Model fallback against the configured list: when the first model with an eligible target serves the
selection. -/

namespace Pooler

open Lib List Table Except

namespace Fallback

/-! ### Eligible models -/

/-- The model has an eligible target: it is known and enabled, and its registry has an eligible binding
that the affinity of the request does not rule out. -/
def HasEligible (view : PoolView) (input : SelectionInput) (requested : Option String) : Prop :=
  ∃ logical i made, input.resolveStaticTarget requested = .ok logical ∧ input.modelEnabled logical = true ∧
    (Ident.new .model logical).isOk = true ∧ view.registryFor (input.registryKey requested logical) = some i ∧
    input.request requested.isSome logical = some made ∧
    (∃ entry, Eligible (view.world.registries i).state (view.world.registries i).health made entry) ∧
    ¬AffinityRefuses (view.world.registries i).state (view.world.registries i).health made

/-- The call for the model is refused before a registry is asked. -/
def Refused (view : PoolView) (input : SelectionInput) (requested : Option String) : Prop :=
  match input.resolveStaticTarget requested with
  | .error _ => requested = none
  | .ok logical =>
    input.modelEnabled logical = false ∨ (Ident.new .model logical).isOk = false ∨
      (view.registryFor (input.registryKey requested logical) ≠ none ∧ input.request requested.isSome logical = none)

section
variable {view : PoolView} {input : SelectionInput} {context : SelectionContext} {requested : Option String}

theorem lendFrom_cases {key} {i : ℕ} {made} (hkey : view.registryFor key = some i) (httl : made.affinityTtl ≠ 0) :
    ((∃ entry, Eligible (view.world.registries i).state (view.world.registries i).health made entry) ∧
        ¬AffinityRefuses (view.world.registries i).state (view.world.registries i).health made ∧
        ∃ sel, (lendFrom view.toProxyLoop view.world key (some made)).1 = .served sel ∧
          sel.registryKey = key) ∨
      (¬((∃ entry, Eligible (view.world.registries i).state (view.world.registries i).health made entry) ∧
          ¬AffinityRefuses (view.world.registries i).state (view.world.registries i).health made) ∧
        (lendFrom view.toProxyLoop view.world key (some made)).1 = .passed) := by
  rcases hsel : selectFromState (view.world.registries i).state (view.world.registries i).health made with
    ⟨result, state⟩
  unfold lendFrom
  simp only [hkey, World.lend, World.selectWith_eq hsel]
  cases result with
  | ok grant =>
    obtain ⟨-, entry, mid, hg⟩ := selectFromState_ok hsel
    have hind : view.index.contains grant.registration.binding = true := by
      rw [hg.registration]
      exact view.indexed key i entry hkey hg.best.1.1
    simp only [Except.map, hind, if_true]
    exact .inl ⟨⟨entry, hg.best.1⟩, hg.not_refused, _, rfl, rfl⟩
  | error =>
    rcases selectFromState_error hsel with ⟨hz, -, -⟩ | ⟨-, -, ⟨expl, rfl⟩, hwhy⟩
    · exact absurd hz httl
    · refine .inr ⟨?_, rfl⟩
      rintro ⟨helig, hallowed⟩
      rcases hwhy with hn | hrefus
      · exact hn helig
      · exact hallowed hrefus

variable {logical : String}

theorem resolveWithConfiguredModelFallback_ok (h : input.resolveStaticTarget requested = .ok logical) :
    input.resolveWithConfiguredModelFallback requested = .ok logical := by
  cases requested with
  | none => exact h
  | some => simp [SelectionInput.resolveWithConfiguredModelFallback, h]

/-- The call for a model that is known: it is served, refused, or passed on. -/
inductive Told (view : PoolView) (input : SelectionInput) (requested : Option String) (logical : String) :
    Attempt → Prop where
  | served (selection : PoolSelection) (heligible : HasEligible view input requested)
      (hkey : selection.registryKey = input.registryKey requested logical) :
      Told view input requested logical (.served selection)
  | refused (error : PoolError) (hnone : ¬HasEligible view input requested) (hrefused : Refused view input requested) :
      Told view input requested logical (.failed error)
  | passed (hnone : ¬HasEligible view input requested) (hopen : ¬Refused view input requested) :
      Told view input requested logical .passed

theorem told_answer (hkn : input.unknownModel context = none)
    (hresv : input.resolveStaticTarget requested = .ok logical) :
    Told view input requested logical (answer view.toProxyLoop input context requested) := by
  have helig : HasEligible view input requested ↔ input.modelEnabled logical = true ∧
      (Ident.new .model logical).isOk = true ∧ ∃ i made, view.registryFor (input.registryKey requested logical) = some i ∧
        input.request requested.isSome logical = some made ∧
        (∃ entry, Eligible (view.world.registries i).state (view.world.registries i).health made entry) ∧
        ¬AffinityRefuses (view.world.registries i).state (view.world.registries i).health made := by
    simp [HasEligible, hresv]
  have href : Refused view input requested ↔ input.modelEnabled logical = false ∨
      (Ident.new .model logical).isOk = false ∨
        (view.registryFor (input.registryKey requested logical) ≠ none ∧
          input.request requested.isSome logical = none) := by
    unfold Refused
    rw [hresv]
  unfold answer attempt SelectionInput.admitted
  simp only [hkn, resolveWithConfiguredModelFallback_ok hresv]
  cases hena : input.modelEnabled logical with
  | false => exact .refused _ (by simp [helig, hena]) (by simp [href, hena])
  | true =>
    cases hnmd : (Ident.new .model logical).isOk with
    | false => exact .refused _ (by simp [helig, hnmd]) (by simp [href, hnmd])
    | true =>
      simp only [Bool.not_true, Bool.false_eq_true, if_false, if_true]
      cases hreg : view.registryFor (input.registryKey requested logical) with
      | none =>
        simp only [lendFrom, hreg]
        exact .passed (by simp [helig, hreg]) (by simp [href, hena, hnmd, hreg])
      | some i =>
        cases hmade : input.request requested.isSome logical with
        | none =>
          simp only [lendFrom, hreg]
          exact .refused _ (by simp [helig, hmade]) (by simp [href, hreg, hmade])
        | some made =>
          rcases lendFrom_cases hreg (input.request_ttl _ _ _ hmade) with
            ⟨hent, hallowed, sel, hserv, hkey⟩ | ⟨hn, hpass⟩
          · rw [hserv]
            exact .served sel (helig.2 ⟨hena, hnmd, i, made, hreg, hmade, hent, hallowed⟩) hkey
          · rw [hpass]
            refine .passed ?_ (by simp [href, hena, hnmd, hmade])
            rw [helig]
            rintro ⟨-, -, j, req, hi, hm, h⟩
            cases hreg.symm.trans hi
            cases hmade.symm.trans hm
            exact hn h

theorem resolveStaticTarget_some {model} (h : input.resolveStaticTarget (some model) = .ok logical) :
    logical = model := by
  unfold SelectionInput.resolveStaticTarget at h
  simp only at h
  split at h
  · split_ifs at h
    exact (ok.inj h).symm
  · split_ifs at h
    · exact (ok.inj h).symm
    · exact (ok.inj h).symm

variable {model : String}

theorem resolveStaticTarget_fallback (h : model ∈ input.routing.inForce) :
    input.resolveStaticTarget (some model) = .ok model := by
  obtain ⟨targets, htar⟩ := Option.isSome_iff_exists.1 (input.fallbacks_known model (inForce_sublist.subset h))
  have hne : targets.isEmpty = false := by simpa using input.models_targeted model targets htar
  simp [SelectionInput.resolveStaticTarget, htar, hne]

def servingKey (input : SelectionInput) : Option String → String
  | none => routeRegistryKey input.route.routeId
  | some model => model

theorem registryKey_eq (h : input.resolveStaticTarget requested = .ok logical) :
    input.registryKey requested logical = servingKey input requested := by
  cases requested with
  | none => rfl
  | some => exact resolveStaticTarget_some h

section
variable {logical : String} {given : Attempt}

section

variable (h : Told view input requested logical given)
include h

section

variable (hn : ¬HasEligible view input requested)
include hn

theorem Told.not_served (sel : PoolSelection) : given ≠ .served sel := by
  rintro rfl
  cases h with
  | served _ helig => exact hn helig

theorem Told.fails (href : Refused view input requested) : ∃ error, given = .failed error := by
  cases h with
  | served _ helig => exact absurd helig hn
  | refused error => exact ⟨error, rfl⟩
  | passed _ ho => exact absurd href ho

theorem Told.passes (ho : ¬Refused view input requested) : given = .passed := by
  cases h with
  | served _ helig => exact absurd helig hn
  | refused _ _ href => exact absurd href ho
  | passed => rfl

end

theorem Told.serves (helig : HasEligible view input requested) :
    ∃ sel, given = .served sel ∧ sel.registryKey = input.registryKey requested logical := by
  cases h with
  | served sel _ hkey => exact ⟨sel, rfl, hkey⟩
  | refused _ hno | passed hno => exact absurd helig hno

end

end

section
variable {before after : List (Option String)} {next : Option String}

/-- Known models asked in turn: the first eligible one serves exactly if it is asked and no model that
is asked before it is refused. -/
theorem settle_eligible (keep : Option String → Bool) (exhausted : PoolError) (hkn : input.unknownModel context = none)
    (hresv : ∀ asked ∈ before ++ next :: after, ∃ logical, input.resolveStaticTarget asked = .ok logical)
    (hn : ∀ asked ∈ before, ¬HasEligible view input asked) (hnext : HasEligible view input next)
    (hnmd : none ∉ after) (hkeep : keep none = true) :
    (∃ sel, settle (answer view.toProxyLoop input context) exhausted ((before ++ next :: after).filter keep) =
        .ok sel ∧ sel.registryKey = servingKey input next) ↔
      keep next = true ∧ ∀ asked ∈ before, keep asked = true → ¬Refused view input asked := by
  have htold : ∀ asked ∈ before ++ next :: after, ∃ logical, input.resolveStaticTarget asked = .ok logical ∧
      Told view input asked logical (answer view.toProxyLoop input context asked) := by
    intro asked hask
    obtain ⟨logical, hlog⟩ := hresv asked hask
    exact ⟨logical, hlog, told_answer hkn hlog⟩
  rw [filter_append]
  constructor
  · rintro ⟨sel, hset, hkey⟩
    refine ⟨?_, ?_⟩
    · -- no other candidate that is asked has the same registry
      by_contra hskip
      obtain ⟨asked, hask, hserv⟩ := settle_ok_mem hset
      rw [filter_cons_of_neg hskip, mem_append, mem_filter, mem_filter] at hask
      have hmem : asked ∈ before ++ next :: after := by rcases hask with ⟨h, -⟩ | ⟨h, -⟩ <;> simp [h]
      obtain ⟨logical, hlog, ht⟩ := htold asked hmem
      rcases hask with ⟨hbef, -⟩ | ⟨haft, hkept⟩
      · exact ht.not_served (hn asked hbef) sel hserv
      · rw [hserv] at ht
        cases ht with
        | served _ _ hown =>
          rw [hkey, registryKey_eq hlog] at hown
          cases asked with
          | none => exact hnmd haft
          | some model =>
            cases next with
            | none => exact hskip hkeep
            | some name =>
              have hmod : name = model := hown
              exact hskip (hmod ▸ hkept)
    · intro asked hask hkept href
      have hserv : ∀ other ∈ before.filter keep, ∀ value,
          answer view.toProxyLoop input context other ≠ .served value := by
        intro other hoth value
        have hbef := mem_of_mem_filter hoth
        obtain ⟨logical, -, ht⟩ := htold other (mem_append_left _ hbef)
        exact ht.not_served (hn other hbef) value
      obtain ⟨logical, -, ht⟩ := htold asked (mem_append_left _ hask)
      obtain ⟨error, herr⟩ := settle_append_failed exhausted hserv
        ⟨asked, mem_filter.2 ⟨hask, hkept⟩, ht.fails (hn asked hask) href⟩
        ((next :: after).filter keep)
      rw [herr] at hset
      cases hset
  · rintro ⟨hkept, ho⟩
    have hpass : ∀ asked ∈ before.filter keep, answer view.toProxyLoop input context asked = .passed := by
      intro asked hask
      obtain ⟨hbef, hk⟩ := mem_filter.1 hask
      obtain ⟨logical, -, ht⟩ := htold asked (mem_append_left _ hbef)
      exact ht.passes (hn asked hbef) (ho asked hbef hk)
    obtain ⟨logical, hlog, ht⟩ := htold next (by simp)
    obtain ⟨sel, hserv, hkey⟩ := ht.serves hnext
    rw [settle_append_passed hpass, filter_cons_of_pos hkept, settle_cons_served hserv]
    exact ⟨sel, rfl, hkey.trans (registryKey_eq hlog)⟩

end

variable {error : PoolError}

/-- A request that must name a known model and does not is refused, whatever the fallbacks. -/
theorem answer_unknown (h : input.unknownModel context = some error) :
    answer view.toProxyLoop input context requested = .failed error := by
  unfold answer attempt SelectionInput.admitted
  simp [h]

theorem answer_unnamed (view : PoolView) (context : SelectionContext)
    (h : input.resolveStaticTarget none = .error error) :
    ∃ error, answer view.toProxyLoop input context none = .failed error := by
  cases hkn : input.unknownModel context with
  | some error => exact ⟨error, answer_unknown hkn⟩
  | none =>
    refine ⟨error, ?_⟩
    unfold answer attempt SelectionInput.admitted SelectionInput.resolveWithConfiguredModelFallback
    simp [hkn, h]

theorem not_mem_inForce
    (h : input.resolveStaticTarget (some model) = .error error) : model ∉ input.routing.inForce := by
  intro hmem
  rw [resolveStaticTarget_fallback hmem] at h
  cases h

theorem inForce_cons {fallback more} (h : input.routing.inForce = fallback :: more) :
    input.routing.allowFallbacks = true ∧ input.routing.fallbackModels = fallback :: more := by
  unfold FallbackRouting.inForce at h
  split_ifs at h with hallow
  exact ⟨hallow, h⟩

theorem answer_unresolved {model fallback more}
    (h : input.resolveStaticTarget (some model) = .error error) (hlist : input.routing.inForce = fallback :: more) :
    answer view.toProxyLoop input context (some model) = answer view.toProxyLoop input context (some fallback) := by
  have hfst : fallback ∈ input.routing.inForce := by
    rw [hlist]
    exact mem_cons_self
  have hne : fallback ≠ model := by
    rintro rfl
    exact not_mem_inForce h hfst
  have hkn := resolveStaticTarget_fallback hfst
  obtain ⟨hallow, hmodels⟩ := inForce_cons hlist
  have hstan : input.resolveFallback model input.routing.fallbackModels = some fallback := by
    rw [hmodels, SelectionInput.resolveFallback, if_neg hne, hkn]
  have hresv : input.resolveWithConfiguredModelFallback (some model) =
      input.resolveWithConfiguredModelFallback (some fallback) := by
    rw [resolveWithConfiguredModelFallback_ok hkn]
    simp [SelectionInput.resolveWithConfiguredModelFallback, h, hallow, hstan]
  unfold answer attempt SelectionInput.admitted
  rw [hresv]
  rfl

/-! ### The property and when it holds -/

/-- The first candidate with an eligible target serves the selection, and it fails only if there is none. -/
def Covers (view : PoolView) (input : SelectionInput) (model : Option String) (context : SelectionContext) : Prop :=
  (∀ before next after, candidates input.routing (input.requestedModel model context) = before ++ next :: after →
    (∀ asked ∈ before, ¬HasEligible view input asked) → HasEligible view input next →
      ∃ selection, (selectWithContext view input model context).1 = .ok selection ∧
        selection.registryKey = servingKey input next) ∧
  ∀ error, (selectWithContext view input model context).1 = .error error →
    ∀ asked ∈ candidates input.routing (input.requestedModel model context), ¬HasEligible view input asked

/-- Nothing is in the way of a candidate: the request passes its own check, the candidate is not the
skipped one, and none that is asked before it is refused. -/
def Clear (view : PoolView) (input : SelectionInput) (model : Option String) (context : SelectionContext)
    (before : List (Option String)) (next : Option String) : Prop :=
  input.unknownModel context = none ∧ skips input.routing (input.requestedModel model context) next = false ∧
    ∀ asked ∈ before, skips input.routing (input.requestedModel model context) asked = false → ¬Refused view input asked

theorem mem_candidates_tail {routing : FallbackRouting} {asked}
    (h : asked ∈ (routing.inForce.map some).filter (· ≠ requested)) : ∃ model ∈ routing.inForce, asked = some model := by
  obtain ⟨model, hmod, rfl⟩ := mem_map.1 (mem_of_mem_filter h)
  exact ⟨model, hmod, rfl⟩

section
variable {before after : List (Option String)} {next : Option String}

/-- The candidates but for the skipped one are asked in turn. -/
def asks (view : PoolView) (input : SelectionInput) (context : SelectionContext) (requested : Option String) :
    List (Option String) → Except PoolError PoolSelection := fun asked =>
  settle (answer view.toProxyLoop input context) (.noEligible input.policyId)
    (asked.filter (fun model => !skips input.routing requested model))

theorem asks_failed (h : answer view.toProxyLoop input context requested = .failed error) :
    asks view input context requested (candidates input.routing requested) = .error error := by
  unfold asks candidates
  rw [filter_cons_of_pos (by rw [skips_self]; rfl), settle_cons_failed h]

/-- Known candidates: the first eligible one serves exactly if nothing is in its way. -/
theorem asks_known (hkn : input.unknownModel context = none)
    (hresv : ∀ asked ∈ before ++ next :: after, ∃ logical, input.resolveStaticTarget asked = .ok logical)
    (hn : ∀ asked ∈ before, ¬HasEligible view input asked) (hnext : HasEligible view input next)
    (hnmd : none ∉ after) :
    (∃ sel, asks view input context requested (before ++ next :: after) = .ok sel ∧
        sel.registryKey = servingKey input next) ↔
      skips input.routing requested next = false ∧
        ∀ asked ∈ before, skips input.routing requested asked = false → ¬Refused view input asked := by
  have h := settle_eligible (fun model => !skips input.routing requested model) (.noEligible input.policyId)
    hkn hresv hn hnext hnmd (by simp [skips_none])
  simpa [asks] using h

theorem none_not_mem_after (before : List (Option String))
    (hspl : candidates input.routing requested = before ++ next :: after) : none ∉ after := by
  intro hmem
  have htail : none ∈ (input.routing.inForce.map some).filter (· ≠ requested) := by
    cases before with
    | nil =>
      rw [candidates, nil_append] at hspl
      rw [(cons.inj hspl).2]
      exact hmem
    | cons =>
      rw [candidates, cons_append] at hspl
      rw [(cons.inj hspl).2]
      exact mem_append_right _ (mem_cons_of_mem _ hmem)
  obtain ⟨model, -, hmod⟩ := mem_candidates_tail htail
  cases hmod

/-- A requested model that is not known has the first fallback model in its place. -/
theorem asks_unresolved (hkn : input.unknownModel context = none)
    (herr : input.resolveStaticTarget (some model) = .error error)
    (hspl : candidates input.routing (some model) = some model :: (before ++ next :: after))
    (hn : ∀ asked ∈ before, ¬HasEligible view input asked) (hnext : HasEligible view input next) :
    (∃ sel, asks view input context (some model) (candidates input.routing (some model)) = .ok sel ∧
        sel.registryKey = servingKey input next) ↔
      skips input.routing (some model) next = false ∧
        ∀ asked ∈ before, skips input.routing (some model) asked = false → ¬Refused view input asked := by
  have htail : input.routing.inForce.map some = before ++ next :: after := by
    rw [candidates] at hspl
    rw [← (cons.inj hspl).2, filter_eq_self.2]
    intro asked hask
    obtain ⟨name, hname, rfl⟩ := mem_map.1 hask
    have hne : name ≠ model := fun h => not_mem_inForce herr (h ▸ hname)
    simpa using hne
  have hresv : ∀ asked ∈ before ++ next :: after, ∃ logical, input.resolveStaticTarget asked = .ok logical := by
    intro asked hask
    rw [← htail] at hask
    obtain ⟨name, hname, rfl⟩ := mem_map.1 hask
    exact ⟨name, resolveStaticTarget_fallback hname⟩
  obtain ⟨first, more, hlist⟩ : ∃ first more, input.routing.inForce = first :: more := by
    apply exists_cons_of_ne_nil
    intro hnil
    rw [hnil] at htail
    simp at htail
  have hasks : asks view input context (some model) (candidates input.routing (some model)) =
      asks view input context (some model) (before ++ next :: after) := by
    rw [hspl, ← htail, hlist, map_cons]
    unfold asks
    rw [filter_cons_of_pos (by rw [skips_self]; rfl), filter_cons_of_pos (by rw [skips_first hlist]; rfl),
      settle_cons_alike (answer_unresolved herr hlist)]
  rw [hasks]
  exact asks_known hkn hresv hn hnext (none_not_mem_after (some model :: before) hspl)

theorem resolves_of_mem_candidates {logical} (hresv : input.resolveStaticTarget requested = .ok logical)
    {asked} (h : asked ∈ candidates input.routing requested) :
    ∃ logical, input.resolveStaticTarget asked = .ok logical := by
  rcases mem_cons.1 h with rfl | h
  · exact ⟨logical, hresv⟩
  · obtain ⟨model, hmod, rfl⟩ := mem_candidates_tail h
    exact ⟨model, resolveStaticTarget_fallback hmod⟩

/-- The first candidate with an eligible target serves the selection exactly if nothing is in its way. -/
theorem serves_iff_clear {model}
    (hspl : candidates input.routing (input.requestedModel model context) = before ++ next :: after)
    (hn : ∀ asked ∈ before, ¬HasEligible view input asked) (hnext : HasEligible view input next) :
    (∃ sel, (selectWithContext view input model context).1 = .ok sel ∧
        sel.registryKey = servingKey input next) ↔ Clear view input model context before next := by
  have hasks : (selectWithContext view input model context).1 = asks view input context
      (input.requestedModel model context) (candidates input.routing (input.requestedModel model context)) :=
    selectWithContext_eq_settle view input model context
  unfold Clear
  rw [hasks]
  generalize input.requestedModel model context = requested at hspl ⊢
  cases hkn : input.unknownModel context with
  | some =>
    rw [asks_failed (answer_unknown hkn)]
    simp
  | none =>
    simp only [true_and]
    cases hresv : input.resolveStaticTarget requested with
    | ok logical =>
      have hall : ∀ asked ∈ before ++ next :: after, ∃ logical, input.resolveStaticTarget asked = .ok logical := by
        intro asked hask
        exact resolves_of_mem_candidates hresv (hspl ▸ hask)
      rw [hspl]
      exact asks_known hkn hall hn hnext (none_not_mem_after before hspl)
    | error error =>
      -- the requested model has no target of its own, so it is not the one that is eligible
      cases before with
      | nil =>
        obtain ⟨logical, -, -, hlog, -⟩ := hnext
        rw [← (cons.inj hspl).1, hresv] at hlog
        cases hlog
      | cons head =>
        obtain rfl : requested = head := (cons.inj hspl).1
        cases requested with
        | none =>
          obtain ⟨error, hfail⟩ := answer_unnamed view context hresv
          have href : Refused view input none := by
            unfold Refused
            rw [hresv]
          rw [asks_failed hfail]
          simp [href, skips_none]
        | some name =>
          have ho : ¬Refused view input (some name) := by
            unfold Refused
            rw [hresv]
            exact nofun
          rw [asks_unresolved hkn hresv hspl (fun asked h => hn asked (mem_cons_of_mem _ h)) hnext]
          simp [ho]

end


theorem model_fallback_covers_list (view : PoolView) (input : SelectionInput) (model : Option String)
    (context : SelectionContext) :
    Covers view input model context ↔ ∀ before next after,
      candidates input.routing (input.requestedModel model context) = before ++ next :: after →
      (∀ asked ∈ before, ¬HasEligible view input asked) → HasEligible view input next →
        Clear view input model context before next := by
  constructor
  · rintro ⟨hser, -⟩ before next after hspl hn hnext
    exact (serves_iff_clear hspl hn hnext).1 (hser before next after hspl hn hnext)
  · intro hclr
    have hser : ∀ before next after,
        candidates input.routing (input.requestedModel model context) = before ++ next :: after →
        (∀ asked ∈ before, ¬HasEligible view input asked) → HasEligible view input next →
        ∃ selection, (selectWithContext view input model context).1 = .ok selection ∧
          selection.registryKey = servingKey input next := by
      intro before next after hspl hn hnext
      exact (serves_iff_clear hspl hn hnext).2 (hclr before next after hspl hn hnext)
    refine ⟨hser, ?_⟩
    intro error herr asked hask helig
    obtain ⟨before, next, after, hspl, hn, hnext⟩ := exists_first ⟨asked, hask, helig⟩
    obtain ⟨selection, hselec, -⟩ := hser before next after hspl hn hnext
    rw [herr] at hselec
    cases hselec

end

/-! ### A model that is not tried -/

def sampleTarget (name : String) : ModelTargetPlan :=
  { id := name, bindingId := name, provider := "provider", account := none, accountPool := none, priority := 0
    weight := 1, capabilities := .new, codecs := [] }

/-- Two fallback models, of which the second has a registry. -/
def twoFallbacks : SelectionInput where
  models := ((∅ : Table String (List ModelTargetPlan)).insert "other" [sampleTarget "other"]).insert "model"
    [sampleTarget "model"]
  catalog := []
  disabledModels := []
  overlayDisabledModels := []
  route := { routeId := "route", upstream := "provider", hasModelSource := false, policy := some "policy"
             capabilities := .new, codecs := [] }
  policyId := "policy"
  routing := { allowFallbacks := true, fallbackModels := ["other", "model"], unique := by decide, named := by decide }
  now := 0
  request _ _ := some sampleRequest
  request_now := by
    rintro _ _ _ ⟨⟩
    rfl
  request_ttl := by
    rintro _ _ _ ⟨⟩
    decide
  models_targeted := by
    intro model targets h
    rw [get_insert, get_insert] at h
    split_ifs at h
    · cases h
      exact cons_ne_nil _ _
    · cases h
      exact cons_ne_nil _ _
    · simp at h
  fallbacks_known := by
    intro model h
    rw [get_insert, get_insert]
    rcases mem_cons.1 h with rfl | h
    · rfl
    · rw [mem_singleton.1 h]
      rfl

def oneRegistry : PoolView where
  world := { registries := fun _ => RegistryInner.register {} sampleRegistration }
  keys := ["model"]
  index := (∅ : BindingIndex).insert sampleBinding sampleRegistration.provider
  indexed := by
    intro key i entry _ hentry
    have hget : (Slots.empty.put ⟨sampleRegistration, true, 0, 0⟩).get entry.registration.binding = some entry := hentry
    have hbinding : sampleBinding = entry.registration.binding := by
      rw [Slots.get_put] at hget
      split_ifs at hget with h
      · exact h
      · cases hget
    rw [← hbinding]
    decide

def requestedOnly : SelectionContext := { model := none, modelMustResolve := false, fallbackDepth := 0 }

/-- The requested model has no registry and neither has the first fallback; the second is not asked. -/
theorem second_fallback_is_skipped :
    candidates twoFallbacks.routing (some "requested") = [some "requested", some "other"] ++ some "model" :: [] ∧
      (∀ asked ∈ [some "requested", some "other"], ¬HasEligible oneRegistry twoFallbacks asked) ∧
      HasEligible oneRegistry twoFallbacks (some "model") ∧
      (selectWithContext oneRegistry twoFallbacks (some "requested") requestedOnly).1 = .error (.noEligible "policy") := by
  have hn : ∀ model, model ≠ "model" → ¬HasEligible oneRegistry twoFallbacks (some model) := by
    rintro model hne ⟨logical, i, made, hresv, -, -, hreg, -⟩
    rw [registryKey_eq hresv] at hreg
    have : oneRegistry.registryFor model = none := by
      simp [ProxyLoop.registryFor, oneRegistry, List.idxOf?, findIdx?_cons, Ne.symm hne]
    exact absurd (this.symm.trans hreg) nofun
  refine ⟨by decide, ?_, ?_, by rfl⟩
  · intro asked hask
    rcases mem_cons.1 hask with rfl | hask
    · exact hn "requested" (by decide)
    · rw [mem_singleton.1 hask]
      exact hn "other" (by decide)
  · have htold : Told oneRegistry twoFallbacks (some "model") "model"
        (answer oneRegistry.toProxyLoop twoFallbacks requestedOnly (some "model")) := told_answer (by decide) (by rfl)
    have hserv : ∃ selection, answer oneRegistry.toProxyLoop twoFallbacks requestedOnly (some "model") =
        .served selection := ⟨_, by rfl⟩
    obtain ⟨selection, hselec⟩ := hserv
    rw [hselec] at htold
    cases htold with
    | served _ helig => exact helig

end Fallback

end Pooler
