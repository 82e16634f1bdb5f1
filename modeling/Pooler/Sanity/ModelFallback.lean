import Pooler.Sanity.Lease
import Pooler.Spec.Http.ModelFallback

/-! The calls of a selection with model fallback. A refusal for want of an eligible target leaves the
answers of all registries as they were, so the calls ask a list of models in turn; the list is compared
with the configured one. -/

namespace Pooler

open Lib RegistryState List

theorem table_filter_filter {κ ν : Type} [StringKeyed κ] (t : Table κ ν) (q : κ → ν → Bool) :
    (t.filter q).filter q = t.filter q := by
  apply Std.ExtTreeMap.ext_getElem?
  intro k
  rw [Table.get_filter, Table.get_filter]
  cases h : t[k]? with
  | none => rfl
  | some v => cases hq : q k v <;> simp [Option.filter, hq]

theorem RegistryState.dropExpired_dropExpired (s : RegistryState) (now : ℕ) :
    (s.dropExpired now).dropExpired now = s.dropExpired now := by
  unfold RegistryState.dropExpired RegistryState.purgeExpiredAffinity RegistryState.recoverQuotas
  simp [table_filter_filter]

theorem selectFromState_dropExpired (s : RegistryState) (h : HealthRegistry) (request : SelectionRequest) :
    (selectFromState (s.dropExpired request.now) h request).1 = (selectFromState s h request).1 := by
  have heval : evaluationsFor (s.dropExpired request.now) h request = evaluationsFor s h request := by
    unfold evaluationsFor
    rw [dropExpired_dropExpired, resolveRequest_dropExpired]
  have hexp : candidatesExplanation (s.dropExpired request.now) h request =
      candidatesExplanation s h request := by
    unfold candidatesExplanation
    rw [heval, resolveRequest_dropExpired]
  unfold selectFromState
  rw [heval, hexp, dropExpired_dropExpired]
  split_ifs
  · rfl
  · rfl

namespace Fallback

/-- The worlds differ in expired entries only. -/
structure Settled (now : ℕ) (w w' : World) : Prop where
  holdings : w'.holdings = w.holdings
  health : ∀ i, (w'.registries i).health = (w.registries i).health
  state : ∀ i, (w'.registries i).state = (w.registries i).state ∨
    (w'.registries i).state = (w.registries i).state.dropExpired now

theorem Settled.refl (now : ℕ) (w : World) : Settled now w w := ⟨rfl, fun _ => rfl, fun _ => .inl rfl⟩

variable {request : SelectionRequest} {now : ℕ} {err : SelectionError}

theorem Settled.selectWith {w w' w''} {i : ℕ} (h : Settled now w w') (hnow : request.now = now)
    (hsel : w'.selectWith i (w'.registries i).health request = (.error err, w'')) : Settled now w w'' := by
  rcases hs : selectFromState (w'.registries i).state (w'.registries i).health request with ⟨result, state⟩
  rw [World.selectWith_eq hs] at hsel
  obtain ⟨rfl, rfl⟩ := Prod.mk.inj hsel
  -- the expired entries are gone from here on, however often that is done
  have hstate : state = (w.registries i).state ∨ state = (w.registries i).state.dropExpired now := by
    rcases selectFromState_error hs with ⟨-, -, rfl⟩ | ⟨-, rfl, -⟩
    · exact h.state i
    · rcases h.state i with hi | hi
      · exact .inr (by rw [hi, hnow])
      · exact .inr (by rw [hi, hnow, dropExpired_dropExpired])
  have hall := (Function.forall_update_iff w'.registries (b := { w'.registries i with state }) fun j r =>
    r.health = (w.registries j).health ∧
      (r.state = (w.registries j).state ∨ r.state = (w.registries j).state.dropExpired now)).2
    ⟨⟨h.health i, hstate⟩, fun j _ => ⟨h.health j, h.state j⟩⟩
  exact ⟨h.holdings, fun j => (hall j).1, fun j => (hall j).2⟩

variable {w w' : World}

theorem Settled.grants_alike (h : Settled now w w') (i : ℕ) (hnow : request.now = now) :
    (w'.selectWith i (w'.registries i).health request).1 = (w.selectWith i (w.registries i).health request).1 := by
  show (selectFromState (w'.registries i).state (w'.registries i).health request).1 =
    (selectFromState (w.registries i).state (w.registries i).health request).1
  rw [h.health i]
  rcases h.state i with hs | hs
  · rw [hs]
  · rw [hs, ← hnow, selectFromState_dropExpired]

theorem Settled.lend (h : Settled now w w') (key : String) (i : ℕ) (hnow : request.now = now) :
    (w'.lend key i request).1 = (w.lend key i request).1 := by
  show Except.map _ (w'.selectWith i (w'.registries i).health request).1 =
    Except.map _ (w.selectWith i (w.registries i).health request).1
  rw [h.grants_alike i hnow, h.holdings]

theorem Settled.lend_error {w w' w'' key} {i : ℕ} (h : Settled now w w') (hnow : request.now = now)
    (hlend : w'.lend key i request = (.error err, w'')) : Settled now w w'' := by
  rcases hs : w'.selectWith i (w'.registries i).health request with ⟨result, mid⟩
  unfold World.lend at hlend
  rw [hs] at hlend
  obtain ⟨hres, rfl⟩ := Prod.mk.inj hlend
  cases result with
  | ok => cases hres
  | error => exact h.selectWith hnow hs

/-- An answer from a registry, in any settled world, with the world after a pass. -/
theorem Settled.lendFrom (h : Settled now w w') (s : ProxyLoop) (key : String)
    {request} (hnow : ∀ made, request = some made → made.now = now) :
    (lendFrom s w' key request).1 = (lendFrom s w key request).1 ∧
      ((lendFrom s w' key request).1 = .passed → Settled now w (lendFrom s w' key request).2) := by
  unfold Fallback.lendFrom
  cases s.registryFor key with
  | none => exact ⟨rfl, fun _ => h⟩
  | some i =>
    cases request with
    | none => exact ⟨rfl, fun hp => nomatch hp⟩
    | some request =>
      have hans := h.lend key i (hnow request rfl)
      dsimp only
      rcases hl : w.lend key i request with ⟨result, mid⟩
      rcases hl' : w'.lend key i request with ⟨result', mid'⟩
      rw [hl, hl'] at hans
      dsimp only at hans
      subst hans
      cases result' with
      | ok =>
        dsimp only
        split_ifs with hind
        · exact ⟨rfl, fun hp => nomatch hp⟩
        · exact ⟨rfl, fun hp => nomatch hp⟩
      | error err =>
        cases err with
        | noEligible => exact ⟨rfl, fun _ => h.lend_error (hnow request rfl) hl'⟩
        | _ => exact ⟨rfl, fun hp => nomatch hp⟩

variable (s : ProxyLoop) (input : SelectionInput)

/-- What asking for a model comes to at the start of a selection. -/
def answer (context : SelectionContext) (requested : Option String) : Attempt :=
  (attempt s input context s.world requested).1

theorem Settled.attempt {s input w} (h : Settled input.now s.world w)
    (context : SelectionContext) (requested : Option String) :
    (attempt s input context w requested).1 = answer s input context requested ∧
      ((attempt s input context w requested).1 = .passed →
        Settled input.now s.world (attempt s input context w requested).2) := by
  unfold answer Fallback.attempt
  cases input.admitted context requested with
  | error => exact ⟨rfl, fun hp => nomatch hp⟩
  | ok logical => exact h.lendFrom s (input.registryKey requested logical) (input.request_now requested.isSome logical)

/-! ### The models that are asked -/

/-- The models of the calls from one call on. -/
def visits (routing : FallbackRouting) : ℕ → Option String → SelectionContext → List (Option String)
  | 0, _, _ => []
  | fuel + 1, requested, context =>
    requested ::
      match nextModelFallback routing requested context with
      | none => []
      | some fallback => visits routing fuel (some fallback) { context with fallbackDepth := context.fallbackDepth + 1 }

theorem answer_congr {context first}
    (hmod : context.model = first.model) (hmust : context.modelMustResolve = first.modelMustResolve) :
    answer s input context = answer s input first := by
  have hadm : input.admitted context = input.admitted first := by
    funext requested
    unfold SelectionInput.admitted SelectionInput.unknownModel SelectionInput.contextualModel
    rw [hmod, hmust]
  funext requested
  unfold answer attempt
  rw [hadm]

theorem selectFrom_eq_settle (first : SelectionContext) :
    ∀ fuel w model context, Settled input.now s.world w →
      context.model = first.model → context.modelMustResolve = first.modelMustResolve →
      (selectFrom s input fuel w model context).1 =
        settle (answer s input first) (.noEligible input.policyId)
          (visits input.routing fuel (input.requestedModel model context) context) := by
  intro fuel
  induction fuel with
  | zero =>
    intro w model context _ _ _
    rfl
  | succ fuel ih =>
    intro w model context hw hmod hmust
    obtain ⟨hsame, hpass⟩ := hw.attempt context (input.requestedModel model context)
    rw [answer_congr s input hmod hmust] at hsame
    unfold selectFrom visits
    rcases ha : attempt s input context w (input.requestedModel model context) with ⟨given, mid⟩
    rw [ha] at hsame hpass
    cases given with
    | served =>
      rw [settle_cons_served hsame.symm]
      simp [ha]
    | failed =>
      rw [settle_cons_failed hsame.symm]
      simp [ha]
    | passed =>
      rw [settle_cons_passed hsame.symm]
      simp only [ha]
      cases nextModelFallback input.routing (input.requestedModel model context) context with
      | none => rfl
      | some fallback => exact ih mid (some fallback) _ (hpass rfl) hmod hmust

/-! ### The calls against the configured list -/

variable (routing : FallbackRouting)

/-- The fallback models that a selection may use. -/
def FallbackRouting.inForce : List String := if routing.allowFallbacks then routing.fallbackModels else []

/-- The requested model and then the fallback models, in order and without the requested one. -/
def candidates (requested : Option String) : List (Option String) :=
  requested :: (routing.inForce.map some).filter (· ≠ requested)

/-- The second fallback model is left out, where the requested one is not among the first two. -/
def skips (requested model : Option String) : Bool :=
  match routing.inForce with
  | first :: second :: _ => model = some second && requested ≠ some first && requested ≠ some second
  | _ => false

section
variable {routing : FallbackRouting}

theorem inForce_sublist : routing.inForce.Sublist routing.fallbackModels := by
  unfold FallbackRouting.inForce
  split_ifs
  · exact List.Sublist.refl _
  · exact nil_sublist _

theorem inForce_nodup : routing.inForce.Nodup := inForce_sublist.nodup routing.unique

theorem nextModelFallback_eq (requested : Option String) (context : SelectionContext) :
    nextModelFallback routing requested context =
      (routing.inForce.filter (· ≠ requested.getD ""))[context.fallbackDepth]? := by
  unfold nextModelFallback FallbackRouting.inForce
  cases routing.allowFallbacks with
  | false | true => rfl

theorem filter_ne_place (before : List String) {after model}
    (h : (before ++ model :: after).Nodup) : (before ++ model :: after).filter (· ≠ model) = before ++ after := by
  rw [nodup_append, nodup_cons] at h
  obtain ⟨-, ⟨haft, -⟩, hbef⟩ := h
  rw [filter_append, filter_cons_of_neg (by simp)]
  congr 1
  · rw [filter_eq_self]
    intro x hx
    simpa using hbef x hx model mem_cons_self
  · rw [filter_eq_self]
    intro x hx
    have : x ≠ model := fun hxm => haft (hxm ▸ hx)
    simpa using this

section

variable (context : SelectionContext)

theorem nextModelFallback_place {before after model} (hlist : routing.inForce = before ++ model :: after) :
    nextModelFallback routing (some model) { context with fallbackDepth := before.length } = after[0]? := by
  rw [nextModelFallback_eq, hlist, Option.getD_some, filter_ne_place before (hlist ▸ inForce_nodup),
    List.getElem?_append_right le_rfl, Nat.sub_self]

/-- From a call for the model at the place of its depth, the calls go through the rest of the list. -/
theorem visits_place :
    ∀ after fuel before model, routing.inForce = before ++ model :: after → after.length ≤ fuel →
      visits routing (fuel + 1) (some model) { context with fallbackDepth := before.length } =
        (model :: after).map some := by
  intro after
  induction after with
  | nil =>
    intro fuel before model hlist _
    rw [visits, nextModelFallback_place context hlist]
    rfl
  | cons next after ih =>
    intro fuel before model hlist hfuel
    obtain ⟨fuel, rfl⟩ : ∃ n, fuel = n + 1 := ⟨fuel - 1, by simp at hfuel; omega⟩
    have hr := ih fuel (before ++ [model]) next (by simpa using hlist) (by simpa using hfuel)
    rw [length_append, length_singleton] at hr
    rw [visits, nextModelFallback_place context hlist]
    exact congrArg (some model :: ·) hr

/-- The second call is for one of the first two, and the third for the third. -/
theorem visits_second {first second model rest} {fuel : ℕ}
    (hlist : routing.inForce = first :: second :: rest) (hmod : model = first ∨ model = second)
    (hfuel : rest.length ≤ fuel) :
    visits routing (fuel + 1) (some model) { context with fallbackDepth := 1 } = some model :: rest.map some := by
  have hfil : ∃ other, routing.inForce.filter (· ≠ model) = other :: rest := by
    have hnd : (first :: second :: rest).Nodup := hlist ▸ inForce_nodup
    rw [hlist]
    rcases hmod with rfl | rfl
    · exact ⟨second, filter_ne_place [] hnd⟩
    · exact ⟨first, filter_ne_place [first] hnd⟩
  obtain ⟨other, hfil⟩ := hfil
  have hnext : nextModelFallback routing (some model) { context with fallbackDepth := 1 } = rest[0]? := by
    rw [nextModelFallback_eq, Option.getD_some, hfil]
    rfl
  rw [visits, hnext]
  cases rest with
  | nil => rfl
  | cons third rest =>
    obtain ⟨fuel, rfl⟩ : ∃ n, fuel = n + 1 := ⟨fuel - 1, by simp at hfuel; omega⟩
    have hr := visits_place context rest fuel [first, second] third hlist (by simpa using hfuel)
    exact congrArg (some model :: ·) hr

/-- The call after the first is for the first model that is not the requested one. -/
theorem nextModelFallback_first (requested : Option String) (context : SelectionContext) :
    nextModelFallback routing requested { context with fallbackDepth := 0 } =
      (routing.inForce.filter (fun model => some model ≠ requested))[0]? := by
  rw [nextModelFallback_eq]
  congr 1
  apply filter_congr
  intro model hmod
  cases requested with
  | none =>
    have hne : model ≠ "" := by
      rintro rfl
      exact routing.named (inForce_sublist.subset hmod)
    simp [hne]
  | some => simp

theorem visits_only (fuel : ℕ) {first} (hlist : routing.inForce = [first]) :
    visits routing (fuel + 1) (some first) { context with fallbackDepth := 1 } = [some first] := by
  have hnext : nextModelFallback routing (some first) { context with fallbackDepth := 1 } = none := by
    rw [nextModelFallback_eq, hlist]
    simp
  rw [visits, hnext]

end

/-- The calls ask the candidates but for the one that is skipped, and perhaps the requested model
once more. -/
theorem visits_first (routing : FallbackRouting) (requested : Option String) (context : SelectionContext) :
    ∃ more, visits routing (routing.fallbackModels.length + 1) requested { context with fallbackDepth := 0 } =
        requested :: more ∧
      more.filter (· ≠ requested) =
        ((routing.inForce.map some).filter (· ≠ requested)).filter (fun model => !skips routing requested model) := by
  have hlen := (@inForce_sublist routing).length_le
  rw [visits, nextModelFallback_first]
  refine ⟨_, rfl, ?_⟩
  unfold skips
  rcases hlist : routing.inForce with _ | ⟨first, _ | ⟨second, rest⟩⟩
  · rfl
  · obtain ⟨fuel, hfuel⟩ : ∃ n, routing.fallbackModels.length = n + 1 :=
      ⟨routing.fallbackModels.length - 1, by rw [hlist, length_singleton] at hlen; omega⟩
    by_cases hfst : some first = requested
    · simp [hfst]
    · have hcal := visits_only context fuel hlist
      simp [hfst, hfuel, hcal]
  · obtain ⟨fuel, hfuel⟩ : ∃ n, routing.fallbackModels.length = n + 1 :=
      ⟨routing.fallbackModels.length - 1, by rw [hlist] at hlen; simp at hlen; omega⟩
    have hr : rest.length ≤ fuel := by
      rw [hlist, hfuel] at hlen
      simp at hlen
      omega
    have hnd : (first :: second :: rest).Nodup := hlist ▸ inForce_nodup
    have hsec : ∀ model ∈ rest, model ≠ second := by
      rintro model hmod rfl
      exact (nodup_cons.1 (nodup_cons.1 hnd).2).1 hmod
    have hcal : ∀ model, model = first ∨ model = second →
        visits routing (fuel + 1) (some model) { context with fallbackDepth := 1 } = some model :: rest.map some :=
      fun model hmod => visits_second context hlist hmod hr
    rw [hfuel]
    by_cases hfst : some first = requested
    · subst hfst
      have hne : second ≠ first := by
        rintro rfl
        exact (nodup_cons.1 hnd).1 mem_cons_self
      simp [hne, hcal second (.inr rfl)]
    · simp only [filter_cons, hfst, ne_eq, not_false_eq_true, decide_true, if_true, List.getElem?_cons_zero,
        hcal first (.inl rfl), map_cons]
      by_cases hreq : some second = requested
      · simp [hreq]
      · have hne : first ≠ second := by
          rintro rfl
          exact (nodup_cons.1 hnd).1 mem_cons_self
        have hfst' : requested ≠ some first := Ne.symm hfst
        have hreq' : requested ≠ some second := Ne.symm hreq
        simp only [hreq, hfst', hreq', hne, filter_cons, filter_filter,
          not_false_eq_true, decide_true, decide_false, if_true, Option.some.injEq, Bool.and_true,
          Bool.not_false, Bool.not_true, if_false, Bool.false_eq_true]
        congr 1
        apply filter_congr
        intro model hmod
        obtain ⟨name, hname, rfl⟩ := mem_map.1 hmod
        simp [hsec name hname]

theorem skips_none (routing : FallbackRouting) (requested : Option String) : skips routing requested none = false := by
  unfold skips
  rcases routing.inForce with _ | ⟨first, _ | ⟨second, rest⟩⟩ <;> simp

theorem skips_self (routing : FallbackRouting) (requested : Option String) :
    skips routing requested requested = false := by
  unfold skips
  rcases routing.inForce with _ | ⟨first, _ | ⟨second, rest⟩⟩
  · rfl
  · rfl
  · by_cases h : requested = some second <;> simp [h]

theorem skips_first {routing first more} (h : routing.inForce = first :: more) (requested : Option String) :
    skips routing requested (some first) = false := by
  have hnd : (first :: more).Nodup := h ▸ inForce_nodup
  unfold skips
  rw [h]
  cases more with
  | nil => rfl
  | cons second =>
    have hne : first ≠ second := by
      rintro rfl
      exact (nodup_cons.1 hnd).1 mem_cons_self
    simp [hne]

/-- A selection asks the candidates in turn, but for the one that is skipped. -/
theorem selectWithContext_eq_settle (view : PoolView) (input : SelectionInput) (model : Option String)
    (context : SelectionContext) :
    (selectWithContext view input model context).1 =
      settle (answer view.toProxyLoop input context) (.noEligible input.policyId)
        ((candidates input.routing (input.requestedModel model context)).filter
          (fun asked => !skips input.routing (input.requestedModel model context) asked)) := by
  have hcal := selectFrom_eq_settle view.toProxyLoop input context (input.routing.fallbackModels.length + 1)
    view.world model { context with fallbackDepth := 0 } (.refl input.now view.world) rfl rfl
  obtain ⟨more, hvis, hmore⟩ := visits_first input.routing (input.requestedModel model context) context
  have hreq : input.requestedModel model { context with fallbackDepth := 0 } = input.requestedModel model context := rfl
  rw [hreq, hvis, ← settle_cons_filter, hmore] at hcal
  rw [candidates, filter_cons_of_pos (by rw [skips_self]; rfl)]
  exact hcal

end

end Fallback

end Pooler
