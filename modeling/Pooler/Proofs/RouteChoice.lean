import Pooler.Lib.Guards
import Pooler.Proofs.RouteConflict

/-! The route that a request gets: the best one that matches it, or the error that says how far the
best attempt went. -/

namespace Pooler

open Lib List OrderDual

variable {http : HttpCrate}

/-! ### The compiled order -/

/-- The key that `compareRoutes` compares. -/
def RoutePlan.sortKey (route : RoutePlan http) : ℕᵒᵈ ×ₗ ℕᵒᵈ ×ₗ ℤᵒᵈ ×ₗ ℕ :=
  toLex (OrderDual.toDual route.matcher.path.specificity, toLex (OrderDual.toDual route.headerSpecificity,
    toLex (OrderDual.toDual route.priority, route.order)))

theorem then_ne_gt {α : Type} [LinearOrder α] (a b : α) (rest : Ordering) :
    (compare a b).then rest ≠ .gt ↔ a < b ∨ a = b ∧ rest ≠ .gt := by
  rcases lt_trichotomy a b with h | h | h
  · simp [compare_lt_iff_lt.2 h, h, Ordering.then]
  · simp [h, Ordering.then]
  · simp [compare_gt_iff_gt.2 h, h.not_gt, h.ne', Ordering.then]

theorem compareRoutes_ne_gt (first second : RoutePlan http) :
    compareRoutes first second ≠ .gt ↔ first.sortKey ≤ second.sortKey := by
  have hord : compare first.order second.order ≠ .gt ↔ first.order ≤ second.order := compare_le_iff_le
  rw [compareRoutes, then_ne_gt, then_ne_gt, then_ne_gt, hord]
  simp only [RoutePlan.sortKey, Prod.Lex.toLex_le_toLex, toDual_lt_toDual, toDual_inj]
  simp [eq_comm]

theorem compileRoutes_ok {plans routes : List (RoutePlan http)} (h : compileRoutes plans = .ok routes) :
    routes.Perm plans ∧ routes.Pairwise fun first second => compareRoutes first second ≠ .gt := by
  rw [compileRoutes, bind_eq_ok] at h
  obtain ⟨_, _, h⟩ := h
  cases h
  have htot : Std.Total fun first second : RoutePlan http => compareRoutes first second ≠ .gt :=
    ⟨fun a b => by simpa [compareRoutes_ne_gt] using le_total a.sortKey b.sortKey⟩
  have htrans : IsTrans (RoutePlan http) fun first second => compareRoutes first second ≠ .gt :=
    ⟨fun a b c => by simpa [compareRoutes_ne_gt] using le_trans⟩
  exact ⟨perm_insertionSort _ plans, pairwise_insertionSort _ plans⟩

/-- Strictly better in path specificity, then in the number of header constraints, then in priority. -/
def RoutePlan.Outranks (route other : RoutePlan http) : Prop :=
  other.matcher.path.specificity < route.matcher.path.specificity ∨
    other.matcher.path.specificity = route.matcher.path.specificity ∧
      (other.headerSpecificity < route.headerSpecificity ∨
        other.headerSpecificity = route.headerSpecificity ∧ other.priority < route.priority)

theorem not_outranks_of_le {first second : RoutePlan http} (h : compareRoutes first second ≠ .gt) :
    ¬second.Outranks first := by
  rw [compareRoutes, then_ne_gt, then_ne_gt, then_ne_gt] at h
  rw [RoutePlan.Outranks]
  omega

variable {request : RouteRequest http}

theorem find?_best {routes : List (RoutePlan http)} {route}
    (hsort : routes.Pairwise fun first second => compareRoutes first second ≠ .gt)
    (h : routes.find? (routeMatches request) = some route) :
    ∀ other ∈ routes, routeMatches request other = true → ¬other.Outranks route := by
  obtain ⟨_, before, after, rfl, hbef⟩ := find?_eq_some_iff_append.1 h
  intro other hmem hmat
  rcases mem_append.1 hmem with hmem | hmem
  · exact absurd hmat (by simpa using hbef other hmem)
  · rcases mem_cons.1 hmem with rfl | hmem
    · rw [RoutePlan.Outranks]; omega
    · have haft := (pairwise_append.1 hsort).2.1
      exact not_outranks_of_le ((pairwise_cons.1 haft).1 other hmem)

/-! ### The error -/

/-- The error at the end of the loop, by its two flags. -/
def routeRefusal (request : RouteRequest http) (structural method : Bool) : RouteMatchError :=
  if !structural then .noMatch request.listener (routePath request.path)
  else if !method then .methodNotAllowed request.listener (uppercase request.method) (routePath request.path)
  else .contentTypeNotAllowed request.listener ((requestContentType request).getD []) (routePath request.path)

theorem matchRouteFrom_error (request : RouteRequest http) (routes : List (RoutePlan http)) :
    ∀ structural method, (∀ route ∈ routes, routeMatches request route = false) →
      matchRouteFrom request routes structural method = .error (routeRefusal request
        (structural || routes.any (structuralMatch request))
        (method || routes.any fun route => structuralMatch request route && methodMatch request route)) := by
  induction routes with
  | nil =>
    intro structural method _
    rw [List.any_nil, List.any_nil, Bool.or_false, Bool.or_false]
    rfl
  | cons route routes ih =>
    intro structural method h
    have hroute := h route mem_cons_self
    have hr := fun other hoth => h other (mem_cons_of_mem _ hoth)
    rw [matchRouteFrom, any_cons, any_cons]
    rw [routeMatches] at hroute
    cases hs : structuralMatch request route with
    | false => simpa [hs] using ih structural method hr
    | true =>
      cases hm : methodMatch request route with
      | false => simpa [hs, hm] using ih true method hr
      | true =>
        have hc : contentTypeMatch request route = false := by simpa [hs, hm] using hroute
        simpa [hs, hm, hc] using ih true true hr

variable {structural method : Bool}

theorem routeRefusal_noMatch :
    routeRefusal request structural method = .noMatch request.listener (routePath request.path) ↔
      structural = false := by
  cases structural <;> cases method <;> simp [routeRefusal]

theorem routeRefusal_method :
    routeRefusal request structural method =
        .methodNotAllowed request.listener (uppercase request.method) (routePath request.path) ↔
      structural = true ∧ method = false := by
  cases structural <;> cases method <;> simp [routeRefusal]

theorem routeRefusal_contentType :
    routeRefusal request structural method = .contentTypeNotAllowed request.listener
        ((requestContentType request).getD []) (routePath request.path) ↔ structural = true ∧ method = true := by
  cases structural <;> cases method <;> simp [routeRefusal]

/-- What the compiled routes give a request. -/
structure BestRoute (routes : List (RoutePlan http)) (request : RouteRequest http) : Prop where
  /-- A route is given whenever one matches, and no other matching route outranks it. -/
  given : (∃ route ∈ routes, routeMatches request route = true) →
    ∃ route ∈ routes, matchRouteRequest routes request = .ok route ∧ routeMatches request route = true ∧
      ∀ other ∈ routes, routeMatches request other = true → ¬other.Outranks route
  noMatch : (∀ route ∈ routes, routeMatches request route = false) →
    (matchRouteRequest routes request = .error (.noMatch request.listener (routePath request.path)) ↔
      ∀ route ∈ routes, structuralMatch request route = false)
  methodNotAllowed : (∀ route ∈ routes, routeMatches request route = false) →
    (matchRouteRequest routes request =
        .error (.methodNotAllowed request.listener (uppercase request.method) (routePath request.path)) ↔
      (∃ route ∈ routes, structuralMatch request route = true) ∧
        ∀ route ∈ routes, structuralMatch request route = true → methodMatch request route = false)
  contentTypeNotAllowed : (∀ route ∈ routes, routeMatches request route = false) →
    (matchRouteRequest routes request = .error (.contentTypeNotAllowed request.listener
        ((requestContentType request).getD []) (routePath request.path)) ↔
      ∃ route ∈ routes, structuralMatch request route = true ∧ methodMatch request route = true)

/-- Over every compiled configuration a request gets the best route that matches it, and otherwise
the exact error. -/
theorem route_matching_is_best (plans routes : List (RoutePlan http)) (hcompiled : compileRoutes plans = .ok routes)
    (request : RouteRequest http) : BestRoute routes request := by
  have hsorted := (compileRoutes_ok hcompiled).2
  have hrefused := fun h => matchRouteFrom_error request routes false false h
  simp only [Bool.false_or] at hrefused
  refine ⟨fun ⟨route, hmem, hmatch⟩ => ?_, fun h => ?_, fun h => ?_, fun h => ?_⟩
  · obtain ⟨best, hbest⟩ := Option.isSome_iff_exists.1 (find?_isSome.2 ⟨route, hmem, hmatch⟩)
    exact ⟨best, mem_of_find?_eq_some hbest, matchRouteFrom_ok.2 hbest, find?_some hbest, find?_best hsorted hbest⟩
  · rw [matchRouteRequest, hrefused h, Except.error.injEq, routeRefusal_noMatch, any_eq_false]
    simp
  · rw [matchRouteRequest, hrefused h, Except.error.injEq, routeRefusal_method, any_eq_true, any_eq_false]
    simp
  · rw [matchRouteRequest, hrefused h, Except.error.injEq, routeRefusal_contentType, any_eq_true,
      any_eq_true]
    simp only [Bool.and_eq_true]
    exact ⟨fun ⟨_, route⟩ => route, fun ⟨route, hmem, hs, hm⟩ => ⟨⟨route, hmem, hs⟩, route, hmem, hs, hm⟩⟩

/-- The request of one tenant gets that tenant's route. -/
theorem tenant_gets_its_route : ∃ (first second : RoutePlan plainHttp) (request : RouteRequest plainHttp),
    tenantRoute ['a'] 1 = .ok first ∧ tenantRoute ['b'] 0 = .ok second ∧
      compileRoutes [first, second] = .ok [second, first] ∧ BestRoute [second, first] request ∧
      matchRouteRequest [second, first] request = .ok first := by
  have hcomp : compileRoutes [(tenantRoute ['a'] 1).toOption.get (by decide),
      (tenantRoute ['b'] 0).toOption.get (by decide)] = .ok [(tenantRoute ['b'] 0).toOption.get (by decide),
        (tenantRoute ['a'] 1).toOption.get (by decide)] := by rfl
  exact ⟨_, _, { listener := "public", method := "GET".toList, method_valid := by decide, path := ['/']
                 headers := [("x-tenant", ['a'])] }, rfl, rfl, hcomp, route_matching_is_best _ _ hcomp _, rfl⟩

end Pooler
