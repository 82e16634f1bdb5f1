import Pooler.Sanity.Route

/-! Conflict detection against the matcher: which pairs of routes some request matches both of, and
what acceptance by `detectConflicts` says about them. -/

namespace Pooler

open Lib List Bool

variable {http : HttpCrate} {request : RouteRequest http} {routes : List (RoutePlan http)} {route : RoutePlan http}

theorem matchRouteFrom_ok {structural method} :
    matchRouteFrom request routes structural method = .ok route ↔ routes.find? (routeMatches request) = some route := by
  induction routes generalizing structural method with
  | nil => simp [matchRouteFrom]
  | cons r rest ih =>
    rw [matchRouteFrom, find?_cons, routeMatches]
    cases hs : structuralMatch request r with
    | false => simpa using ih
    | true =>
      cases hm : methodMatch request r with
      | false => simpa using ih
      | true =>
        cases hc : contentTypeMatch request r with
        | false => simpa using ih
        | true => simp

theorem detectConflicts_ok :
    detectConflicts routes = .ok () ↔
      routes.Pairwise (fun a b => ¬(equalPrecedence a b = true ∧ routesOverlap a b = true)) := by
  induction routes with
  | nil => simp [detectConflicts]
  | cons first rest ih =>
    rw [detectConflicts, pairwise_cons, ← ih]
    cases hf : rest.find? (fun second => equalPrecedence first second && routesOverlap first second) with
    | none =>
      have hn : ∀ second ∈ rest, ¬(equalPrecedence first second = true ∧ routesOverlap first second = true) := by
        simpa using find?_eq_none.1 hf
      exact (and_iff_right hn).symm
    | some second =>
      have hcon := find?_some hf
      rw [and_eq_true] at hcon
      constructor
      · nofun
      · intro h
        exact absurd hcon (h.1 second (mem_of_find?_eq_some hf))

/-! ### Which pairs of routes a request can match -/

/-- Some request has the host and the headers that the route asks for. -/
structure RoutePlan.Reachable (route : RoutePlan http) : Prop where
  host : hostParses http route.matcher.host = true
  headers : HeadersSendable http route.matcher.headers

/-- Everything but the headers leaves room for a common request. -/
structure RoutePlan.Meets (a b : RoutePlan http) : Prop where
  methods : methodsOverlap a.matcher.methods b.matcher.methods = true
  hosts : authoritiesOverlap http a.matcher.host b.matcher.host = true
  paths : pathsMeet a.matcher.path b.matcher.path = true
  contentTypes : contentTypesOverlap a.matcher.contentTypes b.matcher.contentTypes = true
  websocket : boolsOverlap a.matcher.websocket b.matcher.websocket = true

structure RoutePlan.Matched (request : RouteRequest http) (route : RoutePlan http) : Prop where
  listener : route.listener = request.listener
  path : pathMatches route.matcher.path (routePath request.path) = true
  host : hostMatches route.matcher.host request.host request.headers = true
  headers : headersMatch route.matcher.headers request.headers = true
  websocket : websocketMatches route.matcher.websocket (requestWebsocket request) = true
  method : methodMatchesRoute route.matcher.methods (uppercase request.method) = true
  contentType : contentTypeMatches route.matcher.contentTypes (requestContentType request) = true

theorem routeMatches_iff : routeMatches request route = true ↔ route.Matched request := by
  simp only [routeMatches, structuralMatch, methodMatch, contentTypeMatch, and_eq_true, decide_eq_true_eq]
  constructor
  · rintro ⟨⟨⟨⟨⟨⟨hl, hp⟩, hh⟩, hhs⟩, hw⟩, hm⟩, hc⟩
    exact ⟨hl, hp, hh, hhs, hw, hm, hc⟩
  · rintro ⟨hl, hp, hh, hhs, hw, hm, hc⟩
    exact ⟨⟨⟨⟨⟨⟨hl, hp⟩, hh⟩, hhs⟩, hw⟩, hm⟩, hc⟩

theorem not_mem_routePath (path : Text) : '?' ∉ routePath path := by
  intro h
  simpa using mem_takeWhile_imp h

variable {a b : RoutePlan http}

theorem meets_of_matched (hs : a.matcher.path.specificity = b.matcher.path.specificity) (ha : a.Matched request)
    (hb : b.Matched request) : a.Reachable ∧ b.Reachable ∧ a.Meets b := by
  obtain ⟨hpa, hpb, hhos⟩ := hosts_overlap_of_match ha.host hb.host
  refine ⟨⟨hpa, headersSendable_of_match ha.headers⟩, ⟨hpb, headersSendable_of_match hb.headers⟩, ?_⟩
  exact {
    methods := methods_overlap_of_match ha.method hb.method
    hosts := hhos
    paths := (exists_path_iff_pathsMeet hs).2 ⟨_, not_mem_routePath _, ha.path, hb.path⟩
    contentTypes := contentTypes_overlap_of_match ha.contentType hb.contentType
    websocket := bools_overlap_iff.2 ⟨_, ha.websocket, hb.websocket⟩ }

/-- The request is put together from one part for each dimension; it sends the headers of both
routes, so that their values need not agree. -/
theorem exists_request_of_meets (hl : a.listener = b.listener)
    (hs : a.matcher.path.specificity = b.matcher.path.specificity) (ha : a.Reachable) (hb : b.Reachable)
    (hm : a.Meets b) : ∃ request, a.Matched request ∧ b.Matched request := by
  obtain ⟨method, hvld, hma, hmb⟩ := exists_method_of_overlap hm.methods
  obtain ⟨host, hhost⟩ := exists_host_of_overlap ha.host hb.host hm.hosts
  obtain ⟨path, hquery, hpa, hpb⟩ := (exists_path_iff_pathsMeet hs).1 hm.paths
  obtain ⟨headers, hha, hhb⟩ := exists_headers ha.headers hb.headers
  obtain ⟨contentType, hca, hcb⟩ := exists_contentType_of_overlap hm.contentTypes
  obtain ⟨websocket, hwa, hwb⟩ := bools_overlap_iff.1 hm.websocket
  let request : RouteRequest http := {
    listener := a.listener, method, method_valid := hvld, path, host, headers
    contentType := some contentType, websocket := some websocket }
  have hpath : routePath request.path = path := routePath_eq_self hquery
  refine ⟨request, ?_, ?_⟩
  · exact ⟨rfl, by rwa [hpath], (hhost headers).1, hha, hwa, hma, hca⟩
  · exact ⟨hl.symm, by rwa [hpath], (hhost headers).2, hhb, hwb, hmb, hcb⟩

theorem exists_request_iff (h : equalPrecedence a b = true) :
    (∃ request, routeMatches request a = true ∧ routeMatches request b = true) ↔
      a.Reachable ∧ b.Reachable ∧ a.Meets b := by
  simp only [equalPrecedence, and_eq_true, decide_eq_true_eq] at h
  obtain ⟨⟨⟨hl, hs⟩, -⟩, -⟩ := h
  simp only [routeMatches_iff]
  constructor
  · rintro ⟨request, ha, hb⟩
    exact meets_of_matched hs ha hb
  · rintro ⟨ha, hb, hm⟩
    exact exists_request_of_meets hl hs ha hb hm

/-! ### What acceptance says -/

/-- The constraints ask one header for two values. -/
def HeadersDisagree (a b : Table String Text) : Prop :=
  ∃ (name : String) (first second : Text), a[name]? = some first ∧ b[name]? = some second ∧ first ≠ second

theorem mapsOverlap_iff {a b} : mapsOverlap a b = true ↔ ¬HeadersDisagree a b := by
  have hsid : mapsOverlap a b = true ↔
      (∀ (name : String) (x y : Text), a[name]? = some x → b[name]? = some y → y = x) ∧
        ∀ (name : String) (x y : Text), b[name]? = some x → a[name]? = some y → y = x := by
    simp only [mapsOverlap, and_eq_true, all_eq_true, Prod.forall,
      Std.ExtTreeMap.mem_toList_iff_getElem?_eq_some, Option.all_eq_true_iff_get, decide_eq_true_eq]
    grind
  rw [hsid]
  constructor
  · rintro ⟨h, -⟩ ⟨name, x, y, hx, hy, hne⟩
    exact hne (h name x y hx hy).symm
  · intro h
    refine ⟨fun name x y hx hy => ?_, fun name y x hy hx => ?_⟩
    · by_contra hne
      exact h ⟨name, x, y, hx, hy, Ne.symm hne⟩
    · by_contra hne
      exact h ⟨name, x, y, hx, hy, hne⟩

theorem pathsOverlap_of_meet {a b} (h : pathsMeet a b = true) : pathsOverlap a b = true := by
  cases a with
  | template =>
    cases b with
    | template =>
      simp only [pathsMeet, templatesMeet, segmentsMeet, and_eq_true] at h
      simp only [pathsOverlap, templateTemplatesOverlap, and_eq_true, all_eq_true] at h ⊢
      exact ⟨h.1, fun pair hp => (h.2 pair hp).1.1⟩
    | _ => exact h
  | _ => exact h

/-- Two routes of equal precedence, both reachable, that only the value of a header keeps apart. -/
structure SplitByHeader (a b : RoutePlan http) : Prop where
  precedence : equalPrecedence a b = true
  first : a.Reachable
  second : b.Reachable
  meets : a.Meets b
  disagree : HeadersDisagree a.matcher.headers b.matcher.headers

/-- No request matches two routes of equal precedence. -/
def Unambiguous (routes : List (RoutePlan http)) : Prop :=
  routes.Pairwise (fun a b => equalPrecedence a b = true →
    ∀ request : RouteRequest http, ¬(routeMatches request a = true ∧ routeMatches request b = true))

/-- Routes that conflict detection accepts are unambiguous exactly when no two of them are told
apart by the values of a header alone: a request may send the header once for each value. -/
theorem accepted_unambiguous_iff (routes : List (RoutePlan http)) (hok : detectConflicts routes = .ok ()) :
    Unambiguous routes ↔ routes.Pairwise (fun a b => ¬SplitByHeader a b) := by
  rw [detectConflicts_ok] at hok
  constructor
  · intro h
    refine h.imp fun {a b} hab hspl => ?_
    obtain ⟨request, hboth⟩ := (exists_request_iff hspl.precedence).2 ⟨hspl.first, hspl.second, hspl.meets⟩
    exact hab hspl.precedence request hboth
  · intro h
    refine (hok.and h).imp fun {a b} hab hp request hboth => ?_
    obtain ⟨hra, hrb, hm⟩ := (exists_request_iff hp).1 ⟨request, hboth⟩
    by_cases hd : HeadersDisagree a.matcher.headers b.matcher.headers
    · exact hab.2 ⟨hp, hra, hrb, hm, hd⟩
    · refine hab.1 ⟨hp, ?_⟩
      simp [routesOverlap, hm.methods, hm.hosts, pathsOverlap_of_meet hm.paths, hm.contentTypes, hm.websocket, mapsOverlap_iff.2 hd]

/-- Hosts without ports, and header values of visible characters. -/
def plainHttp : HttpCrate where
  validMethod value := !value.isEmpty && value.all isTokenChar
  validMethod_get := by decide
  headerName name := if name.toList.all isTokenChar then some name else none
  parseAuthority value := if value.isEmpty then none else some (value, none)
  HeaderValue := Text
  toStr value := if value.all (fun c => ' ' ≤ c && c ≤ '~') then some value else none

/-- The `order`-th route of listener `public`, for one tenant. -/
def tenantRoute (tenant : Text) (order : ℕ) : Except ConfigError (RoutePlan plainHttp) := do
  let source : SourceLabel := { source := "pooler.toml", line := none, column := none, path := "routes" }
  let matcher ← compileMatch plainHttp { headers := Std.ExtTreeMap.ofList [("x-tenant", tenant)] _ } source
  .ok { id := String.ofList tenant, listener := "public", matcher, priority := 0, order, source }

theorem accepted_unambiguous_tenants : ∃ first second, tenantRoute ['a'] 0 = .ok first ∧
    tenantRoute ['b'] 1 = .ok second ∧ detectConflicts [first, second] = .ok () ∧
    (Unambiguous [first, second] ↔ [first, second].Pairwise (fun a b => ¬SplitByHeader a b)) := by
  have hok : detectConflicts [(tenantRoute ['a'] 0).toOption.get (by decide),
      (tenantRoute ['b'] 1).toOption.get (by decide)] = .ok () := by decide
  exact ⟨_, _, rfl, rfl, hok, accepted_unambiguous_iff _ hok⟩

/-- One request that names both tenants matches the routes of both, which conflict detection
accepts side by side. -/
theorem header_values_ambiguous : ∃ (first second : RoutePlan plainHttp) (request : RouteRequest plainHttp),
    tenantRoute ['a'] 0 = .ok first ∧ tenantRoute ['b'] 1 = .ok second ∧
    detectConflicts [first, second] = .ok () ∧ equalPrecedence first second = true ∧
    routeMatches request first = true ∧ routeMatches request second = true := by
  refine ⟨_, _, { listener := "public", method := "GET".toList, method_valid := by decide, path := ['/']
                  headers := [("x-tenant", ['a']), ("x-tenant", ['b'])] }, rfl, rfl, ?_⟩
  decide

end Pooler
