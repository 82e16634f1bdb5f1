import Pooler.Lib.Handover
import Pooler.Spec.Http.Proxy
import Pooler.Spec.Policy.Eligible

/-! # Selection with model fallback (`pooler-http/src/pool.rs`)

`select_with_context` for a route under a policy. A model without an eligible target hands over to
the next configured fallback model by a call of the function to itself. -/

namespace Pooler.Fallback

open Lib

/-- What a policy says about fallback. The compiler takes each model once, and no empty name. -/
structure FallbackRouting where
  allowFallbacks : Bool
  fallbackModels : List String
  unique : fallbackModels.Nodup
  named : "" ∉ fallbackModels

structure SelectionContext where
  model : Option String
  modelMustResolve : Bool
  fallbackDepth : ℕ

/-- What a selection reads of the configuration, the catalog and the request. The request for a
registry depends on whether a model is asked for and on which one it has come to, and may fail to be
made; all of one selection are made at one instant. The compiler takes models with targets and known
fallbacks only. -/
structure SelectionInput where
  models : Table String (List ModelTargetPlan)
  catalog : List CatalogModel
  (disabledModels overlayDisabledModels : List String)
  route : RouteTarget
  policyId : String
  routing : FallbackRouting
  now : ℕ
  request : Bool → String → Option SelectionRequest
  request_now : ∀ hasModel logical made, request hasModel logical = some made → made.now = now
  request_ttl : ∀ hasModel logical made, request hasModel logical = some made → made.affinityTtl ≠ 0
  models_targeted : ∀ (model : String) (targets : List ModelTargetPlan), models[model]? = some targets → targets ≠ []
  fallbacks_known : ∀ model ∈ routing.fallbackModels, models[model]?.isSome = true

namespace SelectionInput

variable (input : SelectionInput)

def catalogTargets (model : String) : List CatalogTarget :=
  ((input.catalog.find? (fun entry => entry.id.asStr = model)).map CatalogModel.targets).getD []

def servesRoute (model : String) : Bool :=
  (input.models[model]?.getD []).any (fun target => target.provider = input.route.upstream) ||
    (input.catalogTargets model).any (fun target => target.provider.asStr = input.route.upstream)

variable (context : SelectionContext)

def contextualModel : Option String := context.model.filter input.servesRoute

def routeHasModelNamespace : Bool :=
  input.models.toList.any (fun entry => entry.2.any (fun target => target.provider = input.route.upstream)) ||
    input.catalog.any (fun model => model.targets.any (fun target => target.provider.asStr = input.route.upstream))

/-- The request names a model that the route does not know, and must name one that it does. -/
def unknownModel : Option PoolError :=
  if (input.contextualModel context).isNone ∧ context.modelMustResolve ∧ input.routeHasModelNamespace then
    context.model.map .unknownModel
  else none

def requestedModel (model : Option String) (context : SelectionContext) : Option String :=
  model.or (if input.route.hasModelSource then context.model else input.contextualModel context)

/-- The logical model of `resolve_static_target`. -/
def resolveStaticTarget (model : Option String) : Except PoolError String :=
  match model with
  | none => if input.route.hasModelSource then .error .invalidModel else .ok input.route.routeId
  | some model =>
    match input.models[model]? with
    | some targets => if targets.isEmpty then .error (.unknownModel model) else .ok model
    | none =>
      if !(input.catalogTargets model).isEmpty then .ok model
      else if input.route.hasModelSource then .error (.unknownModel model)
      else .ok model

/-- The first fallback model that resolves. -/
def resolveFallback (requested : String) : List String → Option String
  | [] => none
  | fallback :: fallbacks =>
    if fallback = requested then resolveFallback requested fallbacks
    else
      match input.resolveStaticTarget (some fallback) with
      | .ok value => some value
      | .error _ => resolveFallback requested fallbacks

variable (requested : Option String)

def resolveWithConfiguredModelFallback : Except PoolError String :=
  match requested with
  | none => input.resolveStaticTarget none
  | some model =>
    match input.resolveStaticTarget (some model) with
    | .ok value => .ok value
    | .error error =>
      if !input.routing.allowFallbacks then .error error
      else
        match input.resolveFallback model input.routing.fallbackModels with
        | some value => .ok value
        | none => .error error

def modelEnabled (model : String) : Bool :=
  !input.disabledModels.contains model && !input.overlayDisabledModels.contains model

/-- The checks before a registry is asked. -/
def admitted : Except PoolError String :=
  match input.unknownModel context with
  | some error => .error error
  | none =>
    match input.resolveWithConfiguredModelFallback requested with
    | .error error => .error error
    | .ok logical =>
      if !input.modelEnabled logical then .error (.modelDisabled logical)
      else if (Ident.new .model logical).isOk then .ok logical
      else .error .invalidModel

def registryKey (logical : String) : String :=
  if requested.isSome then logical else routeRegistryKey input.route.routeId

end SelectionInput

/-- What asking for one model comes to. -/
abbrev Attempt := Answer PoolSelection PoolError

def lendFrom (s : ProxyLoop) (w : World) (key : String) (request : Option SelectionRequest) : Attempt × World :=
  match s.registryFor key with
  | none => (.passed, w)
  | some i =>
    match request with
    | none => (.failed .selection, w)
    | some request =>
      match w.lend key i request with
      | (.ok selection, w) =>
        if s.index.contains selection.registration.binding then (.served selection, w)
        else (.failed .selection, w.dropLease selection.lease)
      | (.error (.noEligible _ _), w) => (.passed, w)
      | (.error _, w) => (.failed .selection, w)

def attempt (s : ProxyLoop) (input : SelectionInput) (context : SelectionContext) (w : World)
    (requested : Option String) : Attempt × World :=
  match input.admitted context requested with
  | .error error => (.failed error, w)
  | .ok logical => lendFrom s w (input.registryKey requested logical) (input.request requested.isSome logical)

def nextModelFallback (routing : FallbackRouting) (requested : Option String) (context : SelectionContext) :
    Option String :=
  if !routing.allowFallbacks then none
  else (routing.fallbackModels.filter (· ≠ requested.getD ""))[context.fallbackDepth]?

/-- The calls of `select_with_context`, with a bound on their number. -/
def selectFrom (s : ProxyLoop) (input : SelectionInput) : ℕ → World → Option String → SelectionContext →
    Except PoolError PoolSelection × World
  | 0, w, _, _ => (.error (.noEligible input.policyId), w)
  | fuel + 1, w, model, context =>
    let requested := input.requestedModel model context
    match attempt s input context w requested with
    | (.served selection, w) => (.ok selection, w)
    | (.failed error, w) => (.error error, w)
    | (.passed, w) =>
      match nextModelFallback input.routing requested context with
      | none => (.error (.noEligible input.policyId), w)
      | some fallback =>
        selectFrom s input fuel w (some fallback) { context with fallbackDepth := context.fallbackDepth + 1 }

/-- The coordinator as a selection finds it: the index has every binding of the registries in use. -/
structure PoolView extends ProxyLoop where
  indexed : ∀ key i entry, toProxyLoop.registryFor key = some i → Registered (world.registries i).state entry →
    index.contains entry.registration.binding = true

/-- Every call but the first is for a place in the list of fallback models. -/
def selectWithContext (view : PoolView) (input : SelectionInput) (model : Option String)
    (context : SelectionContext) : Except PoolError PoolSelection × World :=
  selectFrom view.toProxyLoop input (input.routing.fallbackModels.length + 1) view.world model
    { context with fallbackDepth := 0 }

end Pooler.Fallback
