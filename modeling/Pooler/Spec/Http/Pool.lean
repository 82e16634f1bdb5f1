import Pooler.Spec.Policy.Lease

/-! The registries of the pooling coordinator: one for each configured model, one for each route
that pools without a model, and the models of the catalog. Each is filled with the bindings of the
accounts that may serve it. -/

namespace Pooler

open Lib

inductive PoolError where
  | invalidModel
  | invalidProvider
  | invalidCredential
  | modelDisabled (model : String)
  | unknownModel (model : String)
  | noEligible (policy : String)
  | store
  | selection
  | invalidUpstreamUri
  deriving DecidableEq, Repr

inductive AccountAuthKind where
  | oauth
  | apiKey
  deriving DecidableEq, Repr

/-- An upstream: the kind of its native provider, if it has one, and whether OAuth is configured. -/
structure UpstreamPlan where
  id : String
  native : Option String
  oauth : Bool
  deriving DecidableEq

/-- An account. Its bound on leases is a `u32`. -/
structure AccountPlan where
  (id provider : String)
  authKind : AccountAuthKind
  weight : ℕ
  maxConcurrency : Option ℕ
  quotaProject : Option String
  maxConcurrency_le : ∀ m, maxConcurrency = some m → m ≤ u32Max

structure ModelTargetPlan where
  (id bindingId provider : String)
  (account accountPool : Option String)
  (priority weight : ℕ)
  capabilities : CapabilitySet
  codecs : List String
  parameters : List String := []
  contextWindow : Option ℕ := none
  quantization : List String := []
  privacy : Option String := none
  zdr : Option Bool := none
  (dataPolicy region : Option String := none)
  price : Option ℕ := none

structure RouteTarget where
  (routeId upstream : String)
  hasModelSource : Bool
  policy : Option String
  capabilities : CapabilitySet
  codecs : List String

structure EndpointVariants where
  (responses chatCompletions messages generateContent : Bool)

structure CatalogTarget where
  bindingId : String
  provider : ProviderId
  (account accountPool : Option String)
  capabilities : CapabilitySet
  priority : ℕ
  endpointVariants : EndpointVariants

structure CatalogModel where
  id : ModelId
  targets : List CatalogTarget

/-- What the coordinator reads of a compiled configuration. Accounts are filed under their ids. -/
structure PoolConfig where
  accounts : Table String AccountPlan
  accountPools : Table String (List String)
  upstreams : Table String UpstreamPlan
  models : Table String (List ModelTargetPlan)
  routes : List RouteTarget
  accounts_keyed : ∀ (id : String) (account : AccountPlan), accounts[id]? = some account → account.id = id

/-- The digests of the source, of which only the results are used. -/
structure Digests where
  accountConfigurationFingerprint : UpstreamPlan → String → AccountAuthKind → Option String
  digestLabel : String → String → String

def configuredNativeKinds : List String :=
  ["anthropic", "gemini", "vertex", "xai", "kimi", "antigravity", "compatible", "openai_compatible",
    "palantir_aip"]

def accountAuthKindCompatible (upstream : UpstreamPlan) (authKind : AccountAuthKind) : Bool :=
  match upstream.native with
  | none => authKind = .apiKey
  | some kind =>
    if !eqIgnoreAsciiCase kind "codex" && !configuredNativeKinds.any (eqIgnoreAsciiCase kind) then false
    else
      let refreshable := eqIgnoreAsciiCase kind "codex" ||
        (["kimi", "vertex", "palantir_aip"].any (eqIgnoreAsciiCase kind) && upstream.oauth)
      match authKind with
      | .oauth => refreshable
      | .apiKey => !refreshable

def accountIsSelectableForUpstream (upstream : Option UpstreamPlan) (account : AccountPlan) : Bool :=
  upstream.all (fun upstream => upstream.native.isNone || accountAuthKindCompatible upstream account.authKind)

inductive BindingError where
  | emptyAccountFingerprint
  | accountFingerprintTooLong
  | invalidIdentifier (error : IdentifierError)
  deriving DecidableEq, Repr

def BindingKey.new (targetId accountId accountFingerprint : String) : Except BindingError BindingKey := do
  if accountFingerprint.toList.all isWhitespace then .error .emptyAccountFingerprint
  else if accountFingerprint.utf8ByteSize > maxIdentifierLength then .error .accountFingerprintTooLong
  else
    let targetId ← (Ident.new .target targetId).mapError .invalidIdentifier
    let accountId ← (Ident.new .credential accountId).mapError .invalidIdentifier
    .ok { targetId, accountId, accountFingerprint }

/-- What a registration takes from the target that it serves. -/
structure TargetMetadata where
  model : ModelId
  capabilities : CapabilitySet
  facts : CandidateFacts
  (targetWeight priority : ℕ)
  poolId : String
  codecs : List String

def CandidateFacts.operatorCapabilities (capabilities : CapabilitySet) : CandidateFacts :=
  { capabilities := .operatorDeclared capabilities }

/-- A fact that an operator may have left out. -/
def declaredFact {α : Type} : Option α → RoutingFact α
  | none => .unknown
  | some value => .operatorDeclared value

def declaredLabels (labels : List String) : RoutingFact (KeySet String) :=
  if labels.isEmpty then .unknown else .operatorDeclared (Std.ExtTreeSet.ofList labels _)

def targetRoutingFacts (target : ModelTargetPlan) : CandidateFacts where
  capabilities := .operatorDeclared target.capabilities
  parameters := declaredLabels target.parameters
  contextWindow := declaredFact target.contextWindow
  quantization := declaredLabels target.quantization
  privacy := declaredFact target.privacy
  zdr := declaredFact target.zdr
  dataPolicy := declaredFact target.dataPolicy
  region := declaredFact target.region
  price := declaredFact target.price

def catalogTargetCodecs (variants : EndpointVariants) : List String :=
  let text := variants.responses || variants.chatCompletions || variants.messages
  (if variants.responses then ["decode.openai.responses"] else []) ++
    (if variants.chatCompletions then ["decode.openai.chat"] else []) ++
    (if variants.messages then ["decode.anthropic.messages"] else []) ++
    (if text then ["decode.fx.language_model"] else []) ++
    (if variants.generateContent then ["decode.gemini.generate_content"] else [])

/-- The accounts that an account or else a pool names. -/
def boundAccounts (account accountPool : Option String) (pools : Table String (List String)) : List String :=
  match account with
  | some account => [account]
  | none => (accountPool.bind (fun pool => pools[pool]?)).getD []

def targetBoundAccounts (target : ModelTargetPlan) (pools : Table String (List String)) : List String :=
  boundAccounts target.account target.accountPool pools

variable (digests : Digests)

def withAccountQuotaProject (r : CredentialRegistration) (account : AccountPlan) :
    Except PoolError CredentialRegistration :=
  match account.quotaProject with
  | none => .ok r
  | some project =>
    if project = "" then .error .selection
    else .ok (r.withQuotaProject ⟨digests.digestLabel "project" project⟩)

variable (upstreams : Table String UpstreamPlan)

/-- The fingerprint of the account's configuration, or its name where the upstream is unknown. -/
def accountFingerprint (account : AccountPlan) :
    Except PoolError String :=
  match upstreams[account.provider]? with
  | none => .ok (account.provider ++ ":" ++ account.id)
  | some upstream =>
    match digests.accountConfigurationFingerprint upstream account.id account.authKind with
    | none => .error .selection
    | some fingerprint => .ok fingerprint

def accountBinding (target : String) (account : AccountPlan) :
    Except PoolError BindingKey := do
  let fingerprint ← accountFingerprint digests upstreams account
  (BindingKey.new target account.id fingerprint).mapError (fun _ => .selection)

/-- The registration of a binding: the account's weight, project and bound, and the target's rest. -/
def accountRegistration (account : AccountPlan) (binding : BindingKey) (target : TargetMetadata) :
    Except PoolError CredentialRegistration := do
  let provider ← (Ident.new .provider account.provider).mapError (fun _ => .invalidProvider)
  let r := CredentialRegistration.withBinding binding provider target.model target.capabilities
  let r ← (r.withWeight account.weight).mapError (fun _ => .selection)
  let r ← (r.withTargetWeight target.targetWeight).mapError (fun _ => .selection)
  let r ← (r.withPriority target.priority).mapError (fun _ => .selection)
  let r ← (r.withPoolId target.poolId).mapError (fun _ => .selection)
  let r ← (target.codecs.foldlM CredentialRegistration.withCodec r).mapError (fun _ => .selection)
  let r ← withAccountQuotaProject digests (r.withFacts target.facts) account
  match account.maxConcurrency with
  | none => .ok r
  | some max => (r.withMaxInFlight max).mapError (fun _ => .selection)

/-- The provider of every binding that the coordinator knows. -/
abbrev BindingIndex := Table BindingKey ProviderId

/-- A registry that is being filled, and the index that is shared by all registries. -/
structure Filling where
  registry : RegistryInner
  index : BindingIndex

def registerAccount (filling : Filling) (account : AccountPlan)
    (bindingId : String) (target : TargetMetadata) : Except PoolError Filling := do
  let binding ← accountBinding digests upstreams bindingId account
  let registration ← accountRegistration digests account binding target
  .ok { registry := filling.registry.register registration
        index := filling.index.insert binding registration.provider }

variable (config : PoolConfig)

/-- Registers those of the named accounts that exist, belong to the provider and suit its upstream. -/
def registerAccounts (provider bindingId : String) (target : TargetMetadata) (accountIds : List String)
    (filling : Filling) : Except PoolError Filling :=
  accountIds.foldlM (fun filling accountId =>
    match config.accounts[accountId]? with
    | none => .ok filling
    | some account =>
      if account.provider ≠ provider ||
          !accountIsSelectableForUpstream config.upstreams[account.provider]? account then .ok filling
      else registerAccount digests config.upstreams filling account bindingId target) filling

variable (filling : Filling)

def registerModelAccounts (model : String) (targets : List ModelTargetPlan) :
    Except PoolError Filling := do
  let model ← (Ident.new .model model).mapError (fun _ => .invalidModel)
  targets.foldlM (fun filling target =>
    registerAccounts digests config target.provider target.bindingId
      { model, capabilities := target.capabilities, facts := targetRoutingFacts target,
        targetWeight := target.weight, priority := target.priority,
        poolId := (target.accountPool.or target.account).getD target.id, codecs := target.codecs }
      (targetBoundAccounts target config.accountPools) filling) filling

def routeRegistryKey (route : String) : String := "route:" ++ route

def registerRouteAccounts (route : RouteTarget) : Except PoolError Filling := do
  let model ← (Ident.new .model route.routeId).mapError (fun _ => .invalidModel)
  registerAccounts digests config route.upstream (routeRegistryKey route.routeId)
    { model, capabilities := route.capabilities, facts := .operatorCapabilities route.capabilities,
      targetWeight := 1, priority := 1, poolId := route.routeId, codecs := route.codecs }
    config.accounts.keys filling

/-- The account id of the bindings that stand for catalog targets without accounts. -/
def catalogStatic : String := "catalog-static"

def registerCatalogTarget (model : ModelId) (filling : Filling) (target : CatalogTarget) :
    Except PoolError Filling :=
  match config.upstreams[target.provider.asStr]? with
  | none => .ok filling
  | some _ =>
    match boundAccounts target.account target.accountPool config.accountPools with
    | [] => do
      let binding ← (BindingKey.new target.bindingId catalogStatic target.provider.asStr).mapError (fun _ => .selection)
      .ok { filling with index := filling.index.insert binding target.provider }
    | accountIds =>
      registerAccounts digests config target.provider.asStr target.bindingId
        { model, capabilities := target.capabilities,
          facts := .operatorCapabilities target.capabilities, targetWeight := 1, priority := target.priority,
          poolId := (target.accountPool.or target.account).getD target.bindingId,
          codecs := catalogTargetCodecs target.endpointVariants }
        accountIds filling

def registerCatalogModel (model : CatalogModel) : Except PoolError Filling :=
  model.targets.foldlM (registerCatalogTarget digests config model.id) filling

/-- The registries by key, with the index of their bindings. -/
structure RegistryView where
  registries : Table String RegistryInner
  index : BindingIndex

variable (view : RegistryView)

/-- Files a registry under a key of the view. -/
def RegistryView.file (key : String) (filling : Filling) : RegistryView where
  registries := view.registries.insert key filling.registry
  index := filling.index

def modelView : Except PoolError RegistryView :=
  config.models.toList.foldlM (fun view (id, targets) => do
    let filling ← registerModelAccounts digests config ⟨{}, view.index⟩ id targets
    .ok (view.file id filling)) ⟨∅, ∅⟩

/-- Routes that pool their upstream's accounts under a policy, without a model. -/
def routeView : Except PoolError RegistryView :=
  config.routes.foldlM (fun view route =>
    if route.policy.isNone || route.hasModelSource then .ok view
    else do
      let filling ← registerRouteAccounts digests config ⟨{}, view.index⟩ route
      .ok (view.file (routeRegistryKey route.routeId) filling)) view

/-- `build_registry_view`. A catalog model is added to the registry of its id, if there is one. -/
def buildRegistryView (catalog : List CatalogModel) : Except PoolError RegistryView := do
  let view ← modelView digests config
  let view ← routeView digests config view
  catalog.foldlM (fun view model => do
    let filling ← registerCatalogModel digests config ⟨view.registries[model.id.asStr]?.getD {}, view.index⟩ model
    .ok (view.file model.id.asStr filling)) view

/-- The world in which the registries of a view stand in the order of their keys. -/
def World.ofView : World := { registries := fun i => (view.registries.toList[i]?.map Prod.snd).getD {} }

end Pooler
