import Pooler.Spec.Catalog.Merge

/-! What a merged catalog is, with no order among the sources or the models: each admitted model of
a source is exposed under its own name and its aliases, and a target gathers the exposures of one
provider, account and pool. -/

namespace Pooler.Catalog

open Lib

/-- One way in which a discovered model becomes client-visible. -/
structure Exposure where
  source : CatalogSource
  revision : Option String
  model : DiscoveredModel
  /-- The public id before the prefix of the source. -/
  publicId : ModelId
  displayName : Option String
  kind : ExposureKind
  forceMapping : Bool

namespace CatalogSource

/-- Included and not excluded. -/
def Admits (source : CatalogSource) (model : DiscoveredModel) : Prop :=
  (source.inclusions = [] ∨ ∃ pattern ∈ source.inclusions, pattern.matches model.id.asStr = true) ∧
    ∀ pattern ∈ source.exclusions, pattern.matches model.id.asStr = false

instance (source : CatalogSource) (model : DiscoveredModel) : Decidable (source.Admits model) :=
  inferInstanceAs (Decidable (_ ∧ _))

/-- No alias names the model, or one that names it forks. -/
def ExposesDirectly (source : CatalogSource) (model : DiscoveredModel) : Prop :=
  (∀ rule ∈ source.aliases, rule.upstreamId ≠ model.id) ∨
    ∃ rule ∈ source.aliases, rule.upstreamId = model.id ∧ rule.fork = true

instance (source : CatalogSource) (model : DiscoveredModel) : Decidable (source.ExposesDirectly model) :=
  inferInstanceAs (Decidable (_ ∨ _))

end CatalogSource

namespace CatalogInput

variable (input : CatalogInput) (model : DiscoveredModel)

def directExposure : Exposure :=
  { source := input.source, revision := input.response.revision, model, publicId := model.id
    displayName := model.displayName, kind := .direct, forceMapping := false }

def aliasExposure (rule : CatalogAlias) : Exposure :=
  { source := input.source, revision := input.response.revision, model, publicId := rule.publicId
    displayName := rule.displayName.or model.displayName
    kind := if rule.fork then .forkedAlias else .«alias», forceMapping := rule.forceMapping }

def exposuresOf : List Exposure :=
  if input.source.Admits model then
    (if input.source.ExposesDirectly model then [input.directExposure model] else []) ++
      (input.source.aliases.filter fun rule => rule.upstreamId = model.id).map (input.aliasExposure model)
  else []

end CatalogInput

variable (inputs : Multiset CatalogInput)

def exposures : Multiset Exposure :=
  inputs.bind fun input => (input.response.models : Multiset DiscoveredModel).bind fun model =>
    (input.exposuresOf model : Multiset Exposure)

/-- The tier of a signed priority: one more than the number of higher priorities. -/
def tier (priority : ℤ) : ℕ :=
  ((inputs.map fun input => input.source.priority).toFinset.filter fun other => priority < other).card + 1

namespace Exposure

/-- The name clients see. -/
def publicName (e : Exposure) : String :=
  match e.source.modelPrefix with
  | none => e.publicId.asStr
  | some modelPrefix => modelPrefix ++ "/" ++ e.publicId.asStr

def identity (e : Exposure) : TargetIdentity := ⟨e.source.provider, e.source.account, e.source.accountPool⟩

def provenance (observedAtUnixMs priorityTier : ℕ) (e : Exposure) : ModelProvenance :=
  { source := e.source.id, provider := e.source.provider, account := e.source.account
    accountPool := e.source.accountPool, upstreamModel := e.model.id, revision := e.revision, observedAtUnixMs
    exposure := e.kind, modelPrefix := e.source.modelPrefix, signedPriority := e.source.priority, priorityTier }

end Exposure

def contributing (id : ModelId) (identity : TargetIdentity) : Multiset Exposure :=
  (exposures inputs).filter fun e => e.publicName = id.asStr ∧ e.identity = identity

/-- A target stands for all exposures of its provider, account and pool. -/
structure StandsFor (inputs : Multiset CatalogInput) (observedAtUnixMs : ℕ) (overrides : ModelOverrides)
    (id : ModelId) (target : CatalogTarget) : Prop where
  nonempty : contributing inputs id target.identity ≠ 0
  upstream : ∀ e ∈ contributing inputs id target.identity, e.model.id = target.upstreamModel
  capabilities : (overrides.entries.get id).bind (·.capabilities) = none →
    ∀ capability, target.capabilities.contains capability = true ↔
      ∀ e ∈ contributing inputs id target.identity, e.model.capabilities.contains capability = true
  overridden : ∀ capabilities, (overrides.entries.get id).bind (·.capabilities) = some capabilities →
    target.capabilities = capabilities
  reaches : ∃ e ∈ contributing inputs id target.identity, target.priority = tier inputs e.source.priority
  best : ∀ e ∈ contributing inputs id target.identity, target.priority ≤ tier inputs e.source.priority
  forceMapping : target.forceMapping = true ↔ ∃ e ∈ contributing inputs id target.identity, e.forceMapping = true
  provenance : (target.provenance : Multiset ModelProvenance) =
    (contributing inputs id target.identity).map fun e => e.provenance observedAtUnixMs (tier inputs e.source.priority)

/-- The models of a snapshot are the exposures of the inputs. -/
structure Describes (inputs : Multiset CatalogInput) (overrides : ModelOverrides) (snapshot : CatalogSnapshot) :
    Prop where
  published : ∀ e ∈ exposures inputs, ∃ id model, id.asStr = e.publicName ∧ snapshot.models.get id = some model
  exposed : ∀ id model, snapshot.models.get id = some model → ∃ e ∈ exposures inputs, e.publicName = id.asStr
  covered : ∀ id model, snapshot.models.get id = some model → ∀ e ∈ exposures inputs, e.publicName = id.asStr →
    ∃ target ∈ model.targets, target.identity = e.identity
  identities : ∀ id model, snapshot.models.get id = some model → (model.targets.map (·.identity)).Nodup
  targets : ∀ id model, snapshot.models.get id = some model → ∀ target ∈ model.targets,
    StandsFor inputs snapshot.refreshedAtUnixMs overrides id target
  bindings : ∀ id model, snapshot.models.get id = some model → (model.targets.map (·.binding.bindingId)).Nodup

end Pooler.Catalog
