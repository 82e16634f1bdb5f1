import Pooler.Spec.Catalog.Source
import Pooler.Spec.Protocol.Json

/-! # The merged catalog and its operator overrides (`pooler-model-catalog/src/overrides.rs`) -/

namespace Pooler.Catalog

open Lib

inductive ExposureKind where
  | direct
  | «alias»
  | forkedAlias
  deriving DecidableEq, Repr

structure ModelProvenance where
  source : SourceId
  provider : ProviderId
  (account accountPool : Option String)
  upstreamModel : ModelId
  revision : Option String
  observedAtUnixMs : ℕ
  exposure : ExposureKind
  modelPrefix : Option String
  signedPriority : ℤ
  priorityTier : ℕ
  deriving DecidableEq

structure CatalogBindingDescriptor where
  bindingId : String
  model : ModelId
  targetId : String
  provider : ProviderId
  (account accountPool : Option String)
  upstreamModel : ModelId
  priority : ℕ
  signedPriority : ℤ
  deriving DecidableEq

structure CatalogTarget where
  binding : CatalogBindingDescriptor
  provider : ProviderId
  upstreamModel : ModelId
  capabilities : CapabilitySet
  dialect : ModelDialect
  profile : ModelProfile
  forceMapping : Bool
  priority : ℕ
  signedPriority : ℤ
  provenance : List ModelProvenance
  deriving DecidableEq

/-- The pinned fields, as JSON pointer and value. -/
structure RequestOverlay where
  fields : List (String × Json)

structure CatalogModel where
  id : ModelId
  displayName : Option String
  targets : List CatalogTarget
  requestOverlay : RequestOverlay

structure ModelOverride where
  disabled : Bool
  displayName : Option String
  capabilities : Option CapabilitySet
  profile : Option ModelProfile
  dialect : Option ModelDialect
  overlay : RequestOverlay

structure ModelOverrides where
  entries : OrderedMap ModelId ModelOverride

structure OverrideState where
  (disabledModels unmatchedModels : List ModelId)
  deriving DecidableEq

def capabilityFact (capabilities : CapabilitySet) (capability : Capability) : FactSupport :=
  if capabilities.contains capability then .supported else .unsupported

namespace ModelOverride

variable (o : ModelOverride) (target : CatalogTarget)

def replaceProfile : CatalogTarget :=
  match o.profile with
  | some profile => { target with profile := profile, dialect := profile.dialect }
  | none => target

def replaceCapabilities : CatalogTarget :=
  match o.capabilities with
  | some capabilities =>
    { target with
      capabilities := capabilities
      profile := { target.profile with
        reasoning := capabilityFact capabilities .reasoning
        tools := capabilityFact capabilities .tools
        structuredOutput := capabilityFact capabilities .structuredOutput
        streaming := capabilityFact capabilities .streaming
        attachments := capabilityFact capabilities .files } }
  | none => target

def replaceDialect : CatalogTarget :=
  match o.dialect with
  | some dialect => { target with dialect := dialect, profile := { target.profile with dialect := dialect } }
  | none => target

/-- The body of the loop over the targets. -/
def applyTarget : CatalogTarget := o.replaceDialect (o.replaceCapabilities (o.replaceProfile target))

def apply (model : CatalogModel) : CatalogModel :=
  { model with
    displayName := o.displayName.or model.displayName
    requestOverlay := if o.overlay.fields.isEmpty then model.requestOverlay else o.overlay
    targets := model.targets.map o.applyTarget }

end ModelOverride

namespace ModelOverrides

/-- What has been retained, disabled and matched so far. -/
structure Applied where
  retained : OrderedMap ModelId CatalogModel
  disabledModels : List ModelId
  matched : OrderedMap ModelId Unit

def applyOne (overrides : ModelOverrides) (applied : Applied) (entry : ModelId × CatalogModel) : Applied :=
  match overrides.entries.get entry.1 with
  | none => { applied with retained := applied.retained.insert entry.1 entry.2 }
  | some overridden =>
    { retained := applied.retained.insert entry.1 (overridden.apply entry.2)
      disabledModels := if overridden.disabled then applied.disabledModels ++ [entry.1] else applied.disabledModels
      matched := applied.matched.insert entry.1 () }

def applyAll (overrides : ModelOverrides) (models : OrderedMap ModelId CatalogModel) :
    OrderedMap ModelId CatalogModel × OverrideState :=
  if overrides.entries.size = 0 then (models, ⟨[], []⟩)
  else
    let applied := models.entries.foldl overrides.applyOne ⟨.empty, [], .empty⟩
    (applied.retained, ⟨applied.disabledModels,
      (overrides.entries.entries.map Prod.fst).filter fun model => !applied.matched.contains model⟩)

end ModelOverrides

end Pooler.Catalog
