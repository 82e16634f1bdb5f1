import Pooler.Lib.Framing
import Pooler.Lib.Grouping
import Pooler.Lib.Sorting
import Pooler.Spec.Catalog.Overrides
import Pooler.Spec.Time

/-! # Merging discovered models into a catalog (`pooler-model-catalog/src/lib.rs`) -/

namespace Pooler.Catalog

open Lib

def maxDisplayNameBytes : ℕ := 512

def maxRevisionBytes : ℕ := 512

/-- Composite identity of one public-model target binding. -/
structure TargetBindingId where
  model : ModelId
  target : TargetId

def TargetBindingId.new (model target : String) : Except IdentifierError TargetBindingId := do
  let model ← Ident.new .model model
  let target ← Ident.new .target target
  return ⟨model, target⟩

/-- `Display`. -/
def TargetBindingId.toString (id : TargetBindingId) : String := id.model.asStr ++ "/" ++ id.target.asStr

structure PublicMappingConflict where
  publicModel : ModelId
  provider : ProviderId
  (account accountPool : Option String)
  firstUpstream : ModelId
  firstSource : SourceId
  secondUpstream : ModelId
  secondSource : SourceId

/-- The errors of a merge. -/
inductive CatalogError where
  | invalidBinding (sourceId : SourceId) (model : ModelId) (error : IdentifierError)
  | invalidDisplayName (sourceId : SourceId)
  | invalidRevision (sourceId : SourceId)
  | sourceLimitExceeded (actual maximum : ℕ)
  | duplicateSource (sourceId : SourceId)
  | duplicateDiscoveredModel (sourceId : SourceId) (model : ModelId)
  | sourceModelLimitExceeded (sourceId : SourceId) (actual maximum : ℕ)
  | totalModelLimitExceeded (actual maximum : ℕ)
  | mergeWorkLimitExceeded (actual maximum : ℕ)
  | prefixedModelInvalid (sourceId : SourceId) (model : ModelId) (error : IdentifierError)
  | conflictingPublicMapping (conflict : PublicMappingConflict)

/-- The bounds a merge reads. -/
structure RefreshLimits where
  (maxSources maxModelsPerSource maxTotalModels maxMergeOperations : ℕ)

structure CatalogSourceState where
  provider : ProviderId
  (account accountPool : Option String)
  signedPriority : ℤ
  revision : Option String
  (observedAtUnixMs discoveredModels notIncludedModels excludedModels publishedExposures : ℕ)
  deriving DecidableEq

structure CatalogSnapshot where
  (generation refreshedAtUnixMs : ℕ)
  models : OrderedMap ModelId CatalogModel
  sources : OrderedMap SourceId CatalogSourceState
  overrides : OverrideState

structure TargetIdentity where
  provider : ProviderId
  (account accountPool : Option String)
  deriving DecidableEq

/-- Field by field, with `none` first. -/
def TargetIdentity.order (identity : TargetIdentity) : ProviderId ×ₗ WithBot String ×ₗ WithBot String :=
  toLex (identity.provider, toLex (identity.account, identity.accountPool))

theorem TargetIdentity.order_injective : Function.Injective TargetIdentity.order := by
  rintro ⟨provider, account, accountPool⟩ ⟨provider', account', accountPool'⟩ h
  cases h
  rfl

instance : LinearOrder TargetIdentity := LinearOrder.lift' TargetIdentity.order TargetIdentity.order_injective

structure Candidate where
  displayName : Option String
  provider : ProviderId
  (account accountPool : Option String)
  upstreamModel : ModelId
  capabilities : CapabilitySet
  dialect : ModelDialect
  profile : ModelProfile
  forceMapping : Bool
  priority : ℕ
  signedPriority : ℤ
  provenance : ModelProvenance
  deriving DecidableEq

abbrev Candidates := OrderedMap ModelId (List Candidate)

def exposureRank : ExposureKind → ℕ
  | .direct => 0
  | .«alias» => 1
  | .forkedAlias => 2

/-! The comparators, each as the key whose order it is. -/

def sourceOrder (source : CatalogSource) : ℤᵒᵈ ×ₗ SourceId := toLex (OrderDual.toDual source.priority, source.id)

def candidateOrder (candidate : Candidate) : ℕ ×ₗ SourceId ×ₗ ProviderId ×ₗ ModelId :=
  toLex (candidate.priority, toLex (candidate.provenance.source, toLex (candidate.provider, candidate.upstreamModel)))

def targetOrder (target : CatalogTarget) : ℕ ×ₗ ProviderId ×ₗ String ×ₗ ModelId :=
  toLex (target.priority, toLex (target.provider, toLex (target.binding.bindingId, target.upstreamModel)))

def provenanceOrder (provenance : ModelProvenance) : SourceId ×ₗ ModelId ×ₗ ℕ :=
  toLex (provenance.source, toLex (provenance.upstreamModel, exposureRank provenance.exposure))

variable (source : SourceId)

def validateDisplayName (displayName : String) : Except CatalogError Unit :=
  if displayName = "" || displayName.utf8ByteSize > maxDisplayNameBytes || displayName.toList.any isControl then
    .error (.invalidDisplayName source)
  else .ok ()

/-- The name a provider reports, where it does. -/
def validateReportedName : Option String → Except CatalogError Unit
  | some displayName => validateDisplayName source displayName
  | none => .ok ()

def validateRevision (revision : Option String) : Except CatalogError Unit :=
  if revision.any fun revision =>
    revision = "" || revision.utf8ByteSize > maxRevisionBytes || revision.toList.any isControl then
    .error (.invalidRevision source)
  else .ok ()

def prefixedModelId (source : CatalogSource) (publicId : ModelId) : Except CatalogError ModelId :=
  match source.modelPrefix with
  | none => .ok publicId
  | some modelPrefix =>
    (Ident.new .model (modelPrefix ++ "/" ++ publicId.asStr)).mapError (.prefixedModelInvalid source.id publicId)

def pushCandidate (candidates : Candidates) (source : CatalogSource) (revision : Option String)
    (observedAtUnixMs : ℕ) (model : DiscoveredModel) (unprefixedPublicId : ModelId) (displayName : Option String)
    (exposure : ExposureKind) (forceMapping : Bool) (priorityTier : ℕ) : Except CatalogError Candidates := do
  let publicId ← prefixedModelId source unprefixedPublicId
  let _ ← (TargetBindingId.new publicId.asStr source.id.asStr).mapError (.invalidBinding source.id publicId)
  return candidates.insert publicId ((candidates.get publicId).getD [] ++
    [{ displayName, provider := source.provider, account := source.account, accountPool := source.accountPool
       upstreamModel := model.id, capabilities := model.capabilities, dialect := model.dialect
       profile := model.profile, forceMapping, priority := priorityTier, signedPriority := source.priority
       provenance :=
         { source := source.id, provider := source.provider, account := source.account
           accountPool := source.accountPool, upstreamModel := model.id, revision, observedAtUnixMs, exposure
           modelPrefix := source.modelPrefix, signedPriority := source.priority, priorityTier } }])

/-- The tiers of the signed priorities: the highest is 1. -/
def priorityTiers (inputs : List CatalogInput) : OrderedMap ℤ ℕ :=
  .ofList ((sortDedup (inputs.map fun input => OrderDual.toDual input.source.priority)).zipIdx.map
    fun (priority, index) => (OrderDual.ofDual priority, index + 1))

/-- The sums of the checking loop. -/
structure Workload where
  seenSources : OrderedMap SourceId Unit
  (totalModels mergeOperations : ℕ)

def checkInput (limits : RefreshLimits) (work : Workload) (input : CatalogInput) : Except CatalogError Workload :=
  let id := input.source.id
  let count := input.response.models.length
  let totalModels := satAdd usizeMax work.totalModels count
  let rulesPerModel := satAdd usizeMax (satAdd usizeMax (satAdd usizeMax input.source.aliases.length
    input.source.inclusions.length) input.source.exclusions.length) 1
  let mergeOperations := satAdd usizeMax work.mergeOperations (satMul usizeMax count rulesPerModel)
  if work.seenSources.contains id then .error (.duplicateSource id)
  else if count > limits.maxModelsPerSource then
    .error (.sourceModelLimitExceeded id count limits.maxModelsPerSource)
  else if totalModels > limits.maxTotalModels then
    .error (.totalModelLimitExceeded totalModels limits.maxTotalModels)
  else if mergeOperations > limits.maxMergeOperations then
    .error (.mergeWorkLimitExceeded mergeOperations limits.maxMergeOperations)
  else .ok ⟨work.seenSources.insert id (), totalModels, mergeOperations⟩

/-- The first model that has the id of the one after it. -/
def firstRepeated : List DiscoveredModel → Option ModelId
  | first :: second :: rest => if first.id = second.id then some first.id else firstRepeated (second :: rest)
  | _ => none

def checkRepeated (discovered : List DiscoveredModel) : Except CatalogError Unit :=
  match firstRepeated discovered with
  | some model => .error (.duplicateDiscoveredModel source model)
  | none => .ok ()

/-- What the loop over the models of one source adds up. -/
structure SourceTally where
  candidates : Candidates
  (notIncludedCount excludedCount exposureCount : ℕ)

section Input

variable (source : CatalogSource) (revision : Option String) (observedAtUnixMs priorityTier : ℕ)
  (model : DiscoveredModel) (tally : SourceTally)

def exposeDirect : Except CatalogError SourceTally := do
  let candidates ← pushCandidate tally.candidates source revision observedAtUnixMs model model.id
    model.displayName .direct false priorityTier
  return { tally with candidates, exposureCount := tally.exposureCount + 1 }

def exposeAlias (rule : CatalogAlias) :
    Except CatalogError SourceTally := do
  let candidates ← pushCandidate tally.candidates source revision observedAtUnixMs model rule.publicId
    (rule.displayName.or model.displayName) (if rule.fork then .forkedAlias else .«alias») rule.forceMapping
    priorityTier
  return { tally with candidates, exposureCount := tally.exposureCount + 1 }

variable (matchingAliases : List CatalogAlias)

/-- The native name stays visible beside an alias that forks. -/
def exposeForked (tally : SourceTally) :
    Except CatalogError SourceTally :=
  if matchingAliases.any (·.fork) then exposeDirect source revision observedAtUnixMs priorityTier model tally
  else .ok tally

def exposeModel (tally : SourceTally) :
    Except CatalogError SourceTally :=
  if matchingAliases.isEmpty then exposeDirect source revision observedAtUnixMs priorityTier model tally
  else do
    let tally ← exposeForked source revision observedAtUnixMs priorityTier model matchingAliases tally
    matchingAliases.foldlM (exposeAlias source revision observedAtUnixMs priorityTier model) tally

/-- The body of the loop over the models of one source. -/
def mergeModel (model : DiscoveredModel) : Except CatalogError SourceTally :=
  if !source.inclusions.isEmpty && !source.inclusions.any (·.matches model.id.asStr) then
    .ok { tally with notIncludedCount := tally.notIncludedCount + 1 }
  else if source.exclusions.any (·.matches model.id.asStr) then
    .ok { tally with excludedCount := tally.excludedCount + 1 }
  else do
    validateReportedName source.id model.displayName
    exposeModel source revision observedAtUnixMs priorityTier model
      (source.aliases.filter fun rule => rule.upstreamId = model.id) tally

end Input

/-- Candidates and source states, source by source. -/
structure MergeState where
  candidates : Candidates
  sourceStates : OrderedMap SourceId CatalogSourceState

def mergeInput (tiers : OrderedMap ℤ ℕ) (refreshedAtUnixMs : ℕ) (state : MergeState) (input : CatalogInput) :
    Except CatalogError MergeState := do
  let source := input.source
  -- every source priority was normalized before the merge
  let priorityTier := (tiers.get source.priority).getD 0
  validateRevision source.id input.response.revision
  let discovered := sortBy DiscoveredModel.id input.response.models
  checkRepeated source.id discovered
  let tally ← discovered.foldlM
    (mergeModel source input.response.revision refreshedAtUnixMs priorityTier) ⟨state.candidates, 0, 0, 0⟩
  return ⟨tally.candidates, state.sourceStates.insert source.id
    { provider := source.provider, account := source.account, accountPool := source.accountPool
      signedPriority := source.priority, revision := input.response.revision
      observedAtUnixMs := refreshedAtUnixMs, discoveredModels := discovered.length
      notIncludedModels := tally.notIncludedCount, excludedModels := tally.excludedCount
      publishedExposures := tally.exposureCount }⟩

def Candidate.identity (candidate : Candidate) : TargetIdentity :=
  ⟨candidate.provider, candidate.account, candidate.accountPool⟩

/-- The account and the pool of a target are those of its binding. -/
def CatalogTarget.identity (target : CatalogTarget) : TargetIdentity :=
  ⟨target.provider, target.binding.account, target.binding.accountPool⟩

variable (publicId : ModelId)

def Candidate.target (bindingId : TargetBindingId) (candidate : Candidate) : CatalogTarget :=
  { binding :=
      { bindingId := bindingId.toString, model := publicId, targetId := candidate.provenance.source.asStr
        provider := candidate.provider, account := candidate.account, accountPool := candidate.accountPool
        upstreamModel := candidate.upstreamModel, priority := candidate.priority
        signedPriority := candidate.signedPriority }
    provider := candidate.provider, upstreamModel := candidate.upstreamModel
    capabilities := candidate.capabilities, dialect := candidate.dialect, profile := candidate.profile
    forceMapping := candidate.forceMapping, priority := candidate.priority
    signedPriority := candidate.signedPriority, provenance := [candidate.provenance] }

def CatalogTarget.join (target : CatalogTarget) (candidate : Candidate) : CatalogTarget :=
  let target :=
    { target with
      capabilities := target.capabilities.intersection candidate.capabilities
      forceMapping := target.forceMapping || candidate.forceMapping }
  let target :=
    if candidate.priority < target.priority then
      { target with
        priority := candidate.priority
        signedPriority := candidate.signedPriority
        binding := { target.binding with priority := candidate.priority, signedPriority := candidate.signedPriority } }
    else target
  { target with provenance := target.provenance ++ [candidate.provenance] }

def CatalogTarget.sortProvenance (target : CatalogTarget) : CatalogTarget :=
  { target with provenance := sortBy provenanceOrder target.provenance }

structure CompileState where
  targets : List CatalogTarget
  providerMappings : OrderedMap TargetIdentity (ModelId × SourceId)

/-- One identity has one upstream model. -/
def checkMapping (mappings : OrderedMap TargetIdentity (ModelId × SourceId))
    (candidate : Candidate) : Except CatalogError (OrderedMap TargetIdentity (ModelId × SourceId)) :=
  match mappings.get candidate.identity with
  | some (upstream, firstSource) =>
    if upstream ≠ candidate.upstreamModel then
      .error (.conflictingPublicMapping
        { publicModel := publicId, provider := candidate.provider, account := candidate.account
          accountPool := candidate.accountPool, firstUpstream := upstream, firstSource
          secondUpstream := candidate.upstreamModel, secondSource := candidate.provenance.source })
    else .ok mappings
  | none => .ok (mappings.insert candidate.identity (candidate.upstreamModel, candidate.provenance.source))

/-- The body of the loop over the candidates of one public model. -/
def compileCandidate (state : CompileState) (candidate : Candidate) :
    Except CatalogError CompileState := do
  let mappings ← checkMapping publicId state.providerMappings candidate
  let same : CatalogTarget → Bool := fun target =>
    target.identity = candidate.identity && target.upstreamModel = candidate.upstreamModel
  if state.targets.any same then
    return ⟨modifyFirst same (·.join candidate) state.targets, mappings⟩
  else
    let bindingId ← (TargetBindingId.new publicId.asStr candidate.provenance.source.asStr).mapError
      (.invalidBinding candidate.provenance.source publicId)
    return ⟨state.targets ++ [candidate.target publicId bindingId], mappings⟩

def compilePublicModel (candidates : List Candidate) : Except CatalogError CatalogModel := do
  let candidates := sortBy candidateOrder candidates
  let state ← candidates.foldlM (compileCandidate publicId) ⟨[], .empty⟩
  let targets := state.targets.map CatalogTarget.sortProvenance
  return { id := publicId, displayName := candidates.findSome? (·.displayName)
           targets := sortBy targetOrder targets, requestOverlay := ⟨[]⟩ }

def compileModels (candidates : Candidates) : Except CatalogError (OrderedMap ModelId CatalogModel) :=
  candidates.entries.foldlM (fun models entry => do
    let model ← compilePublicModel entry.1 entry.2
    return models.insert entry.1 model) .empty

/-- The merge of inputs in source order. -/
def mergeSorted (generation refreshedAtUnixMs : ℕ) (inputs : List CatalogInput) (limits : RefreshLimits)
    (overrides : ModelOverrides) : Except CatalogError CatalogSnapshot := do
  let tiers := priorityTiers inputs
  let _ ← inputs.foldlM (checkInput limits) ⟨.empty, 0, 0⟩
  let merged ← inputs.foldlM (mergeInput tiers refreshedAtUnixMs) ⟨.empty, .empty⟩
  let models ← compileModels merged.candidates
  let applied := overrides.applyAll models
  return { generation, refreshedAtUnixMs, models := applied.1, sources := merged.sourceStates
           overrides := applied.2 }

def mergeDiscoveries (generation refreshedAtUnixMs : ℕ) (inputs : List CatalogInput) (limits : RefreshLimits)
    (overrides : ModelOverrides) : Except CatalogError CatalogSnapshot :=
  if inputs.length > limits.maxSources then
    .error (.sourceLimitExceeded inputs.length limits.maxSources)
  else
    mergeSorted generation refreshedAtUnixMs (sortBy (fun input => sourceOrder input.source) inputs) limits overrides

end Pooler.Catalog
