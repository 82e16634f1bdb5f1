import Pooler.Lib.Assoc
import Pooler.Spec.Text

/-! # Discovery sources and what they report (`pooler-model-catalog/src/lib.rs`) -/

namespace Pooler.Catalog

open Lib Nat Option

instance {k : IdKind} : LinearOrder (Ident k) := LinearOrder.lift' Ident.asStr fun _ _ => Ident.ext

/-- `validate_component`. -/
def isComponent (value : String) : Bool :=
  (validateNamed value).isOk && (value.toList.splitOn '.').all fun segment =>
    !segment.isEmpty && segment.all fun c => c.isAlphanum || c == '_' || c == '-'

/-- Stable identifier of a discovery source. -/
structure SourceId where
  asStr : String
  valid : isComponent asStr = true

theorem SourceId.ext {a b : SourceId} (h : a.asStr = b.asStr) : a = b := by
  cases a; cases b; cases h; rfl

instance : LinearOrder SourceId := LinearOrder.lift' SourceId.asStr fun _ _ => SourceId.ext

theorem SourceId.validNamed (source : SourceId) : (validateNamed source.asStr).isOk = true :=
  (Bool.and_eq_true _ _ ▸ source.valid).1

/-- Where the loop of `wildcard_matches` stands: behind the last star, at or after the place of the
value that star was tried at. -/
structure WildcardCursor where
  (patternIndex valueIndex : ℕ)
  starIndex : Option ℕ
  starValueIndex : ℕ
  behind : ∀ star, starIndex = some star → star < patternIndex
  started : starValueIndex ≤ valueIndex

namespace WildcardCursor

def start : WildcardCursor := ⟨0, 0, none, 0, nofun, le_refl 0⟩

variable (c : WildcardCursor)

def advance : WildcardCursor :=
  { c with
    patternIndex := c.patternIndex + 1
    valueIndex := c.valueIndex + 1
    behind := fun star h => lt_succ_of_lt (c.behind star h)
    started := le_succ_of_le c.started }

def openStar : WildcardCursor :=
  ⟨c.patternIndex + 1, c.valueIndex, some c.patternIndex, c.valueIndex,
    fun _ h => some.inj h ▸ lt_succ_self _, le_refl _⟩

def retry (star : ℕ) : WildcardCursor :=
  ⟨star + 1, c.starValueIndex + 1, some star, c.starValueIndex + 1, fun _ h => some.inj h ▸ lt_succ_self _, le_refl _⟩

/-- The pattern index at the end of the value, if the loop gets there. -/
def loop (pattern value : List UInt8) (c : WildcardCursor) : Option ℕ :=
  if _ : c.valueIndex < value.length then
    if pattern[c.patternIndex]? = value[c.valueIndex]? then loop pattern value c.advance
    else if _ : pattern[c.patternIndex]? = some '*'.toUInt8 then loop pattern value c.openStar
    else match _ : c.starIndex with
      | some star => loop pattern value (c.retry star)
      | none => none
  else some c.patternIndex
termination_by (pattern.length - c.starIndex.elim 0 (· + 1), value.length - c.starValueIndex,
  value.length - c.valueIndex)
decreasing_by
  · refine Prod.Lex.right _ (Prod.Lex.right _ ?_)
    simp only [advance]
    omega
  next hstar =>
    obtain ⟨hlt, -⟩ := List.getElem?_eq_some_iff.1 hstar
    refine Prod.Lex.left _ _ ?_
    simp only [openStar, elim_some]
    cases h : c.starIndex with
    | none => simp only [elim_none]; omega
    | some star =>
      have := c.behind star h
      simp only [elim_some]
      omega
  next h =>
    have := c.started
    simp only [retry, h, elim_some]
    refine Prod.Lex.right _ (Prod.Lex.left _ _ ?_)
    omega

end WildcardCursor

def wildcardMatches (pattern value : String) : Bool :=
  match WildcardCursor.start.loop (utf8 pattern) (utf8 value) with
  | none => false
  | some patternIndex => ((utf8 pattern).drop patternIndex).dropWhile (· == '*'.toUInt8) == []

structure ModelPattern where
  pattern : String
  deriving DecidableEq

def ModelPattern.matches (p : ModelPattern) (model : String) : Bool := wildcardMatches p.pattern model

structure CatalogAlias where
  (upstreamId publicId : ModelId)
  fork : Bool
  displayName : Option String
  forceMapping : Bool
  deriving DecidableEq

structure CatalogSource where
  id : SourceId
  provider : ProviderId
  (account accountPool modelPrefix : Option String)
  priority : ℤ
  aliases : List CatalogAlias
  (inclusions exclusions : List ModelPattern)
  deriving DecidableEq

inductive FactSupport where
  | unknown
  | supported
  | unsupported
  deriving DecidableEq, Repr

/-- The facts that overrides replace one by one. -/
structure ModelProfile where
  dialect : ModelDialect
  (reasoning tools structuredOutput attachments streaming : FactSupport)
  deriving DecidableEq

structure DiscoveredModel where
  id : ModelId
  displayName : Option String
  capabilities : CapabilitySet
  dialect : ModelDialect
  profile : ModelProfile
  deriving DecidableEq

structure DiscoveryResponse where
  revision : Option String
  models : List DiscoveredModel
  deriving DecidableEq

structure CatalogInput where
  source : CatalogSource
  response : DiscoveryResponse
  deriving DecidableEq

end Pooler.Catalog
