import Pooler.Proofs.Dependents
import Pooler.Proofs.Selection
import Pooler.Spec.Http.StorageKeys

/-! What the pool reads back from the keys it stores. -/

namespace Pooler

open Lib Ident

/-! ### Affinities -/

/-- The three parts come back exactly when the separator is in none of the first two. -/
theorem affinity_key_round_trips_iff (registryKey targetId redactedKey : Text) :
    parseAffinityStorageKey (affinityStorageKey registryKey targetId redactedKey) =
        some (registryKey, targetId, redactedKey) ↔ '|' ∉ registryKey ∧ '|' ∉ targetId := by
  have hver : splitOnce '|' (affinityStorageKey registryKey targetId redactedKey) =
      some ("v2".toList, registryKey ++ '|' :: targetId ++ '|' :: redactedKey) :=
    splitOnce_eq_some.2 ⟨by simp [affinityStorageKey], by decide⟩
  simp only [parseAffinityStorageKey, splitN, hver, List.append_assoc, List.cons_append]
  constructor
  · intro h
    cases hfst : splitOnce '|' (registryKey ++ '|' :: (targetId ++ '|' :: redactedKey)) with
    | none => rw [hfst] at h; cases h
    | some first =>
      rw [hfst] at h
      cases hsec : splitOnce '|' first.2 with
      | none => simp only [hsec] at h; cases h
      | some =>
        simp only [hsec, if_true] at h
        cases h
        exact ⟨(splitOnce_eq_some.1 hfst).2, (splitOnce_eq_some.1 hsec).2⟩
  · rintro ⟨hreg, htgt⟩
    simp [splitOnce_eq_some.2 ⟨rfl, hreg⟩, splitOnce_eq_some.2 ⟨rfl, htgt⟩]

/-- The separator is a character of valid identifiers. -/
theorem affinity_of_separated_model_misread : ∃ model : ModelId, ∃ target : TargetId, model.asStr = "a|b" ∧
    target.asStr = "t" ∧ parseAffinityStorageKey (affinityStorageKey model.asStr.toList target.asStr.toList ['k']) =
      some (['a'], ['b'], "t|k".toList) :=
  ⟨⟨"a|b", by decide +kernel⟩, ⟨"t", by decide +kernel⟩, rfl, rfl, by decide +kernel⟩

/-! ### Cooldowns -/

theorem Ident.new_asStr_self {k} (a : Ident k) : (Ident.new k a.asStr).toOption = some a := by
  cases hw : Ident.new k a.asStr with
  | ok => exact congrArg some (Ident.ext (new_asStr hw))
  | error =>
    unfold Ident.new at hw
    split at hw
    next hbad =>
      have hvld := a.valid
      rw [hbad] at hvld
      cases hvld
    · cases hw

theorem parseCompoundCooldownKey_encode {left right}
    (h : (encodeCompoundCooldownKey left right).utf8ByteSize ≤ usizeMax) :
    parseCompoundCooldownKey (encodeCompoundCooldownKey left right) = some (left, right) := by
  have hsize : left.utf8ByteSize + right.utf8ByteSize ≤ usizeMax := by
    simp only [encodeCompoundCooldownKey, String.utf8ByteSize_append] at h
    omega
  rw [parseCompoundCooldownKey, decodeCompoundCooldownKey_encode hsize]
  rfl

/-- The JSON of the binding of a scope, if it has one, is read back as that binding. -/
def CooldownScope.JsonReads (fromStr : String → Option BindingKey) (scope : CooldownScope) : Prop :=
  ∀ binding, scope.bindingKey = some binding → fromStr binding.toJson = some binding

theorem parseCooldownScope_cooldownKey {fromStr scope}
    (hjson : scope.JsonReads fromStr) (hf : (cooldownKey scope).2.utf8ByteSize ≤ usizeMax) :
    (parseCooldownScope fromStr (cooldownKey scope).1 (cooldownKey scope).2).map Prod.fst = some scope := by
  cases scope with
  | credential | model | provider | route => simp [parseCooldownScope, cooldownKey, new_asStr_self]
  | credentialModel | providerModel =>
    simp [parseCooldownScope, cooldownKey, parseCompoundCooldownKey_encode hf, new_asStr_self]
  | binding b => simp [parseCooldownScope, cooldownKey, hjson b rfl]
  | bindingModel b =>
    simp [parseCooldownScope, cooldownKey, parseCompoundCooldownKey_encode hf, hjson b rfl, new_asStr_self]

/-- Every key that fits a text of the source is read back as its scope, and belongs to no other. -/
theorem cooldown_keys_round_trip {fromStr : String → Option BindingKey} {scope : CooldownScope}
    (hjson : scope.JsonReads fromStr) (hfits : (cooldownKey scope).2.utf8ByteSize ≤ usizeMax) :
    (parseCooldownScope fromStr (cooldownKey scope).1 (cooldownKey scope).2).map Prod.fst = some scope ∧
      ∀ other : CooldownScope, other.JsonReads fromStr → cooldownKey other = cooldownKey scope → other = scope := by
  have hrd := parseCooldownScope_cooldownKey hjson hfits
  refine ⟨hrd, fun other hoth hkey => ?_⟩
  have hagain := parseCooldownScope_cooldownKey hoth (hkey ▸ hfits)
  rw [hkey, hrd] at hagain
  exact (Option.some.inj hagain).symm

def readsSample (json : String) : Option BindingKey := if json = sampleBinding.toJson then some sampleBinding else none

theorem sample_cooldown_key_round_trips : (parseCooldownScope readsSample
    (cooldownKey (.bindingModel sampleBinding sampleModel)).1
    (cooldownKey (.bindingModel sampleBinding sampleModel)).2).map Prod.fst = some (.bindingModel sampleBinding sampleModel) := by
  refine (cooldown_keys_round_trip ?_ (by decide +kernel)).1
  rintro _ ⟨⟩
  exact if_pos rfl

end Pooler
