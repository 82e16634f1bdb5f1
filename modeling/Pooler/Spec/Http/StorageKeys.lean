import Pooler.Spec.Store.Cooldown

/-! # Storage keys (`pooler-http/src/pool.rs`)

The keys under which the pool stores affinities and cooldowns, and how it reads them back. -/

namespace Pooler

open Lib

/-- `str::splitn`: at most `n` pieces, the last one with all that is left. -/
def splitN (c : Char) : ℕ → Text → List Text
  | 0, _ => []
  | 1, value => [value]
  | n + 2, value =>
    match splitOnce c value with
    | none => [value]
    | some (piece, rest) => piece :: splitN c (n + 1) rest

def affinityStorageKey (registryKey targetId redactedKey : Text) : Text :=
  "v2|".toList ++ registryKey ++ '|' :: targetId ++ '|' :: redactedKey

def parseAffinityStorageKey (key : Text) : Option (Text × Text × Text) :=
  match splitN '|' 4 key with
  | [version, registryKey, targetId, redactedKey] =>
    if version = "v2".toList then some (registryKey, targetId, redactedKey) else none
  | _ => none

/-- The pool has the decoder of the store; keys from before have one colon. -/
def parseCompoundCooldownKey (key : String) : Option (String × String) :=
  (MemoryStore.decodeCompoundCooldownKey key).or
    (if key.toList.count ':' = 1 then
      (splitOnce ':' key.toList).map fun halves => (String.ofList halves.1, String.ofList halves.2)
    else none)

/-- The scope, with the registry of a route. The JSON of a binding is read by `fromStr`. -/
def parseCooldownScope (fromStr : String → Option BindingKey) (scope key : String) :
    Option (CooldownScope × Option String) :=
  let parseId (kind : IdKind) (value : String) := (Ident.new kind value).toOption
  match scope with
  | "credential" => do return (.credential (← parseId .credential key), none)
  | "credential_model" => do
    let (credential, model) ← parseCompoundCooldownKey key
    return (.credentialModel (← parseId .credential credential) (← parseId .model model), none)
  | "binding" => do return (.binding (← fromStr key), none)
  | "binding_model" => do
    let (binding, model) ← parseCompoundCooldownKey key
    return (.bindingModel (← fromStr binding) (← parseId .model model), none)
  | "model" => do return (.model (← parseId .model key), none)
  | "provider" => do return (.provider (← parseId .provider key), none)
  | "provider_model" => do
    let (provider, model) ← parseCompoundCooldownKey key
    return (.providerModel (← parseId .provider provider) (← parseId .model model), none)
  | "route" => do return (.route (← parseId .route key), some ("route:" ++ key))
  | _ => none

end Pooler
