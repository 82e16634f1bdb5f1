import Pooler.Lib.Framing
import Pooler.Spec.Policy.Evaluate

/-! The fingerprint of a credential's configuration: a digest over the fields that identify it,
each behind its length in bytes. -/

namespace Pooler

open Lib

inductive StoreError where
  | emptyField (field : String)
  | serialization (message : String)
  | credentialNotFound (credentialId : String)
  | credentialRevisionConflict
  | credentialFingerprintConflict
  | invalidCredentialFingerprint
  deriving DecidableEq, Repr

/-- Identity of the configuration; secrets are not part of it. -/
structure CredentialFingerprintInput where
  (accountId providerInstanceId providerOrigin authKind providerProfile : String)
  (oauthClientId oauthGrantType : Option String)
  oauthScopes : List String
  (authorizationEndpoint tokenEndpoint revocationEndpoint identityEndpoint callbackEndpoint oauthClientSecretReference
    : Option String)
  oauthAdditionalIdentity : List (String × String)
  authPlacement : String
  deriving DecidableEq, Repr

def nonEmpty (field value : String) : Except StoreError Unit :=
  if value.isEmpty then .error (.emptyField field) else .ok ()

/-- An error with this message unless the condition holds. -/
def withinBounds (condition : Bool) (message : String) : Except StoreError Unit :=
  if condition then .ok () else .error (.serialization message)

def fieldExceedsBounds : String := "credential fingerprint field exceeds metadata bounds"

/-- A text that is there and not too long. -/
def sizeWithin (bound : ℕ) (value : String) : Bool := !value.isEmpty && value.utf8ByteSize ≤ bound

variable (values : List (Option String))

/-- The present ones of some optional fields are not empty and not too long. -/
def checkOptional : Except StoreError Unit :=
  (values.filterMap id).forM (fun value => withinBounds (sizeWithin 1024 value) fieldExceedsBounds)

def legacyHeader : String := "pooler-credential-fingerprint:v1\n"

def oauthHeader : String := "pooler-credential-fingerprint:v2\n"

def additionalHeader : String := "pooler-credential-fingerprint:v3\n"

/-- A field behind its length. -/
def fingerprintField (value : String) : String := toString value.utf8ByteSize ++ ":" ++ value ++ "|"

/-- Optional fields that are absent are written as empty. -/
def fingerprintFields : String := String.join (values.map (fun value => fingerprintField (value.getD "")))

namespace CredentialFingerprintInput

variable (input : CredentialFingerprintInput)

def validateLegacyFields : Except StoreError Unit := do
  [("account_id", input.accountId), ("provider_instance_id", input.providerInstanceId),
    ("provider_origin", input.providerOrigin), ("auth_kind", input.authKind),
    ("provider_profile", input.providerProfile), ("auth_placement", input.authPlacement)].forM
    (fun field => do
      nonEmpty field.1 field.2
      withinBounds (field.2.utf8ByteSize ≤ 512) fieldExceedsBounds)
  checkOptional [input.oauthClientId, input.oauthGrantType, input.authorizationEndpoint, input.tokenEndpoint]

def legacyFields : List (Option String) :=
  [some input.accountId, some input.providerInstanceId, some input.providerOrigin, some input.authKind,
    some input.providerProfile, input.oauthClientId, input.oauthGrantType, input.authorizationEndpoint,
    input.tokenEndpoint, some input.authPlacement]

/-- The text of the first version. -/
def legacyCanonical : String := legacyHeader ++ fingerprintFields input.legacyFields

def isOauth : Bool := eqIgnoreAsciiCase input.authKind "oauth"

def validateOauthFields : Except StoreError Unit := do
  checkOptional [input.revocationEndpoint, input.identityEndpoint, input.callbackEndpoint,
    input.oauthClientSecretReference]
  withinBounds (input.oauthScopes.length ≤ 256 && input.oauthScopes.all (sizeWithin 1024))
    "credential fingerprint OAuth scopes exceed metadata bounds"
  withinBounds (input.oauthAdditionalIdentity.length ≤ 256 &&
      input.oauthAdditionalIdentity.all (fun entry => sizeWithin 256 entry.1 && sizeWithin 1024 entry.2))
    "credential fingerprint OAuth provider behavior exceeds metadata bounds"

def sortedScopes : List String := sortDedup input.oauthScopes

/-- The additional entries by key and value. -/
def sortedAdditional : List (String ×ₗ String) := sortDedup (input.oauthAdditionalIdentity.map toLex)

def scopesPart : String :=
  toString input.sortedScopes.length ++ ":" ++ String.join (input.sortedScopes.map fingerprintField)

def additionalPart : String :=
  toString input.sortedAdditional.length ++ ":" ++ String.join (input.sortedAdditional.map (fun entry =>
    fingerprintField (ofLex entry).1 ++ fingerprintField (ofLex entry).2))

def oauthFields : List (Option String) :=
  [some input.accountId, some input.providerInstanceId, some input.providerOrigin, some input.authKind,
    some input.providerProfile, input.oauthClientId, input.oauthGrantType, input.authorizationEndpoint,
    input.tokenEndpoint, input.revocationEndpoint, input.identityEndpoint, input.callbackEndpoint,
    input.oauthClientSecretReference, some input.authPlacement]

/-- The text of the second version, or of the third where there are additional entries. -/
def oauthCanonical : String :=
  (if input.oauthAdditionalIdentity.isEmpty then oauthHeader else additionalHeader) ++
  fingerprintFields input.oauthFields ++ input.scopesPart ++
  (if input.oauthAdditionalIdentity.isEmpty then "" else input.additionalPart)

variable {δ : Type} (hexDigest : ByteArray → δ)

/-- The fingerprint of the first version, which an upgrade of the store looks for. -/
def legacyFingerprint (input : CredentialFingerprintInput) : Except StoreError δ := do
  input.validateLegacyFields
  .ok (hexDigest input.legacyCanonical.toUTF8)

/-- API keys keep the fingerprint of the first version. -/
def fingerprint (input : CredentialFingerprintInput) : Except StoreError δ := do
  input.validateLegacyFields
  input.validateOauthFields
  if input.isOauth then .ok (hexDigest input.oauthCanonical.toUTF8)
  else .ok (hexDigest input.legacyCanonical.toUTF8)

end CredentialFingerprintInput

end Pooler
