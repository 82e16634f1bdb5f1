import Pooler.Lib.Framing
import Pooler.Spec.Text
import Pooler.Spec.Policy.Health

/-! The keys under which cooldowns are stored. The pool writes a scope as a name and a text; the
store reads back from the two which credential a cooldown belongs to. -/

namespace Pooler

open Lib

/-- A character of a JSON string as `serde_json` writes it. -/
def escapeJson (c : Char) : Text :=
  let hex := Nat.toDigits 16 c.toNat
  if c = '"' then ['\\', '"']
  else if c = '\\' then ['\\', '\\']
  else if c = '\n' then ['\\', 'n']
  else if c = '\r' then ['\\', 'r']
  else if c = '\t' then ['\\', 't']
  else if c.toNat = 8 then ['\\', 'b']
  else if c.toNat = 12 then ['\\', 'f']
  else if c.toNat < 32 then ['\\', 'u'] ++ List.replicate (4 - hex.length) '0' ++ hex
  else [c]

def quoteJson (value : String) : String := "\"" ++ String.ofList (value.toList.flatMap escapeJson) ++ "\""

/-- `serde_json::to_string` of a binding. -/
def BindingKey.toJson (binding : BindingKey) : String :=
  "\x7b\"target_id\":" ++ quoteJson binding.targetId.asStr ++ ",\"account_id\":" ++ quoteJson binding.accountId.asStr ++
    ",\"account_fingerprint\":" ++ quoteJson binding.accountFingerprint ++ "\x7d"

def encodeCompoundCooldownKey (left right : String) : String :=
  "v2:" ++ toString left.utf8ByteSize ++ ":" ++ toString right.utf8ByteSize ++ ":" ++ left ++ right

def cooldownKey : CooldownScope → String × String
  | .credential id => ("credential", id.asStr)
  | .credentialModel credential model => ("credential_model", encodeCompoundCooldownKey credential.asStr model.asStr)
  | .binding binding => ("binding", binding.toJson)
  | .bindingModel binding model => ("binding_model", encodeCompoundCooldownKey binding.toJson model.asStr)
  | .model model => ("model", model.asStr)
  | .provider provider => ("provider", provider.asStr)
  | .providerModel provider model => ("provider_model", encodeCompoundCooldownKey provider.asStr model.asStr)
  | .route route => ("route", route.asStr)

/-- `str::parse::<usize>`: one sign, then digits. -/
def parseUsize (value : Text) : Option ℕ :=
  let digits := match value with
    | '+' :: digits => digits
    | digits => digits
  let number := Nat.ofDigitChars 10 digits 0
  if digits ≠ [] ∧ digits.all Char.isDigit ∧ number ≤ usizeMax then some number else none

namespace MemoryStore

def decodeCompoundCooldownKey (key : String) : Option (String × String) := do
  let value ← stripPrefix "v2:".toList key.toList
  let (leftLength, value) ← splitOnce ':' value
  let (rightLength, value) ← splitOnce ':' value
  let leftLength ← parseUsize leftLength
  let rightLength ← parseUsize rightLength
  let total := leftLength + rightLength
  if total > usizeMax ∨ weigh Char.utf8Size value ≠ total then none
  else
    -- the two halves are texts only if no character lies across the cut
    let (left, right) ← splitWeighed Char.utf8Size leftLength value
    some (String.ofList left, String.ofList right)

/-- Keys written before the lengths were part of them have one colon. -/
def legacyCredentialId (key : String) : Option String :=
  if key.toList.count ':' = 1 then (splitOnce ':' key.toList).map (fun halves => String.ofList halves.1) else none

def cooldownCredentialId (scope key : String) : Option String :=
  if scope = "credential" then some key
  else if scope = "credential_model" then ((decodeCompoundCooldownKey key).map Prod.fst).or (legacyCredentialId key)
  else none

def cooldownBelongsToCredential (scope key credentialId : String) : Bool :=
  cooldownCredentialId scope key = some credentialId

end MemoryStore

end Pooler
