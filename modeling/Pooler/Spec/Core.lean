import Pooler.Lib.KeyOrder

/-! Identifiers, capabilities and failure classes: the contracts of `pooler-core`
that selection, health and retry share. -/

namespace Pooler

open Lib

/-- `char::is_control`, the general category Cc. -/
def isControl (c : Char) : Bool := c.toNat ≤ 0x1f || (0x7f ≤ c.toNat && c.toNat ≤ 0x9f)

/-- `char::is_whitespace`, the property White_Space. -/
def isWhitespace (c : Char) : Bool :=
  (0x09 ≤ c.toNat && c.toNat ≤ 0x0d) || (0x2000 ≤ c.toNat && c.toNat ≤ 0x200a) ||
    [0x20, 0x85, 0xa0, 0x1680, 0x2028, 0x2029, 0x202f, 0x205f, 0x3000].contains c.toNat

def maxIdentifierLength : ℕ := 256

inductive IdentifierError where
  | empty
  | tooLong (max : ℕ)
  | invalidCharacter (character : Char)
  deriving DecidableEq, Repr

def validateNamed (value : String) : Except IdentifierError Unit :=
  if value = "" then .error .empty
  else if value.utf8ByteSize > maxIdentifierLength then .error (.tooLong maxIdentifierLength)
  else match value.toList.find? (fun c => isControl c || isWhitespace c) with
    | some character => .error (.invalidCharacter character)
    | none => .ok ()

/-- What a validated identifier names. Each kind is a type of its own in the source. -/
inductive IdKind where
  | route | listener | provider | credential | model | session | target
  deriving DecidableEq, Repr

/-- A validated identifier: the text has passed `validateNamed`. -/
structure Ident (kind : IdKind) where
  asStr : String
  valid : (validateNamed asStr).isOk = true

abbrev RouteId := Ident .route
abbrev ListenerId := Ident .listener
abbrev ProviderId := Ident .provider
abbrev CredentialId := Ident .credential
abbrev ModelId := Ident .model
abbrev TargetId := Ident .target

theorem Ident.ext {k : IdKind} {a b : Ident k} (h : a.asStr = b.asStr) : a = b := by
  cases a; cases b; cases h; rfl

instance {k : IdKind} : DecidableEq (Ident k) := fun a b =>
  if h : a.asStr = b.asStr then isTrue (Ident.ext h) else isFalse (fun e => h (e ▸ rfl))

instance {k : IdKind} : StringKeyed (Ident k) where
  key a := [a.asStr]
  key_injective _ _ h := Ident.ext (by simpa using h)

instance transCmp_credentialId : Std.TransCmp (StringKeyed.cmp (α := CredentialId)) := inferInstance

instance transCmp_modelId : Std.TransCmp (StringKeyed.cmp (α := ModelId)) := inferInstance

def Ident.new (k : IdKind) (value : String) : Except IdentifierError (Ident k) :=
  match h : validateNamed value with
  | .error e => .error e
  | .ok _ => .ok ⟨value, by simp [h, Except.isOk, Except.toBool]⟩

theorem Ident.new_asStr {k : IdKind} {value : String} {id : Ident k} (h : Ident.new k value = .ok id) :
    id.asStr = value := by
  unfold Ident.new at h
  split at h
  · cases h
  · cases h; rfl

/-- The composite identity of one target/account binding, ordered by its fields in turn. -/
structure BindingKey where
  targetId : TargetId
  accountId : CredentialId
  accountFingerprint : String
  deriving DecidableEq

instance : StringKeyed BindingKey where
  key b := [b.targetId.asStr, b.accountId.asStr, b.accountFingerprint]
  key_injective a b h := by
    obtain ⟨h1, h2, h3⟩ : a.targetId.asStr = b.targetId.asStr ∧ a.accountId.asStr = b.accountId.asStr ∧
        a.accountFingerprint = b.accountFingerprint := by simpa using h
    cases a; cases b
    cases Ident.ext h1; cases Ident.ext h2; cases h3
    rfl

inductive Capability where
  | text | images | audio | files | tools | reasoning | streaming | usage | structuredOutput
  | jsonSchema | functionCalling | toolChoice | cacheHints | continuation | responseMetadata
  | encryptedReasoning | refusal | errorEvents | inputAudio | outputAudio | codeExecution
  | computerUse | batch | embeddings | sse | webSocket | connectRpc | protobuf | imageGeneration
  deriving DecidableEq, Repr

namespace Capability

def all : List Capability :=
  [text, images, audio, files, tools, reasoning, streaming, usage, structuredOutput, jsonSchema,
    functionCalling, toolChoice, cacheHints, continuation, responseMetadata, encryptedReasoning,
    refusal, errorEvents, inputAudio, outputAudio, codeExecution, computerUse, batch, embeddings,
    sse, webSocket, connectRpc, protobuf, imageGeneration]

/-- The discriminant of the source's `repr(u8)` enumeration. -/
def index : Capability → ℕ
  | text => 0 | images => 1 | audio => 2 | files => 3 | tools => 4 | reasoning => 5
  | streaming => 6 | usage => 7 | structuredOutput => 8 | jsonSchema => 9 | functionCalling => 10
  | toolChoice => 11 | cacheHints => 12 | continuation => 13 | responseMetadata => 14
  | encryptedReasoning => 15 | refusal => 16 | errorEvents => 17 | inputAudio => 18
  | outputAudio => 19 | codeExecution => 20 | computerUse => 21 | batch => 22 | embeddings => 23
  | sse => 24 | webSocket => 25 | connectRpc => 26 | protobuf => 27 | imageGeneration => 28

def bit (c : Capability) : BitVec 64 := 1#64 <<< c.index

/-- The configuration spelling. -/
def asStr : Capability → String
  | .text => "text" | .images => "images" | .audio => "audio" | .files => "files"
  | .tools => "tools" | .reasoning => "reasoning" | .streaming => "streaming" | .usage => "usage"
  | .structuredOutput => "structured_output" | .jsonSchema => "json_schema"
  | .functionCalling => "function_calling" | .toolChoice => "tool_choice"
  | .cacheHints => "cache_hints" | .continuation => "continuation"
  | .responseMetadata => "response_metadata" | .encryptedReasoning => "encrypted_reasoning"
  | .refusal => "refusal" | .errorEvents => "error_events" | .inputAudio => "input_audio"
  | .outputAudio => "output_audio" | .codeExecution => "code_execution"
  | .computerUse => "computer_use" | .batch => "batch" | .embeddings => "embeddings"
  | .sse => "sse" | .webSocket => "web_socket" | .connectRpc => "connect_rpc"
  | .protobuf => "protobuf" | .imageGeneration => "image_generation"

end Capability

/-- The bits of the capabilities known to this version. -/
def knownBits : BitVec 64 := (1#64 <<< Capability.all.length) - 1#64

/-- A bit set of capabilities. No constructor of the source can set an unknown bit. -/
structure CapabilitySet where
  bits : BitVec 64
  known : bits &&& ~~~knownBits = 0#64
  deriving DecidableEq

namespace CapabilitySet

def new : CapabilitySet := ⟨0#64, by decide⟩

variable (s : CapabilitySet)

def isEmpty : Bool := s.bits = 0#64

variable (c : Capability)

def contains : Bool := s.bits &&& c.bit ≠ 0#64

def containsAll (s required : CapabilitySet) : Bool := s.bits &&& required.bits = required.bits

theorem known_bit : c.bit &&& ~~~knownBits = 0#64 := by
  cases c <;> decide

theorem known_or {a b : BitVec 64} (ha : a &&& ~~~knownBits = 0#64) (hb : b &&& ~~~knownBits = 0#64) :
    (a ||| b) &&& ~~~knownBits = 0#64 := by
  rw [BitVec.and_comm, BitVec.and_or_distrib_left, BitVec.and_comm, ha, BitVec.and_comm, hb, BitVec.or_zero]

theorem known_inter {a : BitVec 64} (b : BitVec 64) (ha : a &&& ~~~knownBits = 0#64) :
    (a &&& b) &&& ~~~knownBits = 0#64 := by
  rw [BitVec.and_assoc, BitVec.and_comm b, ← BitVec.and_assoc, ha, BitVec.zero_and]

def insert : CapabilitySet := ⟨s.bits ||| c.bit, known_or s.known (known_bit c)⟩

def union (s t : CapabilitySet) : CapabilitySet := ⟨s.bits ||| t.bits, known_or s.known t.known⟩

def intersection (s t : CapabilitySet) : CapabilitySet := ⟨s.bits &&& t.bits, known_inter t.bits s.known⟩

def difference (s t : CapabilitySet) : CapabilitySet := ⟨s.bits &&& ~~~t.bits, known_inter (~~~t.bits) s.known⟩

/-- `FromIterator`. -/
def ofList (cs : List Capability) : CapabilitySet := cs.foldl insert new

/-- `iter`, in declaration order. -/
def toList : List Capability := Capability.all.filter s.contains

end CapabilitySet

inductive ParamSupport where
  | accepted
  | rejected
  deriving DecidableEq

structure ModelDialect where
  temperature : ParamSupport
  deriving DecidableEq

def ModelDialect.default : ModelDialect := ⟨.accepted⟩

inductive ErrorClass where
  | downstreamAuthentication | invalidRequest | unsupportedConversion | providerAuthentication
  | credentialQuotaExhausted | modelQuotaExhausted | providerRateLimited | providerUnavailable
  | network | timeout | invalidUpstreamResponse | incompleteStream | internalInvariant
  | downstreamDisconnected
  deriving DecidableEq, Repr

inductive ErrorScope where
  | downstream | credential | model | provider | route | internal
  deriving DecidableEq, Repr

inductive Retryability where
  | never | beforeCommit
  deriving DecidableEq, Repr

inductive ReplaySafety where
  | notReplayable | replayable | requiresIdempotencyKey
  deriving DecidableEq, Repr

end Pooler
