import Pooler.Lib.Assoc
import Pooler.Lib.Loop
import Pooler.Lib.Pick
import Pooler.Spec.Http.CacheKey

/-! # Reusable Responses WebSocket connections (`pooler-http/src/openai_websocket.rs`)

One event is one lock section of the pool together with the connect or the close that follows it.
The pool does not look into a continuation. The digest is a parameter. -/

namespace Pooler

open Lib

/-- The authentication generation of a connection; `δ` is the type of digests. -/
inductive CredentialGeneration (δ : Type) where
  | native (generation : ℕ)
  | materialized (digest : δ)
  deriving DecidableEq

@[ext] structure ConnectionIdentity (δ : Type) where
  (profile account endpoint : String)
  generation : CredentialGeneration δ
  session : Option String
  deriving DecidableEq

namespace ConnectionIdentity

variable {δ : Type}

def generationKey : CredentialGeneration δ → ℕ ⊕ₗ δ
  | .native generation => Sum.inlₗ generation
  | .materialized digest => Sum.inrₗ digest

variable (identity : ConnectionIdentity δ)

/-- The fields in the order in which the derived comparison reads them. -/
def key :
    String ×ₗ String ×ₗ String ×ₗ (ℕ ⊕ₗ δ) ×ₗ WithBot String :=
  toLex (identity.profile, toLex (identity.account, toLex (identity.endpoint,
    toLex (generationKey identity.generation, identity.session))))

theorem generationKey_injective : Function.Injective (generationKey : CredentialGeneration δ → ℕ ⊕ₗ δ) := by
  rintro (a | a) (b | b) h
  · exact congrArg _ (Sum.inl.inj h)
  · cases h
  · cases h
  · exact congrArg _ (Sum.inr.inj h)

theorem key_injective : Function.Injective (key : ConnectionIdentity δ → _) := by
  intro identity other h
  obtain ⟨hprof, h⟩ := Prod.mk.inj h
  obtain ⟨hacc, h⟩ := Prod.mk.inj h
  obtain ⟨hend, h⟩ := Prod.mk.inj h
  obtain ⟨hgen, hses⟩ := Prod.mk.inj h
  exact ConnectionIdentity.ext hprof hacc hend (generationKey_injective hgen) hses

instance [LinearOrder δ] : LinearOrder (ConnectionIdentity δ) := LinearOrder.lift' key key_injective

def sameCredentialScope (identity other : ConnectionIdentity δ) : Bool :=
  identity.profile = other.profile && identity.account = other.account && identity.endpoint = other.endpoint

def cacheable : Bool := identity.session.isSome

end ConnectionIdentity

/-- Where the generation of a request's connection comes from. -/
inductive RequestAuth where
  /-- A refreshable native authorization with its stored generation. -/
  | native (generation : ℕ)
  /-- A native authorization that is not refreshed: the headers it sets. -/
  | delta (authorization : HeaderMap)
  /-- The headers of the request as they are sent. -/
  | materialized
  deriving DecidableEq

/-- What the proxy knows when it asks the pool for a connection. -/
structure WebSocketRequest where
  (profile account endpoint : String)
  session : Option String
  configurationGeneration : UInt64
  auth : RequestAuth
  headers : HeaderMap

def authorizationName : HeaderName := .fromStatic "authorization"
def xApiKeyName : HeaderName := .fromStatic "x-api-key"
def xGoogApiKeyName : HeaderName := .fromStatic "x-goog-api-key"

/-- The name and all values, one after the other. -/
def headerMaterial (headers : HeaderMap) (name : HeaderName) : List UInt8 :=
  name.text.bytes ++ (headers.getAll name).flatMap fun value => value.text.bytes

variable (configurationGeneration : UInt64)

def materializedInput (headers : HeaderMap) : List UInt8 :=
  beBytes 8 configurationGeneration.toNat ++
    [authorizationName, xApiKeyName, xGoogApiKeyName].flatMap (headerMaterial headers)

/-- The order of the entries of a delta: by name, then by value, byte by byte. -/
def entryKey (entry : HeaderName × HeaderValue) : List ℕ ×ₗ List ℕ :=
  toLex (entry.1.text.bytes.map UInt8.toNat, entry.2.text.bytes.map UInt8.toNat)

/-- What `materialized_authorization_generation` hashes: the sorted entries, each part behind its
length. -/
def authorizationDeltaInput (delta : HeaderMap) : List UInt8 :=
  asciiBytes "pooler-native-authorization-delta-v1" ++ beBytes 8 configurationGeneration.toNat ++
    (delta.insertionSort fun a b => entryKey a ≤ entryKey b).flatMap fun entry =>
      pushField (pushField [] entry.1.text) entry.2.text

namespace WebSocketRequest

variable {δ : Type} (sha256 : List UInt8 → δ)

def generation (request : WebSocketRequest) : CredentialGeneration δ :=
  match request.auth with
  | .native generation => .native generation
  | .delta delta => .materialized (sha256 (authorizationDeltaInput request.configurationGeneration delta))
  | .materialized => .materialized (sha256 (materializedInput request.configurationGeneration request.headers))

def identity (request : WebSocketRequest) : ConnectionIdentity δ :=
  ⟨request.profile, request.account, request.endpoint, request.generation sha256, request.session⟩

end WebSocketRequest

/-- A socket in use or idle. `opened` is history: the request whose acquire opened the socket. -/
structure Connection where
  (socket createdAt : ℕ)
  opened : WebSocketRequest

structure CachedConnection (κ : Type) where
  connection : Connection
  lastUsedAt : ℕ
  continuation : Option κ

/-- A turn in progress with the connection it holds. -/
structure Turn (κ : Type) where
  request : WebSocketRequest
  connection : Connection
  continuation : Option κ

structure WebSocketLimits where
  (idleTtl maxAge maxIdleConnections : ℕ)

structure WebSocketPool (δ κ : Type) [LinearOrder δ] where
  connections : OrderedMap (ConnectionIdentity δ) (CachedConnection κ)
  turns : OrderedMap ℕ (Turn κ)
  /-- The number the next socket gets. -/
  nextSocket : ℕ

namespace WebSocketPool

variable {δ κ : Type} [LinearOrder δ]

def empty : WebSocketPool δ κ := ⟨.empty, .empty, 0⟩

variable (sha256 : List UInt8 → δ) (limits : WebSocketLimits)

def withinReuseBounds (cached : CachedConnection κ) (now : ℕ) : Bool :=
  now - cached.lastUsedAt < limits.idleTtl && now - cached.connection.createdAt < limits.maxAge

variable (identity : ConnectionIdentity δ) (connections : OrderedMap (ConnectionIdentity δ) (CachedConnection κ))

/-- Drops the idle connections of the same account and endpoint under another generation. -/
def invalidate :
    OrderedMap (ConnectionIdentity δ) (CachedConnection κ) :=
  connections.retain fun entry => !(entry.1.sameCredentialScope identity && entry.1.generation != identity.generation)

/-- The idle connection kept for the identity, if it may be kept at all. -/
def cachedFor :
    Option (CachedConnection κ) :=
  if identity.cacheable then connections.get identity else none

/-- What an acquire leaves idle. -/
def remaining :
    OrderedMap (ConnectionIdentity δ) (CachedConnection κ) :=
  if identity.cacheable then (invalidate identity connections).erase identity
  else invalidate identity connections

variable (pool : WebSocketPool δ κ)

def connect (turn : ℕ) (request : WebSocketRequest) (now : ℕ) :
    WebSocketPool δ κ :=
  { pool with
    turns := pool.turns.insert turn ⟨request, ⟨pool.nextSocket, now, request⟩, none⟩
    nextSocket := pool.nextSocket + 1 }

def acquire (turn : ℕ) (request : WebSocketRequest) (now : ℕ)
    (connects : Bool) : WebSocketPool δ κ :=
  let identity := request.identity sha256
  let taken := { pool with connections := remaining identity pool.connections }
  let opened := if connects then taken.connect turn request now else taken
  match cachedFor identity (invalidate identity pool.connections) with
  | some cached =>
    if withinReuseBounds limits cached now then
      { taken with
        turns := pool.turns.insert turn ⟨request, cached.connection, cached.continuation⟩ }
    else opened
  | none => opened

variable (connections : OrderedMap (ConnectionIdentity δ) (CachedConnection κ))

/-- The idle connection that was used longest ago. -/
def oldest :
    Option (ConnectionIdentity δ) :=
  (minBy (fun a b => compare a.2.lastUsedAt b.2.lastUsedAt) connections.entries).map (·.1)

def evictOldest :
    OrderedMap (ConnectionIdentity δ) (CachedConnection κ) :=
  match oldest connections with
  | some identity => connections.erase identity
  | none => connections

def overfull : Bool := limits.maxIdleConnections < connections.size

def evict :
    OrderedMap (ConnectionIdentity δ) (CachedConnection κ) :=
  whileLoop (overfull limits) evictOldest connections.size connections

/-- The end of a turn; a connection that is kept becomes idle under the identity of its request. -/
def release (turn : ℕ) (continuation : Option κ) (keep : Bool) (now : ℕ) :
    WebSocketPool δ κ :=
  match pool.turns.get turn with
  | none => pool
  | some held =>
    let identity := held.request.identity sha256
    let ended := { pool with turns := pool.turns.erase turn }
    if !identity.cacheable || !keep || limits.maxAge ≤ now - held.connection.createdAt then ended
    else
      { ended with
        connections := evict limits (pool.connections.insert identity ⟨held.connection, now, continuation⟩) }

inductive Event (κ : Type) where
  | acquire (turn : ℕ) (request : WebSocketRequest) (now : ℕ) (connects : Bool)
  | release (turn : ℕ) (continuation : Option κ) (keep : Bool) (now : ℕ)
  /-- The turn fails and its connection is closed or dropped. -/
  | drop (turn : ℕ)
  /-- One round of `cleanup_cached_connections`. -/
  | cleanup (now : ℕ) (cancelled : Bool)

def step : Event κ → WebSocketPool δ κ
  | .acquire turn request now connects =>
    if pool.turns.contains turn then pool else pool.acquire sha256 limits turn request now connects
  | .release turn continuation keep now => pool.release sha256 limits turn continuation keep now
  | .drop turn => { pool with turns := pool.turns.erase turn }
  | .cleanup now cancelled =>
    { pool with
      connections := pool.connections.retain fun entry => !(cancelled || !withinReuseBounds limits entry.2 now) }

end WebSocketPool

end Pooler
