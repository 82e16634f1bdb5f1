import Pooler.Lib.Framing

/-! The key of a request in the response cache of its route: a digest of the request's fields,
each behind its length. -/

namespace Pooler

open Lib List

/-- The bytes of a Rust slice, which holds at most `isize::MAX` of them. -/
@[ext] structure Slice where
  bytes : List UInt8
  bounded : bytes.length < 2 ^ 63
  deriving DecidableEq

def Slice.empty : Slice := ⟨[], by decide⟩

/-- The bytes of a lower-case token. -/
def isHeaderNameByte (b : UInt8) : Bool :=
  (97 ≤ b && b ≤ 122) || (48 ≤ b && b ≤ 57) || b ∈ [33, 35, 36, 37, 38, 39, 42, 43, 45, 46, 94, 95, 96, 124, 126]

/-- Visible bytes, the blank, the tab and everything beyond ASCII. -/
def isHeaderValueByte (b : UInt8) : Bool := b == 9 || (32 ≤ b && b != 127)

/-- A name as `http::HeaderName` keeps it. -/
@[ext] structure HeaderName where
  text : Slice
  nonempty : text.bytes ≠ []
  valid : ∀ b ∈ text.bytes, isHeaderNameByte b = true
  deriving DecidableEq

def asciiBytes (text : String) : List UInt8 := text.toList.map (fun c => UInt8.ofNat c.toNat)

def HeaderName.fromStatic (text : String)
    (h : asciiBytes text ≠ [] ∧ (asciiBytes text).length < 2 ^ 63 ∧
      ∀ b ∈ asciiBytes text, isHeaderNameByte b = true := by decide +kernel) : HeaderName :=
  ⟨⟨asciiBytes text, h.2.1⟩, h.1, h.2.2⟩

def acceptName : HeaderName := .fromStatic "accept"
def acceptEncodingName : HeaderName := .fromStatic "accept-encoding"

/-- A value as `http::HeaderValue` keeps it; it may be empty. -/
@[ext] structure HeaderValue where
  text : Slice
  valid : ∀ b ∈ text.bytes, isHeaderValueByte b = true
  deriving DecidableEq

/-- The headers of a request, the values of one name in the order they came. -/
abbrev HeaderMap := List (HeaderName × HeaderValue)

def HeaderMap.getAll (headers : HeaderMap) (name : HeaderName) : List HeaderValue :=
  headers.filterMap (fun h => if h.1 = name then some h.2 else none)

/-- The headers that a route's key is made of. The route's table is built without repetition. -/
structure KeyHeaders where
  names : List HeaderName
  nodup : names.Nodup
  deriving DecidableEq

namespace KeyHeaders

/-- Adds a name unless it is there. -/
def push (headers : KeyHeaders) (name : HeaderName) : KeyHeaders :=
  if h : name ∈ headers.names then headers
  else ⟨headers.names ++ [name], by
    rw [nodup_append]
    refine ⟨headers.nodup, nodup_singleton name, ?_⟩
    rintro a ha b hb rfl
    rw [mem_singleton] at hb
    exact h (hb ▸ ha)⟩

/-- The names that every route has. -/
def base : KeyHeaders where
  names := [acceptName, acceptEncodingName, .fromStatic "content-type",
    .fromStatic "idempotency-key", .fromStatic "user-agent"]
  nodup := by decide +kernel

/-- The key headers of a route in `build_route_caches`. -/
def ofRoute (configured : List HeaderName) : KeyHeaders := configured.foldl push base

end KeyHeaders

def cacheKeyVersion : UInt8 := 1

structure CacheKeyInput where
  generation : UInt64
  (route target method uri : Slice)
  headers : HeaderMap
  keyHeaders : KeyHeaders
  body : Slice

/-- `u64::try_from(len).unwrap_or(u64::MAX)`. -/
def fieldLength (value : Slice) : ℕ := if value.bytes.length < 2 ^ 64 then value.bytes.length else 2 ^ 64 - 1

def pushField (output : List UInt8) (value : Slice) : List UInt8 :=
  output ++ beBytes 8 (fieldLength value) ++ value.bytes

/-- The name, every value, and an empty field. -/
def pushHeader (headers : HeaderMap) (output : List UInt8) (name : HeaderName) : List UInt8 :=
  pushField ((headers.getAll name).foldl (fun output value => pushField output value.text)
    (pushField output name.text)) Slice.empty

namespace CacheKeyInput

def generationBytes (input : CacheKeyInput) : Slice := ⟨beBytes 8 input.generation.toNat, by simp⟩

def canonical (input : CacheKeyInput) : List UInt8 :=
  let scope := [input.generationBytes, input.route, input.target, input.method, input.uri].foldl
    pushField [cacheKeyVersion]
  pushField (input.keyHeaders.names.foldl (pushHeader input.headers) scope) input.body

end CacheKeyInput

/-- The key is the digest alone. -/
def CacheKey.fromRequest {δ : Type*} (sha256 : List UInt8 → δ) (input : CacheKeyInput) : δ := sha256 input.canonical

end Pooler
