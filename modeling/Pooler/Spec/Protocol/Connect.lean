import Pooler.Lib.Feeding
import Pooler.Spec.Time

/-! ConnectRPC envelopes: a flags byte, a payload length of four bytes and the payload, decoded from
transport chunks of any size. -/

namespace Pooler.Connect

open Lib

abbrev Bytes := List UInt8

def envelopeHeaderBytes : ℕ := 5

def flagCompressed : UInt8 := 0x01

def flagEndStream : UInt8 := 0x02

def allowedFlags : UInt8 := flagCompressed ||| flagEndStream

inductive ConnectCompression
  | identity
  | gzip
deriving DecidableEq, Repr

structure ConnectLimits where
  (maxFrameBytes maxDecompressedBytes : ℕ)
deriving DecidableEq, Repr

structure ConnectEnvelope where
  flags : UInt8
  payload : Bytes
deriving DecidableEq, Repr

def ConnectEnvelope.isCompressed (envelope : ConnectEnvelope) : Bool := envelope.flags &&& flagCompressed ≠ 0

def ConnectEnvelope.isEndStream (envelope : ConnectEnvelope) : Bool := envelope.flags &&& flagEndStream ≠ 0

inductive ConnectError
  | invalidFlags (flags : UInt8)
  | compressedEndStream
  | compressionNotNegotiated
  | frameTooLarge (observed limit : ℕ)
  | decompressedTooLarge (observed limit : ℕ)
  | truncated (bytes : ℕ)
  | invalidGzip (message : String)
  | afterEndStream
deriving DecidableEq, Repr

def validateFlags (flags : UInt8) : Except ConnectError Unit :=
  if flags &&& ~~~allowedFlags ≠ 0 then .error (.invalidFlags flags)
  else if flags &&& flagCompressed ≠ 0 ∧ flags &&& flagEndStream ≠ 0 then .error .compressedEndStream
  else .ok ()

/-! ### Payloads -/

/-- What reading a payload through the gzip decoder gives: the non-empty reads, then an error or the
position of the reader at the end of the member. -/
structure GzipReads where
  reads : List Bytes
  ending : Except String ℕ

section Decoding

variable (gzDecoder : Bytes → GzipReads)

/-- The reads are collected up to the bound. -/
def gzipCollect (limit : ℕ) : Bytes → List Bytes → Except ConnectError Bytes
  | decoded, [] => .ok decoded
  | decoded, buffer :: reads =>
    let observed := satAdd usizeMax decoded.length buffer.length
    if observed > limit then .error (.decompressedTooLarge observed limit)
    else gzipCollect limit (decoded ++ buffer) reads

def gzipDecode (payload : Bytes) (limit : ℕ) : Except ConnectError Bytes := do
  let decoded ← gzipCollect limit [] (gzDecoder payload).reads
  match (gzDecoder payload).ending with
  | .error message => .error (.invalidGzip message)
  | .ok position =>
    if position ≠ payload.length then .error (.invalidGzip "trailing bytes after gzip member") else .ok decoded

def decodePayload (payload : Bytes) (flags : UInt8) (compression : ConnectCompression) (limits : ConnectLimits) :
    Except ConnectError Bytes :=
  if flags &&& flagCompressed = 0 then
    if payload.length > limits.maxDecompressedBytes then
      .error (.decompressedTooLarge payload.length limits.maxDecompressedBytes)
    else .ok payload
  else if compression ≠ .gzip then .error .compressionNotNegotiated
  else gzipDecode gzDecoder payload limits.maxDecompressedBytes

/-! ### The decoder -/

structure ConnectDecoder where
  limits : ConnectLimits
  compression : ConnectCompression
  pending : Bytes
  expectedPayloadBytes : Option ℕ
  ended : Bool
deriving DecidableEq, Repr

namespace ConnectDecoder

def withCompression (limits : ConnectLimits) (compression : ConnectCompression) : ConnectDecoder :=
  { limits := limits, compression := compression, pending := [], expectedPayloadBytes := none, ended := false }

/-- One turn of the loop of `feed`. -/
inductive Turn
  | failed (error : ConnectError) (decoder : ConnectDecoder)
  | went (envelopes : List ConnectEnvelope) (decoder : ConnectDecoder) (chunk : Bytes)

variable (decoder : ConnectDecoder)

/-- Fills the pending bytes up to a total, as far as the chunk goes. -/
def fill (total : ℕ) (chunk : Bytes) : ConnectDecoder :=
  { decoder with pending := decoder.pending ++ chunk.take (total - decoder.pending.length) }

def unread (total : ℕ) (chunk : Bytes) : Bytes := chunk.drop (total - decoder.pending.length)

def flags : UInt8 := decoder.pending.headD 0

/-- `u32::from_be_bytes` of the header's length. -/
def payloadBytes : ℕ := ((decoder.pending.drop 1).take 4).foldl (fun length byte => 256 * length + byte.toNat) 0

/-- The payload length of a complete header. -/
def parseHeader : Except ConnectError ℕ := do
  validateFlags decoder.flags
  if decoder.payloadBytes > decoder.limits.maxFrameBytes then
    .error (.frameTooLarge decoder.payloadBytes decoder.limits.maxFrameBytes)
  else .ok decoder.payloadBytes

def parsePayload : Except ConnectError Bytes :=
  decodePayload gzDecoder (decoder.pending.drop envelopeHeaderBytes) decoder.flags decoder.compression decoder.limits

/-- A complete envelope leaves the decoder. -/
def emit (payload chunk : Bytes) : Turn :=
  let envelope : ConnectEnvelope := ⟨decoder.flags, payload⟩
  .went [envelope] { decoder with ended := envelope.isEndStream, pending := [], expectedPayloadBytes := none } chunk

def readPayload (expected : ℕ) (chunk : Bytes) : Turn :=
  let totalBytes := envelopeHeaderBytes + expected
  if totalBytes > usizeMax then .failed (.frameTooLarge expected decoder.limits.maxFrameBytes) decoder
  else
    let filled := decoder.fill totalBytes chunk
    let chunk := decoder.unread totalBytes chunk
    if filled.pending.length < totalBytes then .went [] filled chunk
    else
      match filled.parsePayload gzDecoder with
      | .error error => .failed error filled
      | .ok payload => filled.emit payload chunk

variable (chunk : Bytes)

def readHeader : Turn :=
  let filled := decoder.fill envelopeHeaderBytes chunk
  let chunk := decoder.unread envelopeHeaderBytes chunk
  if filled.pending.length < envelopeHeaderBytes then .went [] filled chunk
  else
    match filled.parseHeader with
    | .error error => .failed error filled
    | .ok payloadBytes =>
      { filled with expectedPayloadBytes := some payloadBytes }.readPayload gzDecoder payloadBytes chunk

def turn : Turn :=
  if decoder.ended then .failed .afterEndStream decoder
  else
    match decoder.expectedPayloadBytes with
    | none => decoder.readHeader gzDecoder chunk
    | some expected => decoder.readPayload gzDecoder expected chunk

/-- The loop of `feed`, with a bound on its turns. -/
def feedLoop : ℕ → ConnectDecoder → Bytes → Fed ConnectError ConnectEnvelope ConnectDecoder
  | _, decoder, [] => ⟨.ok [], decoder⟩
  | 0, decoder, _ :: _ => ⟨.ok [], decoder⟩
  | fuel + 1, decoder, byte :: rest =>
    match decoder.turn gzDecoder (byte :: rest) with
    | .failed error decoder => ⟨.error error, decoder⟩
    | .went envelopes decoder chunk =>
      (⟨.ok envelopes, decoder⟩ : Fed _ _ _).andThen fun decoder => feedLoop fuel decoder chunk

/-- Every turn takes a byte of the chunk or fails, so its length bounds the turns. -/
def feed : Fed ConnectError ConnectEnvelope ConnectDecoder := feedLoop gzDecoder chunk.length decoder chunk

def finish : Except ConnectError Unit :=
  if decoder.pending = [] ∧ decoder.expectedPayloadBytes = none then .ok ()
  else .error (.truncated decoder.pending.length)

end ConnectDecoder

end Decoding

end Pooler.Connect
