import Pooler.Lib.Guards
import Pooler.Spec.Protocol.Connect

/-! The envelope decoder byte by byte. A decoder between two bytes waits for more of a header or of
a payload, or is stuck on an error that its pending bytes already give. Both the chunk loop and the
loop over single bytes go through the same decoders. -/

namespace Pooler.Connect

open Lib Nat List Fed Bool

namespace ConnectDecoder

variable (gzDecoder : Bytes → GzipReads) (decoder : ConnectDecoder)

/-- The bytes that are pending when the part being read is complete. -/
def totalBytes : ℕ := envelopeHeaderBytes + decoder.expectedPayloadBytes.getD 0

/-- More bytes are needed before anything happens. -/
structure Waiting (decoder : ConnectDecoder) : Prop where
  open_ : decoder.ended = false
  short : decoder.pending.length < decoder.totalBytes
  fits : decoder.totalBytes ≤ usizeMax

/-- The error that the pending bytes give again at every further byte. -/
inductive Stuck (decoder : ConnectDecoder) : ConnectError → Prop
  | ended (h : decoder.ended = true) : Stuck decoder .afterEndStream
  | header {error} (hopen : decoder.ended = false) (hnone : decoder.expectedPayloadBytes = none)
      (hfull : decoder.pending.length = envelopeHeaderBytes) (herror : decoder.parseHeader = .error error) :
      Stuck decoder error
  | payload {error expected} (hopen : decoder.ended = false)
      (hsome : decoder.expectedPayloadBytes = some expected) (hfits : envelopeHeaderBytes + expected ≤ usizeMax)
      (hfull : decoder.pending.length = envelopeHeaderBytes + expected)
      (herror : decoder.parsePayload gzDecoder = .error error) : Stuck decoder error

def Sound : Prop := decoder.Waiting ∨ ∃ error, decoder.Stuck gzDecoder error

theorem withCompression_sound (limits : ConnectLimits) (compression : ConnectCompression) :
    (withCompression limits compression).Sound gzDecoder :=
  .inl ⟨rfl, succ_pos _, show envelopeHeaderBytes ≤ usizeMax by decide⟩

theorem length_payload_lt (bytes : Bytes) : ∀ n k, n < 256 ^ k →
    bytes.foldl (fun length byte => 256 * length + byte.toNat) n < 256 ^ (k + bytes.length) := by
  induction bytes with
  | nil => intro n k h; exact h
  | cons byte bytes ih =>
    intro n k h
    rw [foldl_cons, length_cons, add_comm bytes.length, ← add_assoc]
    refine ih _ _ ?_
    have := byte.toNat_lt
    rw [pow_succ]
    omega

theorem payloadBytes_fits : envelopeHeaderBytes + decoder.payloadBytes ≤ usizeMax := by
  have hlt := length_payload_lt ((decoder.pending.drop 1).take 4) 0 0 (by decide)
  have hle : 256 ^ (0 + ((decoder.pending.drop 1).take 4).length) ≤ 256 ^ 4 :=
    Nat.pow_le_pow_right (by decide) (by simp)
  rw [payloadBytes, envelopeHeaderBytes, usizeMax]
  omega

theorem parseHeader_eq_ok {decoder : ConnectDecoder} {n : ℕ} (h : decoder.parseHeader = .ok n) :
    n = decoder.payloadBytes := by
  rw [parseHeader, bind_eq_ok] at h
  obtain ⟨_, _, h⟩ := h
  split_ifs at h
  cases h
  rfl

/-! ### One byte -/

def push (byte : UInt8) : ConnectDecoder := { decoder with pending := decoder.pending ++ [byte] }

section Filling

variable {decoder : ConnectDecoder} {total : ℕ}

theorem room_push (h : decoder.pending.length < total) (byte : UInt8) :
    total - decoder.pending.length = total - (decoder.push byte).pending.length + 1 := by
  simp only [push, length_append, length_singleton]
  omega

theorem fill_cons (h : decoder.pending.length < total) (byte : UInt8) (rest : Bytes) :
    decoder.fill total (byte :: rest) = (decoder.push byte).fill total rest := by
  simp [fill, room_push h byte, push]

theorem unread_cons (h : decoder.pending.length < total) (byte : UInt8) (rest : Bytes) :
    decoder.unread total (byte :: rest) = (decoder.push byte).unread total rest := by
  rw [unread, unread, room_push h byte, drop_succ_cons]

theorem fill_full (h : total ≤ decoder.pending.length) (chunk : Bytes) : decoder.fill total chunk = decoder := by
  rw [fill, Nat.sub_eq_zero_of_le h, List.take_zero, List.append_nil]

theorem unread_full (h : total ≤ decoder.pending.length) (chunk : Bytes) : decoder.unread total chunk = chunk := by
  rw [unread, Nat.sub_eq_zero_of_le h, List.drop_zero]

theorem fill_nil : decoder.fill total [] = decoder := by rw [fill, take_nil, append_nil]

end Filling

variable {error : ConnectError}

section Reading

variable {decoder : ConnectDecoder} {expected : ℕ}

theorem readPayload_short (h : decoder.pending.length < envelopeHeaderBytes + expected)
    (hf : envelopeHeaderBytes + expected ≤ usizeMax) :
    decoder.readPayload gzDecoder expected [] = .went [] decoder [] := by
  simp [readPayload, if_neg (not_lt.2 hf), fill_nil, if_pos h, unread]

theorem readPayload_full (h : decoder.pending.length = envelopeHeaderBytes + expected)
    (hf : envelopeHeaderBytes + expected ≤ usizeMax) (chunk : Bytes) :
    decoder.readPayload gzDecoder expected chunk =
      match decoder.parsePayload gzDecoder with
      | .error error => .failed error decoder
      | .ok payload => decoder.emit payload chunk := by
  cases hpay : decoder.parsePayload gzDecoder <;>
    simp [readPayload, if_neg (not_lt.2 hf), fill_full h.ge, unread_full h.ge, h, hpay]

theorem readHeader_full (h : decoder.pending.length = envelopeHeaderBytes) (chunk : Bytes) :
    decoder.readHeader gzDecoder chunk =
      match decoder.parseHeader with
      | .error error => .failed error decoder
      | .ok payloadBytes =>
        { decoder with expectedPayloadBytes := some payloadBytes }.readPayload gzDecoder payloadBytes chunk := by
  cases hhead : decoder.parseHeader <;>
    simp [readHeader, fill_full h.ge, unread_full h.ge, h, hhead]

theorem turn_stuck (h : decoder.Stuck gzDecoder error) (chunk : Bytes) :
    decoder.turn gzDecoder chunk = .failed error decoder := by
  cases h with
  | ended h => rw [turn, if_pos h]
  | header ho hn hfull herr => simp only [turn, ho, hn, readHeader_full gzDecoder hfull, herr]; rfl
  | payload ho hsome hf hfull herr =>
    simp only [turn, ho, hsome, readPayload_full gzDecoder hfull hf, herr]; rfl

/-- What reading can come to once a byte has been taken, for every rest of the chunk. -/
inductive Outcome (read : Bytes → Turn) : Prop
  | waits (next : ConnectDecoder) (hnext : next.Waiting) (hend : read [] = .went [] next [])
      (hmore : ∀ byte rest, read (byte :: rest) = next.turn gzDecoder (byte :: rest))
  | emits (envelope : ConnectEnvelope) (next : ConnectDecoder) (hnext : next.Sound gzDecoder)
      (hended : next.ended = envelope.isEndStream) (hread : ∀ rest, read rest = .went [envelope] next rest)
  | fails (error : ConnectError) (next : ConnectDecoder) (hnext : next.Stuck gzDecoder error)
      (hread : ∀ rest, read rest = .failed error next)

theorem emit_outcome (payload : Bytes) : Outcome gzDecoder (decoder.emit payload) := by
  refine .emits ⟨decoder.flags, payload⟩ _ ?_ rfl (fun _ => rfl)
  cases hended : (⟨decoder.flags, payload⟩ : ConnectEnvelope).isEndStream with
  | true => exact .inr ⟨_, .ended rfl⟩
  | false => exact .inl ⟨rfl, succ_pos _, show envelopeHeaderBytes ≤ usizeMax by decide⟩

theorem readPayload_outcome (ho : decoder.ended = false)
    (hsome : decoder.expectedPayloadBytes = some expected) (hf : envelopeHeaderBytes + expected ≤ usizeMax)
    (hle : decoder.pending.length ≤ envelopeHeaderBytes + expected) :
    Outcome gzDecoder (decoder.readPayload gzDecoder expected) := by
  have htot : decoder.totalBytes = envelopeHeaderBytes + expected := by rw [totalBytes, hsome]; rfl
  rcases hle.lt_or_eq with hsh | hfull
  · refine .waits decoder ⟨ho, htot ▸ hsh, htot ▸ hf⟩ (readPayload_short gzDecoder hsh hf) ?_
    intro byte rest
    simp only [turn, ho, hsome]
    rfl
  · cases hpay : decoder.parsePayload gzDecoder with
    | error error =>
      refine .fails error decoder (.payload ho hsome hf hfull hpay) fun rest => ?_
      rw [readPayload_full gzDecoder hfull hf, hpay]
    | ok payload =>
      have hrd : decoder.readPayload gzDecoder expected = decoder.emit payload := by
        funext rest
        rw [readPayload_full gzDecoder hfull hf, hpay]
      rw [hrd]
      exact emit_outcome gzDecoder payload

theorem readHeader_outcome (ho : decoder.ended = false) (hn : decoder.expectedPayloadBytes = none)
    (hle : decoder.pending.length ≤ envelopeHeaderBytes) : Outcome gzDecoder (decoder.readHeader gzDecoder) := by
  have htot : decoder.totalBytes = envelopeHeaderBytes := by rw [totalBytes, hn]; rfl
  rcases hle.lt_or_eq with hsh | hfull
  · refine .waits decoder ⟨ho, htot ▸ hsh, htot ▸ by decide⟩ ?_ ?_
    · simp [readHeader, fill_nil, if_pos hsh, unread]
    intro byte rest
    simp only [turn, ho, hn]
    rfl
  · cases hhead : decoder.parseHeader with
    | error error =>
      refine .fails error decoder (.header ho hn hfull hhead) fun rest => ?_
      rw [readHeader_full gzDecoder hfull, hhead]
    | ok payloadBytes =>
      have hrd : decoder.readHeader gzDecoder =
          { decoder with expectedPayloadBytes := some payloadBytes }.readPayload gzDecoder payloadBytes := by
        funext rest
        rw [readHeader_full gzDecoder hfull, hhead]
      rw [hrd]
      refine readPayload_outcome gzDecoder ho rfl ?_ (hfull.le.trans (le_add_right _ _))
      rw [parseHeader_eq_ok hhead]
      exact payloadBytes_fits decoder

theorem turn_outcome (h : decoder.Waiting) (byte : UInt8) :
    Outcome gzDecoder fun rest => decoder.turn gzDecoder (byte :: rest) := by
  have ho := h.open_
  have hsh := h.short
  have hf := h.fits
  rw [totalBytes] at hsh hf
  have hpush : (decoder.push byte).pending.length = decoder.pending.length + 1 := by simp [push]
  cases hexp : decoder.expectedPayloadBytes with
  | none =>
    rw [hexp, Option.getD_none, add_zero] at hsh
    have hturn : (fun rest => decoder.turn gzDecoder (byte :: rest)) = (decoder.push byte).readHeader gzDecoder := by
      funext rest
      simp only [turn, ho, hexp, false_eq_true, if_false]
      simp [readHeader, fill_cons hsh, unread_cons hsh]
    rw [hturn]
    exact readHeader_outcome gzDecoder ho hexp (by rw [hpush]; exact hsh)
  | some expected =>
    rw [hexp, Option.getD_some] at hsh hf
    have hturn : (fun rest => decoder.turn gzDecoder (byte :: rest)) =
        (decoder.push byte).readPayload gzDecoder expected := by
      funext rest
      simp only [turn, ho, hexp, false_eq_true, if_false]
      simp [readPayload, if_neg (not_lt.2 hf), fill_cons hsh, unread_cons hsh]
    rw [hturn]
    exact readPayload_outcome gzDecoder ho hexp hf (by rw [hpush]; exact hsh)

end Reading

/-! ### The loops -/

def feedByte (byte : UInt8) : Fed ConnectError ConnectEnvelope ConnectDecoder := decoder.feed gzDecoder [byte]

section Bytewise

variable {decoder next : ConnectDecoder}

theorem feedLoop_failed {byte rest} (fuel : ℕ) (h : decoder.turn gzDecoder (byte :: rest) = .failed error next) :
    feedLoop gzDecoder (fuel + 1) decoder (byte :: rest) = ⟨.error error, next⟩ := by
  rw [feedLoop, h]

theorem feedLoop_went {envelopes byte rest chunk}
    (fuel : ℕ) (h : decoder.turn gzDecoder (byte :: rest) = .went envelopes next chunk) :
    feedLoop gzDecoder (fuel + 1) decoder (byte :: rest) =
      (⟨.ok envelopes, next⟩ : Fed _ _ _).andThen fun decoder => feedLoop gzDecoder fuel decoder chunk := by
  rw [feedLoop, h]

theorem feedLoop_nil (fuel : ℕ) : feedLoop gzDecoder fuel decoder [] = ⟨.ok [], decoder⟩ := by
  cases fuel <;> rfl

/-- What a byte does to a decoder. -/
inductive ByteStep (decoder : ConnectDecoder) (byte : UInt8) : Prop
  | waits (next : ConnectDecoder) (hnext : next.Waiting) (hopen : decoder.ended = false)
      (hstep : decoder.feedByte gzDecoder byte = ⟨.ok [], next⟩)
      (hloop : ∀ fuel rest,
        feedLoop gzDecoder (fuel + 1) decoder (byte :: rest) = feedLoop gzDecoder (fuel + 1) next rest)
  | emits (envelope : ConnectEnvelope) (next : ConnectDecoder) (hnext : next.Sound gzDecoder)
      (hopen : decoder.ended = false) (hended : next.ended = envelope.isEndStream)
      (hstep : decoder.feedByte gzDecoder byte = ⟨.ok [envelope], next⟩)
      (hloop : ∀ fuel rest, feedLoop gzDecoder (fuel + 1) decoder (byte :: rest) =
        (⟨.ok [envelope], next⟩ : Fed _ _ _).andThen fun decoder => feedLoop gzDecoder fuel decoder rest)
  | fails (error : ConnectError) (next : ConnectDecoder) (hnext : next.Stuck gzDecoder error)
      (hstep : decoder.feedByte gzDecoder byte = ⟨.error error, next⟩)
      (hloop : ∀ fuel rest, feedLoop gzDecoder (fuel + 1) decoder (byte :: rest) = ⟨.error error, next⟩)

theorem byteStep (h : decoder.Sound gzDecoder) (byte : UInt8) : ByteStep gzDecoder decoder byte := by
  rcases h with hwt | ⟨error, hstuck⟩
  · cases turn_outcome gzDecoder hwt byte with
    | waits next hnext hend hmore =>
      refine .waits next hnext hwt.open_ ?_ ?_
      · rw [feedByte, feed]
        exact (feedLoop_went gzDecoder 0 hend).trans (andThen_nothing _ _)
      · intro fuel rest
        cases rest with
        | nil => rw [feedLoop_nil, feedLoop_went gzDecoder fuel hend, andThen_nothing, feedLoop_nil]
        | cons c cs => rw [feedLoop, feedLoop, hmore c cs]
    | emits env next hnext hended hrd =>
      refine .emits env next hnext hwt.open_ hended ?_ fun fuel rest => feedLoop_went gzDecoder fuel (hrd rest)
      rw [feedByte, feed]
      exact (feedLoop_went gzDecoder 0 (hrd [])).trans (andThen_done _)
    | fails error next hnext hrd =>
      exact .fails error next hnext (feedLoop_failed gzDecoder 0 (hrd []))
        fun fuel rest => feedLoop_failed gzDecoder fuel (hrd rest)
  · have hturn := turn_stuck gzDecoder hstuck
    exact .fails error decoder hstuck (feedLoop_failed gzDecoder 0 (hturn _))
      fun fuel rest => feedLoop_failed gzDecoder fuel (hturn _)

theorem feedByte_sound (decoder : ConnectDecoder) (byte : UInt8) (h : decoder.Sound gzDecoder) :
    (decoder.feedByte gzDecoder byte).state.Sound gzDecoder := by
  cases byteStep gzDecoder h byte with
  | waits next hnext ho hstep => rw [hstep]; exact .inl hnext
  | emits env next hnext ho hended hstep => rw [hstep]; exact hnext
  | fails error next hnext hstep => rw [hstep]; exact .inr ⟨error, hnext⟩

theorem feedByte_error (decoder : ConnectDecoder) (byte : UInt8) (error : ConnectError) (h : decoder.Sound gzDecoder)
    (herr : (decoder.feedByte gzDecoder byte).result = .error error) :
    (decoder.feedByte gzDecoder byte).state.Stuck gzDecoder error := by
  cases byteStep gzDecoder h byte with
  | waits next hnext ho hstep | emits env next hnext ho hended hstep => rw [hstep] at herr; cases herr
  | fails error' next hnext hstep =>
    rw [hstep] at herr ⊢
    cases herr
    exact hnext

theorem feedLoop_eq_feedEach (chunk : Bytes) : ∀ fuel decoder, chunk.length ≤ fuel → decoder.Sound gzDecoder →
    feedLoop gzDecoder fuel decoder chunk = feedEach (feedByte gzDecoder) decoder chunk := by
  induction chunk with
  | nil => intro fuel decoder _ _; exact feedLoop_nil gzDecoder fuel
  | cons byte rest ih =>
    intro fuel decoder hfuel h
    obtain ⟨fuel, rfl⟩ : ∃ k, fuel = k + 1 := exists_eq_succ_of_ne_zero (by rw [length_cons] at hfuel; omega)
    have hr : rest.length ≤ fuel := le_of_succ_le_succ hfuel
    rw [feedEach]
    cases byteStep gzDecoder h byte with
    | waits next hnext ho hstep hloop =>
      -- a turn that has not filled its part by this byte is the next decoder's turn on the rest
      rw [hstep, andThen_nothing, hloop fuel rest]
      exact ih (fuel + 1) next (hr.trans (le_succ _)) (.inl hnext)
    | emits env next hnext ho hended hstep hloop =>
      rw [hstep, hloop fuel rest]
      exact andThen_congr (ih fuel next hr hnext)
    | fails error next hnext hstep hloop => rw [hstep, hloop fuel rest, andThen_error]

theorem feed_eq_feedEach (decoder : ConnectDecoder) (chunk : Bytes) (h : decoder.Sound gzDecoder) :
    decoder.feed gzDecoder chunk = feedEach (feedByte gzDecoder) decoder chunk :=
  feedLoop_eq_feedEach gzDecoder chunk _ _ le_rfl h

theorem feed_cuttable : Cuttable (Sound gzDecoder) (feed gzDecoder) :=
  .of_feedEach (feedByte_sound gzDecoder) (feed_eq_feedEach gzDecoder)

theorem feed_error {chunk} (h : decoder.Sound gzDecoder) (herr : (decoder.feed gzDecoder chunk).result = .error error) :
    (decoder.feed gzDecoder chunk).state.Stuck gzDecoder error := by
  rw [feed_eq_feedEach gzDecoder decoder chunk h] at herr ⊢
  exact feedEach_error (q := fun error next => Stuck gzDecoder next error) (feedByte_sound gzDecoder)
    (feedByte_error gzDecoder) chunk h herr

theorem feed_stuck (h : decoder.Stuck gzDecoder error) {chunk} (hne : chunk ≠ []) :
    decoder.feed gzDecoder chunk = ⟨.error error, decoder⟩ := by
  obtain ⟨byte, rest, rfl⟩ := exists_cons_of_ne_nil hne
  exact feedLoop_failed gzDecoder _ (turn_stuck gzDecoder h _)

/-- An end-stream envelope ends what a decoder gives. -/
structure Closing (decoder : ConnectDecoder) (envelopes : List ConnectEnvelope) (next : ConnectDecoder) : Prop where
  closed : decoder.ended = true → envelopes = [] ∧ next.ended = true
  last : envelopes.Pairwise fun first _ => first.isEndStream = false
  closes : ∀ envelope ∈ envelopes, envelope.isEndStream = true → next.ended = true

theorem Closing.nothing (decoder : ConnectDecoder) : Closing decoder [] decoder :=
  ⟨fun h => ⟨rfl, h⟩, .nil, fun _ h => absurd h not_mem_nil⟩

theorem Closing.append {first second third before after}
    (h : Closing first before second) (h' : Closing second after third) : Closing first (before ++ after) third where
  closed hended := by
    obtain ⟨rfl, hsec⟩ := h.closed hended
    exact h'.closed hsec
  last := by
    refine pairwise_append.2 ⟨h.last, h'.last, fun env hm other hoth => ?_⟩
    refine eq_false_iff.2 fun hend => ?_
    rw [(h'.closed (h.closes env hm hend)).1] at hoth
    exact absurd hoth not_mem_nil
  closes env hm hend := by
    rcases mem_append.1 hm with hm | hm
    · exact (h'.closed (h.closes env hm hend)).2
    · exact h'.closes env hm hend

theorem feedByte_closing (decoder : ConnectDecoder) (byte : UInt8) (envelopes : List ConnectEnvelope)
    (h : decoder.Sound gzDecoder) (hok : (decoder.feedByte gzDecoder byte).result = .ok envelopes) :
    Closing decoder envelopes (decoder.feedByte gzDecoder byte).state := by
  cases byteStep gzDecoder h byte with
  | waits next hnext ho hstep =>
    rw [hstep] at hok ⊢
    cases hok
    exact ⟨fun htrue => absurd htrue (by rw [ho]; decide), .nil, fun _ h => absurd h not_mem_nil⟩
  | emits env next hnext ho hended hstep =>
    rw [hstep] at hok ⊢
    cases hok
    refine ⟨fun htrue => absurd htrue (by rw [ho]; decide), pairwise_singleton _ _, ?_⟩
    intro env' hm hend
    rw [mem_singleton.1 hm] at hend
    exact hended.trans hend
  | fails error next hnext hstep => rw [hstep] at hok; cases hok

theorem feed_closing (chunk : Bytes) (h : decoder.Sound gzDecoder) :
    Closing decoder ((decoder.feed gzDecoder chunk).result.toOption.getD []) (decoder.feed gzDecoder chunk).state := by
  cases hres : (decoder.feed gzDecoder chunk).result with
  | error =>
    refine ⟨fun hended => ⟨rfl, ?_⟩, .nil, fun _ h => absurd h not_mem_nil⟩
    have hne : chunk ≠ [] := by
      rintro rfl
      rw [(feed_cuttable gzDecoder).nothing decoder h] at hres
      cases hres
    rw [feed_stuck gzDecoder (.ended hended) hne]
    exact hended
  | ok =>
    rw [feed_eq_feedEach gzDecoder decoder chunk h] at hres ⊢
    exact feedEach_ok Closing.nothing Closing.append (feedByte_sound gzDecoder) (feedByte_closing gzDecoder) chunk h
      hres

theorem produced_closing (chunks : List Bytes) : ∀ decoder, decoder.Sound gzDecoder →
    (produced (feed gzDecoder) decoder chunks).Pairwise (fun first _ => first.isEndStream = false) ∧
      (decoder.ended = true → produced (feed gzDecoder) decoder chunks = []) := by
  induction chunks with
  | nil => intro decoder _; exact ⟨.nil, fun _ => rfl⟩
  | cons chunk chunks ih =>
    intro decoder h
    have hchunk := feed_closing gzDecoder chunk h
    obtain ⟨hlast, hcl⟩ := ih _ ((feed_cuttable gzDecoder).keeps decoder chunk h)
    rw [produced]
    refine ⟨pairwise_append.2 ⟨hchunk.last, hlast, fun env hm other hoth => ?_⟩, fun hended => ?_⟩
    · refine eq_false_iff.2 fun hend => ?_
      rw [hcl (hchunk.closes env hm hend)] at hoth
      exact absurd hoth not_mem_nil
    · obtain ⟨hnil, hnext⟩ := hchunk.closed hended
      rw [hnil, hcl hnext]
      rfl

end Bytewise

end ConnectDecoder

end Pooler.Connect
