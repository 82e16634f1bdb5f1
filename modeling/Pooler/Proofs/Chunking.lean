import Pooler.Lib.Trace
import Pooler.Sanity.Connect
import Pooler.Spec.Http.Sse

/-! Framing does not depend on how the transport cuts the stream. -/

namespace Pooler

open Lib

/-! ### Server-sent events -/

theorem SseParser.feed_cuttable : Cuttable (fun _ => True) SseParser.feed :=
  .of_feedEach (fun _ _ _ => trivial) fun _ _ _ => rfl

/-- Feeding the chunks one by one, up to the first error, comes to what feeding their concatenation
comes to: the same events or the same error, and the same parser. -/
theorem sse_parsing_ignores_chunking (parser : SseParser) (chunks : List (List UInt8)) :
    (deliver SseParser.feed parser chunks).result = (parser.feed chunks.flatten).result ∧
      (deliver SseParser.feed parser chunks).state = (parser.feed chunks.flatten).state := by
  rw [SseParser.feed_cuttable.feed_flatten chunks parser trivial]
  exact ⟨rfl, rfl⟩

example : (deliver SseParser.feed (.withLimits ⟨16, 64⟩) [utf8 "data: a\r", utf8 "\ndata:", utf8 "b\n\n"]).outputs =
    [⟨none, "a\nb".toList, none⟩] := by decide +kernel

/-- The event that a byte finds complete, when a carriage return has ended its blank line. -/
def SseParser.closedBefore (parser : SseParser) (byte : UInt8) : List SseEvent :=
  if parser.pendingCr && byte ≠ '\n'.toUInt8 then
    ({ parser with pendingCr := false }.finishLine 1).result.toOption.getD []
  else []

/-- The caller gets every event whose blank line precedes the byte at which the parser fails exactly
when no such event ends in the chunk of that byte. -/
theorem events_before_failure_delivered_iff (limits : SseLimits) (chunks : List (List UInt8)) :
    (deliver SseParser.feed (.withLimits limits) chunks).outputs =
        completed SseParser.feedByte SseParser.closedBefore (.withLimits limits) chunks.flatten ↔
      withheld SseParser.feedByte SseParser.closedBefore (.withLimits limits) chunks = [] := by
  rw [completed_flatten]
  exact List.self_eq_append_right

/-- The second event has a line of nine bytes where eight are allowed. -/
theorem event_before_long_line_is_lost :
    (deliver SseParser.feed (.withLimits ⟨8, 64⟩) [utf8 "data:a\n\n", utf8 "data:long"]).outputs =
        [⟨none, "a".toList, none⟩] ∧
      (deliver SseParser.feed (.withLimits ⟨8, 64⟩) [utf8 "data:a\n\ndata:long"]).outputs = [] ∧
      completed SseParser.feedByte SseParser.closedBefore (.withLimits ⟨8, 64⟩) (utf8 "data:a\n\ndata:long") =
        [⟨none, "a".toList, none⟩] := by
  decide +kernel

namespace Connect

/-! ### Connect envelopes -/

section Runs

variable (gzDecoder : Bytes → GzipReads)

/-- The decoder after all calls, going on after those that fail. -/
def ConnectDecoder.feedOn : ConnectDecoder → List Bytes → ConnectDecoder :=
  run fun decoder chunk => (decoder.feed gzDecoder chunk).state

theorem ConnectDecoder.feedOn_stuck {dec : ConnectDecoder} {error}
    (h : dec.Stuck gzDecoder error) (later : List Bytes) : dec.feedOn gzDecoder later = dec := by
  have hstep : ∀ s chunk, s = dec → (s.feed gzDecoder chunk).state = dec := by
    rintro _ chunk rfl
    by_cases hne : chunk = []
    · rw [hne, (feed_cuttable gzDecoder).nothing _ (.inr ⟨error, h⟩)]
    · rw [feed_stuck gzDecoder h hne]
  exact run_invariant hstep later dec rfl

end Runs

/-- A gzip decoder that finds no member. -/
def noMember (_ : Bytes) : GzipReads := ⟨[], .error "unexpected end of file"⟩

/-- The envelope before the bad one is given when it comes in a chunk of its own; a call that fails
gives its error only. -/
theorem envelope_before_error_is_lost :
    (deliver (ConnectDecoder.feed noMember) (.withCompression ⟨16, 16⟩ .identity)
        [[0, 0, 0, 0, 1, 65], [128, 0, 0, 0, 0]]).outputs = [⟨0, [65]⟩] ∧
      (deliver (ConnectDecoder.feed noMember) (.withCompression ⟨16, 16⟩ .identity)
        [[0, 0, 0, 0, 1, 65] ++ [128, 0, 0, 0, 0]]).outputs = [] := by
  decide +kernel

/-- In chunks and in one piece the decoder accepts alike, with the same envelopes and the same end,
or fails with the same first error; the envelopes given before the error are those of the chunks
before the one that fails. An error is given again at every later call with a byte, and nothing
stands after an end-stream envelope. -/
theorem connect_decoding_ignores_chunking (gzDecoder : Bytes → GzipReads) (limits : ConnectLimits)
    (compression : ConnectCompression) (chunks : List Bytes) :
    let decoder := ConnectDecoder.withCompression limits compression
    let pieces := deliver (ConnectDecoder.feed gzDecoder) decoder chunks
    let whole := decoder.feed gzDecoder chunks.flatten
    pieces.result = whole.result ∧ pieces.state.finish = whole.state.finish ∧
      (∃ n, (decoder.feed gzDecoder (chunks.take n).flatten).result = .ok pieces.outputs ∧
        (pieces.error = none → n = chunks.length) ∧
        ∀ error, pieces.error = some error →
          (decoder.feed gzDecoder (chunks.take (n + 1)).flatten).result = .error error) ∧
      (∀ error, pieces.error = some error → ∀ (later : List Bytes) (chunk : Bytes), chunk ≠ [] →
        ((pieces.state.feedOn gzDecoder later).feed gzDecoder chunk).result = .error error) ∧
      (produced (ConnectDecoder.feed gzDecoder) decoder chunks).Pairwise fun first _ => first.isEndStream = false := by
  intro decoder pieces whole
  have hsd : decoder.Sound gzDecoder := ConnectDecoder.withCompression_sound gzDecoder limits compression
  have hcut := ConnectDecoder.feed_cuttable gzDecoder
  have hwhole : whole = ⟨pieces.result, pieces.state⟩ := hcut.feed_flatten chunks decoder hsd
  refine ⟨by rw [hwhole], by rw [hwhole], hcut.outputs_of_start chunks decoder hsd, ?_,
    (ConnectDecoder.produced_closing gzDecoder chunks decoder hsd).1⟩
  intro error herr later chunk hne
  have hstuck : pieces.state.Stuck gzDecoder error :=
    hcut.deliver_error (q := fun error state => state.Stuck gzDecoder error)
      (ConnectDecoder.feed_error gzDecoder) chunks hsd herr
  rw [ConnectDecoder.feedOn_stuck gzDecoder hstuck later, ConnectDecoder.feed_stuck gzDecoder hstuck hne]

section Limits

open List

variable (gzDecoder : Bytes → GzipReads) {limits : ConnectLimits}

namespace ConnectDecoder

/-- The decoder keeps to its limits: it expects no more than a frame, and has no more than a header
and a frame. -/
structure Within (limits : ConnectLimits) (decoder : ConnectDecoder) : Prop where
  limits_eq : decoder.limits = limits
  expected : ∀ n, decoder.expectedPayloadBytes = some n → n ≤ limits.maxFrameBytes
  pending : decoder.pending.length ≤ envelopeHeaderBytes + limits.maxFrameBytes

def Turn.next : Turn → ConnectDecoder
  | .failed _ decoder | .went _ decoder _ => decoder

variable {decoder : ConnectDecoder}

theorem Within.fill (h : decoder.Within limits) {total : ℕ} (htot : total ≤ envelopeHeaderBytes + limits.maxFrameBytes)
    (chunk : Bytes) : (decoder.fill total chunk).Within limits := by
  refine ⟨h.limits_eq, h.expected, ?_⟩
  have := h.pending
  simp only [ConnectDecoder.fill, length_append, length_take]
  omega

theorem Within.readPayload (h : decoder.Within limits) {expected : ℕ} (hexp : expected ≤ limits.maxFrameBytes)
    (chunk : Bytes) : (decoder.readPayload gzDecoder expected chunk).next.Within limits := by
  have hfill := h.fill (Nat.add_le_add_left hexp envelopeHeaderBytes) chunk
  unfold ConnectDecoder.readPayload
  dsimp only
  split_ifs
  · exact h
  · exact hfill
  · split
    · exact hfill
    · exact ⟨hfill.limits_eq, nofun, Nat.zero_le _⟩

theorem Within.readHeader (h : decoder.Within limits) (chunk : Bytes) :
    (decoder.readHeader gzDecoder chunk).next.Within limits := by
  have hfill := h.fill (Nat.le_add_right envelopeHeaderBytes _) chunk
  unfold ConnectDecoder.readHeader
  dsimp only
  split_ifs
  · exact hfill
  split
  · exact hfill
  next hhead =>
    obtain ⟨_, _, hlen⟩ := bind_eq_ok.1 hhead
    split_ifs at hlen with hmax
    cases hlen
    rw [hfill.limits_eq, gt_iff_lt, not_lt] at hmax
    refine Within.readPayload gzDecoder ?_ hmax _
    exact ⟨hfill.limits_eq, fun _ hn => Option.some.inj hn ▸ hmax, hfill.pending⟩

theorem Within.feedLoop (fuel : ℕ) : ∀ {decoder : ConnectDecoder} {chunk : Bytes}, decoder.Within limits →
    (feedLoop gzDecoder fuel decoder chunk).state.Within limits := by
  induction fuel with
  | zero => intro decoder chunk h; cases chunk <;> exact h
  | succ fuel ih =>
    intro decoder chunk h
    cases chunk with
    | nil => exact h
    | cons byte rest =>
      have hturn : (decoder.turn gzDecoder (byte :: rest)).next.Within limits := by
        unfold turn
        split_ifs
        · exact h
        · split
          · exact h.readHeader gzDecoder _
          next hexp => exact h.readPayload gzDecoder (h.expected _ hexp) _
      rw [ConnectDecoder.feedLoop]
      split
      next heq => rw [heq] at hturn; exact hturn
      next heq => rw [heq] at hturn; exact ih hturn

/-- Whatever comes in, and going on after calls that fail, a decoder never has more pending than a
header and a frame within its limit. -/
theorem connect_decoder_stays_within_limits (limits : ConnectLimits) (compression : ConnectCompression)
    (chunks : List Bytes) : ((withCompression limits compression).feedOn gzDecoder chunks).pending.length ≤
      envelopeHeaderBytes + limits.maxFrameBytes :=
  (run_invariant (fun _ _ h => Within.feedLoop gzDecoder _ h) chunks
    (withCompression limits compression) ⟨rfl, nofun, Nat.zero_le _⟩).pending

end ConnectDecoder

end Limits

end Connect

end Pooler
