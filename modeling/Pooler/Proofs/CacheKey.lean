import Pooler.Lib.Text
import Pooler.Spec.Http.CacheKey

/-! What the cache key of a request identifies. An empty field ends the values of a header, and a
value may be empty too: with two key headers the end of the first one's values can be moved. -/

namespace Pooler

open Lib List CacheKeyInput Function

variable (value : Slice)

theorem fieldLength_eq : fieldLength value = value.bytes.length := by
  have := value.bounded
  rw [fieldLength, if_pos (by omega)]

def frame : List UInt8 := beBytes 8 (fieldLength value) ++ value.bytes

theorem frame_selfDelimiting : SelfDelimiting frame := by
  apply SelfDelimiting.sized (w := fun _ => 1) (fun _ => Nat.one_pos) (fun a b h => Slice.ext h)
  intro a b s t h
  obtain ⟨hlen, hst⟩ := append_inj h (by simp)
  have ha := a.bounded
  have hb := b.bounded
  rw [fieldLength_eq, fieldLength_eq] at hlen
  have := beBytes_inj (by norm_num; omega) (by norm_num; omega) hlen
  exact ⟨by simpa using this, hst⟩

theorem frame_ne_nil : frame value ≠ [] := by
  intro h
  have := congrArg List.length h
  simp [frame] at this

theorem pushField_eq (output : List UInt8) (value : Slice) : pushField output value = output ++ frame value := by
  simp [pushField, frame]

variable (headers : HeaderMap)

def headerFields (name : HeaderName) : List Slice := name.text :: ((headers.getAll name).map (·.text) ++ [Slice.empty])

theorem foldl_pushField (vals : List Slice) : ∀ output,
    vals.foldl pushField output = output ++ vals.flatMap frame := by
  induction vals with
  | nil => intro output; simp
  | cons value vals ih => intro output; simp [ih, pushField_eq]

theorem pushHeader_eq (output : List UInt8) (name : HeaderName) :
    pushHeader headers output name = output ++ (headerFields headers name).flatMap frame := by
  have hvals : ∀ (vals : List HeaderValue) (output : List UInt8),
      vals.foldl (fun output value => pushField output value.text) output =
        output ++ (vals.map (·.text)).flatMap frame := by
    intro vals output
    rw [← foldl_pushField, foldl_map]
  rw [pushHeader, hvals, pushField_eq, pushField_eq]
  simp [headerFields]

theorem foldl_pushHeader (names : List HeaderName) : ∀ output,
    names.foldl (pushHeader headers) output = output ++ (names.flatMap (headerFields headers)).flatMap frame := by
  induction names with
  | nil => intro output; simp
  | cons name names ih => intro output; simp [ih, pushHeader_eq]

variable {a b : CacheKeyInput}

namespace CacheKeyInput

variable (input : CacheKeyInput)

/-- Generation, route, target, method and path, as they stand in the key. -/
def scope : List Slice := [input.generationBytes, input.route, input.target, input.method, input.uri]

def headerPart : List Slice := input.keyHeaders.names.flatMap (headerFields input.headers)

theorem canonical_eq : input.canonical =
    cacheKeyVersion :: (input.scope ++ (input.headerPart ++ [input.body])).flatMap frame := by
  rw [canonical, foldl_pushField, foldl_pushHeader, pushField_eq]
  simp [scope, headerPart]

theorem generationBytes_inj (h : a.generationBytes = b.generationBytes) : a.generation = b.generation := by
  have hbyt := beBytes_inj (by norm_num; exact a.generation.toNat_lt)
    (by norm_num; exact b.generation.toNat_lt) (congrArg Slice.bytes h)
  exact UInt64.toNat_inj.1 hbyt

/-- The requests are the same as far as the cache may look at them. -/
structure Same (a b : CacheKeyInput) : Prop where
  generation : a.generation = b.generation
  route : a.route = b.route
  target : a.target = b.target
  method : a.method = b.method
  uri : a.uri = b.uri
  values : ∀ name ∈ a.keyHeaders.names, a.headers.getAll name = b.headers.getAll name
  body : a.body = b.body

theorem canonical_inj :
    a.canonical = b.canonical ↔ a.scope = b.scope ∧ a.headerPart = b.headerPart ∧ a.body = b.body := by
  rw [canonical_eq, canonical_eq]
  constructor
  · intro h
    have hflds := frame_selfDelimiting.flatMap_injective frame_ne_nil (cons.inj h).2
    obtain ⟨hscp, hr⟩ := append_inj hflds rfl
    obtain ⟨hhdrs, hbody⟩ := append_inj' hr rfl
    exact ⟨hscp, hhdrs, singleton_inj.1 hbody⟩
  · rintro ⟨hscp, hhdrs, hbody⟩
    rw [hscp, hhdrs, hbody]

theorem same_of_scope (hscp : a.scope = b.scope) (hbody : a.body = b.body)
    (hvals : ∀ name ∈ a.keyHeaders.names, a.headers.getAll name = b.headers.getAll name) : a.Same b := by
  simp only [scope, cons.injEq, and_true] at hscp
  obtain ⟨hgen, hroute, htgt, hmet, huri⟩ := hscp
  exact ⟨generationBytes_inj hgen, hroute, htgt, hmet, huri, hvals, hbody⟩

end CacheKeyInput

/-- With one key header, its values are what stands between the name and the last two fields. -/
theorem headerPart_single {first second name}
    (h : headerFields first name = headerFields second name) : first.getAll name = second.getAll name := by
  obtain ⟨hvals, -⟩ := append_inj' (cons.inj h).2 rfl
  exact map_injective_iff.2 (fun _ _ h => HeaderValue.ext h) hvals

theorem isHeaderValueByte_of_name {b} (h : isHeaderNameByte b = true) : isHeaderValueByte b = true := by
  revert b
  decide +kernel

def HeaderName.asValue (name : HeaderName) : HeaderValue :=
  ⟨name.text, fun b hb => isHeaderValueByte_of_name (name.valid b hb)⟩

def HeaderValue.empty : HeaderValue := ⟨Slice.empty, fun _ hb => absurd hb not_mem_nil⟩

/-- A request to a route with the given key headers, that sends one header twice: empty, and with
the name of a key header as its value. -/
def sendTwice (keyHeaders : KeyHeaders) (sent named : HeaderName) : CacheKeyInput where
  generation := 0
  route := Slice.empty
  target := Slice.empty
  method := Slice.empty
  uri := Slice.empty
  headers := [(sent, HeaderValue.empty), (sent, named.asValue)]
  keyHeaders
  body := Slice.empty

theorem getAll_sendTwice (keyHeaders : KeyHeaders) (sent named name : HeaderName) :
    (sendTwice keyHeaders sent named).headers.getAll name =
      if sent = name then [HeaderValue.empty, named.asValue] else [] := by
  by_cases h : sent = name
  · simp [sendTwice, HeaderMap.getAll, h]
  · simp [sendTwice, HeaderMap.getAll, h]

/-- Sent under the first name or under the second, the two values look the same. -/
theorem canonical_sendTwice {keyHeaders first second rest} (hnms : keyHeaders.names = first :: second :: rest) :
    (sendTwice keyHeaders first second).canonical = (sendTwice keyHeaders second second).canonical := by
  have hnd := keyHeaders.nodup
  simp only [hnms, nodup_cons, mem_cons, not_or] at hnd
  obtain ⟨⟨hne, hfst⟩, hsec, -⟩ := hnd
  have hr : rest.flatMap (headerFields (sendTwice keyHeaders first second).headers) =
      rest.flatMap (headerFields (sendTwice keyHeaders second second).headers) := by
    apply flatMap_congr
    intro name hname
    rw [headerFields, headerFields, getAll_sendTwice, getAll_sendTwice, if_neg (by rintro rfl; exact hfst hname),
      if_neg (by rintro rfl; exact hsec hname)]
  have hpart : ∀ sent, (sendTwice keyHeaders sent second).headerPart =
      headerFields (sendTwice keyHeaders sent second).headers first ++
        (headerFields (sendTwice keyHeaders sent second).headers second ++
          rest.flatMap (headerFields (sendTwice keyHeaders sent second).headers)) := by
    intro sent
    simp [CacheKeyInput.headerPart, show (sendTwice keyHeaders sent second).keyHeaders = keyHeaders from rfl, hnms]
  refine canonical_inj.2 ⟨rfl, ?_, rfl⟩
  rw [hpart, hpart, hr]
  simp [headerFields, getAll_sendTwice, hne, Ne.symm hne, HeaderValue.empty, HeaderName.asValue]

end Pooler
