import Pooler.Lib.Recover
import Pooler.Sanity.Fields
import Pooler.Spec.Protocol.ChatRequest
import Pooler.Spec.Protocol.Fidelity

/-! Parts of Chat messages that are encoded without a loss: which of them decoding gives back. -/

namespace Pooler.OpenAiChat

open Lib Journal Option Assoc List Json ContentPart Note PreservedJson

/-! ### Readers -/

variable {object : Assoc String Json} {field : String}

@[simp] theorem returns_reportUnknownFields {known u} : Returns (fun _ => True) (reportUnknownFields object known field) u := by
  rw [reportUnknownFields, returns_forM]
  simp

@[simp] theorem objectAt_eq_ok {object flds key field} :
    objectAt object key field = .ok flds ↔ object.get key = some (.object flds) := by
  rw [objectAt, shape_eq_ok, bind_eq_some_iff]
  simp

variable [Platform]

/-! ### Parts -/

/-- The kinds of parts that have a representation of their own. -/
def partKinds : List String := ["text", "image_url", "input_audio", "file"]

def audioUri (uri : String) : Option (Text × Text) :=
  (stripPrefix "data:audio/".toList uri.toList).bind (splitOnceAt ";base64,".toList)

/-- The part says no more than what its encoding says. -/
def FaithfulPart : ContentPart → Prop
  | .text _ => True
  | .image mediaType (.uri _) _ => mediaType = "image/*"
  | .file _ mediaType (.uri _) => mediaType = "application/octet-stream"
  | .audio mediaType (.uri uri) => (audioUri uri).any fun audio => mediaType = "audio/" ++ .ofList audio.1
  | .provider _ name data =>
    data.value.asObject.bind (·.get "type") = some (.string name) ∧ name ∉ partKinds ∧ data.value.nesting ≤ 123
  | .image _ (.inline _) _ | .file _ _ (.inline _) | .audio _ (.inline _) | .reasoning _ | .toolCall _ | .toolResult _ =>
    False

variable {value : Json} {part : ContentPart}

theorem returns_parseContentPart :
    Returns (fun _ => True) (parseContentPart field value) part ↔
      ∃ object : Assoc String Json, value = .object object ∧ ∃ kind, object.get "type" = some (.string kind) ∧
        Returns (fun _ => True) (parsePartOf field object kind) part := by
  simp [parseContentPart]

theorem parse_text (field text : String) :
    Returns (fun _ => True) (parseContentPart field (textPart text)) (.text text) := by
  simp [parseContentPart, textPart, Json.ofFields, parsePartOf, parseText, Assoc.ofList, get_insert]

theorem parse_image (field url : String) (detail : Option String) :
    Returns (fun _ => True)
      (parseContentPart field (.ofFields [("type", .string "image_url"), ("image_url",
        .object ((Assoc.ofList [("url", Json.string url)]).insertSome "detail" (detail.map .string)))]))
      (.image "image/*" (.uri url) detail) := by
  simp [parseContentPart, Json.ofFields, parsePartOf, parseImage, Assoc.ofList, get_insert, get_insertSome]

theorem parse_audio (field format data : String) :
    Returns (fun _ => True)
      (parseContentPart field (.ofFields [("type", .string "input_audio"),
        ("input_audio", .ofFields [("format", .string format), ("data", .string data)])]))
      (.audio s!"audio/{format}" (.uri s!"data:audio/{format};base64,{data}")) := by
  simp [parseContentPart, Json.ofFields, parsePartOf, parseAudio, Assoc.ofList, get_insert]

theorem parse_file (field : String) {source} (hsrc : source = "file_data" ∨ source = "file_id")
    (uri : String) (name : Option String) :
    Returns (fun _ => True)
      (parseContentPart field (.ofFields [("type", .string "file"), ("file",
        .object ((Assoc.ofList [(source, Json.string uri)]).insertSome "filename" (name.map .string)))]))
      (.file name "application/octet-stream" (.uri uri)) := by
  rcases hsrc with rfl | rfl <;>
    simp [parseContentPart, Json.ofFields, parsePartOf, parseFile, Assoc.ofList, get_insert, get_insertSome]

theorem parsePartOf_provider (field : String) (object : Assoc String Json) {kind} (h : kind ∉ partKinds) :
    parsePartOf field object kind = parseProvider kind (.object object) := by
  unfold parsePartOf
  split <;> simp_all [partKinds]

variable {data : PreservedJson}

/-- Only a value of a kind without a representation of its own becomes a provider part. -/
theorem provider_of_parse {field nameSpace name}
    (h : Returns (fun _ => True) (parseContentPart field value) (.provider nameSpace name data)) :
    value.asObject.bind (·.get "type") = some (.string name) ∧ name ∉ partKinds ∧ nameSpace = unknownFieldsNamespace ∧
      data = .fromValue value := by
  obtain ⟨object, rfl, kind, hk, h⟩ := returns_parseContentPart.1 h
  have hoth : kind ∉ partKinds := by
    intro hm
    simp only [partKinds, mem_cons, not_mem_nil, or_false] at hm
    rcases hm with rfl | rfl | rfl | rfl <;>
      simp [parsePartOf, parseText, parseImage, parseAudio, parseFile] at h
  rw [parsePartOf_provider field object hoth] at h
  simp only [parseProvider, returns_bind, returns_pure, ContentPart.provider.injEq] at h
  obtain ⟨-, -, rfl, rfl, rfl⟩ := h
  exact ⟨hk, hoth, rfl, rfl⟩

variable {source : MediaSource} {mediaType : String}

theorem recovers_image (field : String) {detail}
    (h : Returns Lossless (encodeContentPart (.image mediaType source detail)) value) :
    value.nesting ≤ 123 ∧ Recovers (parseContentPart field value) (ContentPart.image mediaType source detail).Same ↔
      FaithfulPart (.image mediaType source detail) := by
  simp only [encodeContentPart, returns_pure] at h
  have hnest : value.nesting ≤ 123 := by
    rw [h]
    exact nesting_tagged ((all_ofList (by simp)).insertSome (by simp))
  rw [and_iff_right hnest, h, (parse_image field _ detail).recovers_iff, same_image_iff]
  cases source with
  | inline => simp [FaithfulPart]
  | uri => simp [FaithfulPart, encodeMediaSource, eq_comm]

theorem recovers_file (field : String) {name} (h : Returns Lossless (encodeFile name source) value) :
    value.nesting ≤ 123 ∧ Recovers (parseContentPart field value) (ContentPart.file name mediaType source).Same ↔
      FaithfulPart (.file name mediaType source) := by
  cases source with
  | inline => simp [encodeFile] at h
  | uri uri =>
    simp only [encodeFile, returns_pure] at h
    have hnest : value.nesting ≤ 123 := by
      rw [h]
      exact nesting_tagged ((all_ofList (by simp)).insertSome (by simp))
    rw [and_iff_right hnest, h, (parse_file field (by split <;> simp) uri name).recovers_iff, same_file_iff]
    simp [FaithfulPart, eq_comm]

omit [Platform] in
theorem audioUri_of_encodeAudio {mediaType uri audio} (h : Returns Lossless (encodeAudio mediaType (.uri uri)) audio) :
    audioUri uri = some (audio.1.toList, audio.2.toList) := by
  rw [encodeAudio] at h
  split at h
  next hr =>
    split at h
    next hspl =>
      rw [returns_pure] at h
      rw [audioUri, hr, bind_some, hspl, h, String.toList_ofList, String.toList_ofList]
    · exact absurd h returns_fail
  · obtain ⟨_, hnote, -⟩ := returns_bind.1 h
    exact absurd (returns_note.1 hnote) not_lossless_unsupportedRequired

omit [Platform] in
theorem eq_of_audioUri {uri format data : String} (h : audioUri uri = some (format.toList, data.toList)) :
    uri = s!"data:audio/{format};base64,{data}" := by
  obtain ⟨rest, hr, hspl⟩ := bind_eq_some_iff.1 h
  rw [← String.toList_inj, stripPrefix_eq_some.1 hr, eq_of_splitOnceAt hspl]
  simp [toString]

theorem recovers_audio (field : String) (h : Returns Lossless (encodeContentPart (.audio mediaType source)) value) :
    value.nesting ≤ 123 ∧ Recovers (parseContentPart field value) (ContentPart.audio mediaType source).Same ↔
      FaithfulPart (.audio mediaType source) := by
  simp only [encodeContentPart, returns_bind, returns_pure] at h
  obtain ⟨⟨format, data⟩, haud, h⟩ := h
  have hnest : value.nesting ≤ 123 := by
    rw [h]
    exact nesting_tagged (all_ofList (by simp))
  rw [and_iff_right hnest, h, (parse_audio field format data).recovers_iff, same_audio_iff]
  cases source with
  | inline => simp [FaithfulPart]
  | uri =>
    have huri := audioUri_of_encodeAudio haud
    rw [← eq_of_audioUri huri, FaithfulPart, huri, any_some, String.ofList_toList]
    simp [eq_comm, toString]

variable {nameSpace name : String}

theorem value_of_encodeProvider (h : Returns Lossless (encodeContentPart (.provider nameSpace name data)) value) :
    nameSpace = unknownFieldsNamespace ∧ value = data.value := by
  rw [encodeContentPart] at h
  split at h
  next hnameSpace =>
    obtain ⟨_, -, h⟩ := returns_bind.1 h
    exact ⟨hnameSpace, returns_pure.1 h⟩
  · obtain ⟨_, hnote, -⟩ := returns_bind.1 h
    exact absurd (returns_note.1 hnote) not_lossless_unsupportedRequired

theorem parse_provider (field : String) {name}
    (htype : value.asObject.bind (·.get "type") = some (.string name)) (hname : name ∉ partKinds) :
    Returns (fun _ => True) (parseContentPart field value) (.provider unknownFieldsNamespace name (.fromValue value)) := by
  obtain ⟨object, hobj, hk⟩ := bind_eq_some_iff.1 htype
  obtain rfl := asObject_eq_some.1 hobj
  refine returns_parseContentPart.2 ⟨object, rfl, name, hk, ?_⟩
  rw [parsePartOf_provider field object hname]
  simp [parseProvider]

theorem recovers_provider (field : String)
    (h : Returns Lossless (encodeContentPart (.provider nameSpace name data)) value) :
    value.nesting ≤ 123 ∧ Recovers (parseContentPart field value) (ContentPart.provider nameSpace name data).Same ↔
      FaithfulPart (.provider nameSpace name data) := by
  obtain ⟨rfl, rfl⟩ := value_of_encodeProvider h
  constructor
  · rintro ⟨hnest, part, hpart, hs⟩
    obtain ⟨data', rfl, -⟩ := same_provider_iff.1 hs
    obtain ⟨htype, hname, -, -⟩ := provider_of_parse hpart
    exact ⟨htype, hname, hnest⟩
  · rintro ⟨htype, hname, hnest⟩
    refine ⟨hnest, (parse_provider field htype hname).recovers_iff.2 ?_⟩
    exact .provider _ _ (value_fromValue data.wellFormed).symm

theorem recovers_part (field : String) (h : Returns Lossless (encodeContentPart part) value) :
    value.nesting ≤ 123 ∧ Recovers (parseContentPart field value) part.Same ↔ FaithfulPart part := by
  cases part with
  | text text =>
    rw [encodeContentPart, returns_pure] at h
    have hnest : value.nesting ≤ 123 := by
      rw [h, textPart]
      exact nesting_ofFields (by simp)
    rw [h, (parse_text field text).recovers_iff, ← h]
    exact iff_of_true ⟨hnest, .text text⟩ trivial
  | image => exact recovers_image field h
  | file => exact recovers_file field h
  | audio => exact recovers_audio field h
  | reasoning =>
    obtain ⟨_, hnote, -⟩ := returns_bind.1 h
    exact absurd (returns_note.1 hnote) not_lossless_dropOptional
  | toolCall | toolResult => exact absurd h returns_fail
  | provider => exact recovers_provider field h

/-! ### Content -/

/-- The relation between a part and the value it was encoded to. -/
def WrotePart (part : ContentPart) (value : Json) : Prop := Returns Lossless (encodeContentPart part) value

variable {parts : List ContentPart} {values : List Json}

theorem recovers_array (field : String) (h : Forall₂ WrotePart parts values) :
    (Json.array values).nesting ≤ 124 ∧ Recovers (parseContent field (.array values)) (Forall₂ ContentPart.Same parts) ↔
      ∀ part ∈ parts, FaithfulPart part := by
  rw [nesting_array, ← recovers_mapM h fun n _ _ hpart => recovers_part s!"{field}[{n}]" hpart]
  simp [parseContent, Recovers]

/-- Only texts and provider parts are encoded to something that says it is a text. -/
theorem text_or_provider (h : WrotePart part (.object object))
    (htype : object.get "type" = some (.string "text")) :
    (∃ text, part = .text text ∧ object.get "text" = some (.string text)) ∨
      ∃ nameSpace name data, part = .provider nameSpace name data := by
  cases part with
  | text text =>
    simp only [WrotePart, encodeContentPart, returns_pure, textPart, Json.ofFields, Json.object.injEq] at h
    exact .inl ⟨text, rfl, by simp [h, Assoc.ofList]⟩
  | provider nameSpace name data => exact .inr ⟨nameSpace, name, data, rfl⟩
  | image =>
    simp only [WrotePart, encodeContentPart, returns_pure, Json.ofFields, Json.object.injEq] at h
    simp [h, Assoc.ofList, get_insert] at htype
  | file name mediaType source =>
    cases source with
    | inline => simp [WrotePart, encodeContentPart, encodeFile] at h
    | uri =>
      simp only [WrotePart, encodeContentPart, encodeFile, returns_pure, Json.ofFields, Json.object.injEq] at h
      simp [h, Assoc.ofList, get_insert] at htype
  | audio =>
    simp only [WrotePart, encodeContentPart, returns_bind, returns_pure, Json.ofFields, Json.object.injEq] at h
    obtain ⟨audio, -, h⟩ := h
    simp [h, Assoc.ofList, get_insert] at htype
  | reasoning =>
    obtain ⟨_, hnote, -⟩ := returns_bind.1 h
    exact absurd (returns_note.1 hnote) not_lossless_dropOptional
  | toolCall | toolResult => exact absurd h returns_fail

omit [Platform] in
theorem messageContent_singleton (value : Json) :
    messageContent [value] = .array [value] ∨ ∃ object : Assoc String Json, value = .object object ∧
      object.get "type" = some (.string "text") ∧ object.get "text" = some (messageContent [value]) := by
  cases value with
  | object flds =>
    rw [messageContent]
    split
    next htype =>
      cases htext : Assoc.get flds "text" with
      | none => exact .inl rfl
      | some => exact .inr ⟨flds, rfl, htype, htext⟩
    · exact .inl rfl
  | null | bool | number | string | array => exact .inl rfl

theorem item_of_parseContent {parts}
    (h : Returns (fun _ => True) (parseContent field value) parts) (hpart : part ∈ parts)
    (htext : ∀ text, part ≠ .text text) :
    ∃ items, value = .array items ∧ ∃ item ∈ items, ∃ field, Returns (fun _ => True) (parseContentPart field item) part := by
  cases value with
  | null =>
    obtain rfl := returns_pure.1 h
    cases hpart
  | string text =>
    obtain rfl := returns_pure.1 h
    exact absurd (mem_singleton.1 hpart) (htext text)
  | array items =>
    simp only [parseContent, returns_bind, returns_lift, shape_eq_ok, asArray_eq_some, Json.array.injEq,
      exists_eq_left'] at h
    obtain ⟨item, hitem, n, hrd⟩ :=
      exists_of_mem_mapM (f := fun n item => parseContentPart s!"{field}[{n}]" item) h hpart
    exact ⟨items, rfl, item, hitem, _, hrd⟩
  | bool | number | object => simp [parseContent] at h

/-- A provider part that says it is a text is not given back: what is read says it is something else. -/
theorem not_recovers_text (field : String)
    {text} (hdata : data.value = .object object)
    (htype : object.get "type" = some (.string "text")) (htext : object.get "text" = some text) :
    ¬Recovers (parseContent field text) (Forall₂ ContentPart.Same [.provider nameSpace name data]) := by
  rintro ⟨parts, hpts, hs⟩
  obtain ⟨part, rest, hpart, hr, rfl⟩ := forall₂_cons_left_iff.1 hs
  obtain ⟨data', rfl, hval⟩ := same_provider_iff.1 hpart
  obtain ⟨items, rfl, item, hitem, field', hrd⟩ := item_of_parseContent hpts mem_cons_self nofun
  obtain ⟨hk, hname, -, rfl⟩ := provider_of_parse hrd
  have hwell : (Json.object object).WellFormed := hdata ▸ data.wellFormed
  have hitems : (Json.array items).WellFormed := (wellFormed_object.1 hwell).2.get htext
  rw [value_fromValue (wellFormed_array.1 hitems item hitem), hdata] at hval
  rw [← hval] at hk
  simp only [Json.asObject, bind_some, htype, some.injEq, Json.string.injEq] at hk
  exact hname (hk ▸ mem_cons_self)

theorem recovers_messageContent (field : String) (h : Forall₂ WrotePart parts values) :
    (messageContent values).nesting ≤ 124 ∧
        Recovers (parseContent field (messageContent values)) (Forall₂ ContentPart.Same parts) ↔
      ∀ part ∈ parts, FaithfulPart part := by
  match values, h with
  | [], .nil => simp [messageContent, parseContent, recovers_pure]
  | [value], .cons (a := part) hpart .nil =>
    rcases messageContent_singleton value with harr | ⟨object, rfl, htype, htext⟩
    · rw [harr]
      exact recovers_array field (.cons hpart .nil)
    · rcases text_or_provider hpart htype with ⟨text, rfl, hstr⟩ | ⟨nameSpace, name, data, rfl⟩
      · rw [htext, some.injEq] at hstr
        simp [hstr, parseContent, recovers_pure, FaithfulPart]
      · obtain ⟨rfl, hval⟩ := value_of_encodeProvider hpart
        refine iff_of_false (fun h => not_recovers_text field hval.symm htype htext h.2) fun h => ?_
        obtain ⟨hk, hname, -⟩ := h _ mem_cons_self
        simp only [← hval, Json.asObject, bind_some, htype, some.injEq, Json.string.injEq] at hk
        exact hname (hk ▸ mem_cons_self)
  | first :: second :: rest, h =>
    have hmany : messageContent (first :: second :: rest) = .array (first :: second :: rest) := by cases first <;> rfl
    rw [hmany]
    exact recovers_array field h

theorem recovers_toolContent (field : String) {content} (h : Returns Lossless (encodeToolResultContent content) value) :
    value.nesting ≤ 124 ∧ Recovers (parseContent field value) (Forall₂ ContentPart.Same content) ↔
      ∀ part ∈ content, FaithfulPart part := by
  unfold encodeToolResultContent at h
  split at h
  next =>
    rw [returns_pure] at h
    simp [h, parseContent, recovers_pure, FaithfulPart]
  · obtain ⟨values, hvals, h⟩ := returns_bind.1 h
    rw [returns_pure.1 h]
    exact recovers_array field (returns_mapM.1 hvals)

end Pooler.OpenAiChat
