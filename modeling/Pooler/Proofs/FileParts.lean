import Pooler.Proofs.ChatParts
import Pooler.Sanity.Wire
import Pooler.Spec.Protocol.ResponsesParts

/-! Parts that hold a file, decoded and encoded again by one codec: whether the file is given by the
same member as before. -/

namespace Pooler

open Lib Journal Assoc List

/-- The members that may give a file. -/
def fileMembers : List String := ["file_id", "file_url", "file_data"]

/-- Of these members the file has this one alone. -/
def Carries (file : Assoc String Json) (member uri : String) : Prop :=
  ∀ other ∈ fileMembers, file.get other = if member = other then some (.string uri) else none

section Codec

variable {ε : Type} {file : Assoc String Json} {member uri : String}

theorem carries_iff {written} (hwr : Carries file written uri) (hmemb : member ∈ fileMembers) :
    Carries file member uri ↔ written = member := by
  constructor
  · intro h
    by_contra hne
    have hs := (hwr member hmemb).symm.trans (h member hmemb)
    simp [hne] at hs
  · rintro rfl
    exact hwr

/-- The fields of the file in a Chat part. -/
def chatFile (part : Json) : Option (Assoc String Json) := (part.asObject.bind (·.get "file")).bind Json.asObject

theorem chatFile_ofFields (kind : Json) (file : Assoc String Json) :
    chatFile (.ofFields [("type", kind), ("file", .object file)]) = some file := by
  simp [chatFile, Json.ofFields, Assoc.ofList, Json.asObject]

@[simp] theorem optionalString_eq_ok {key field s} :
    OpenAiResponses.optionalString file key field = .ok s ↔ Json.present file key = s.map .string := by
  unfold OpenAiResponses.optionalString
  cases Json.present file key with
  | none => cases s <;> simp
  | some => cases s <;> simp [map_eq_ok, OpenAiResponses.shape]

@[simp] theorem returns_reportUnknownFields {field known u} :
    Returns (fun _ => True) (OpenAiResponses.reportUnknownFields field file known) u := by
  rw [OpenAiResponses.reportUnknownFields, returns_forM]
  simp

variable [Platform]

/-- Decoding the part and encoding what it gives lead to a part with the same member and value. -/
def Keeps (parse : Journal Note ε ContentPart) (encode : Option String → String → MediaSource → Journal Note ε Json)
    (fileOf : Json → Option (Assoc String Json)) (member uri : String) : Prop :=
  ∃ name mediaType source encoded file, Returns (fun _ => True) parse (.file name mediaType source) ∧
    Returns (fun _ => True) (encode name mediaType source) encoded ∧ fileOf encoded = some file ∧ Carries file member uri

/-- The rule for a decoder that takes the source as it stands and an encoder that writes one member. -/
theorem keeps_iff (readable : Prop) {parse}
    {encode : Option String → String → MediaSource → Journal Note ε Json}
    {fileOf} {named : Option String → Prop} {guess : String}
    (hpar : ∀ name media src, Returns (fun _ => True) parse (.file name media src) ↔
      readable ∧ named name ∧ media = "application/octet-stream" ∧ src = .uri uri)
    (henc : ∀ name media, ∃ encoded file, fileOf encoded = some file ∧ Carries file guess uri ∧
      ∀ value, Returns (fun _ => True) (encode name media (.uri uri)) value ↔ value = encoded)
    (hrd : guess = member → readable) (hmemb : member ∈ fileMembers) :
    Keeps parse encode fileOf member uri ↔ (∃ name, named name) ∧ guess = member := by
  constructor
  · rintro ⟨name, media, src, value, file, hpars, hencod, hfile, hcar⟩
    obtain ⟨-, hname, -, rfl⟩ := (hpar ..).1 hpars
    obtain ⟨encoded, again, hagain, hguess, hval⟩ := henc name media
    cases (hval value).1 hencod
    cases hfile.symm.trans hagain
    exact ⟨⟨name, hname⟩, (carries_iff hguess hmemb).1 hcar⟩
  · rintro ⟨⟨name, hname⟩, rfl⟩
    obtain ⟨encoded, again, hagain, hguess, hval⟩ := henc name "application/octet-stream"
    exact ⟨name, _, _, encoded, again, (hpar ..).2 ⟨hrd rfl, hname, rfl, rfl⟩, (hval _).2 rfl, hagain, hguess⟩

theorem keeps_iff_of_responses (field : String) (hmemb : member ∈ fileMembers)
    (hcar : Carries file member uri) :
    Keeps (OpenAiResponses.parseFile field file) OpenAiResponses.encodeFile Json.asObject member uri ↔
      (∃ name : Option String, Json.present file "filename" = name.map .string) ∧
        OpenAiResponses.fileMember (.uri uri) = member := by
  refine keeps_iff True (fun name media src => ?_) (fun name media => ?_) (fun _ => trivial) hmemb
  · have hid := hcar "file_id" (by decide)
    have hurl := hcar "file_url" (by decide)
    have hdata := hcar "file_data" (by decide)
    simp only [fileMembers, mem_cons, not_mem_nil, or_false] at hmemb
    rcases hmemb with rfl | rfl | rfl <;> simp [OpenAiResponses.parseFile, hid, hurl, hdata]
  · refine ⟨_, _, rfl, ?_, fun _ => returns_pure⟩
    unfold OpenAiResponses.fileMember
    simp only
    split_ifs <;>
      simp [Carries, fileMembers, Assoc.ofList, get_insert, get_insertSome, encodeMediaSource]

/-- The member of a file comes back exactly when the name of the file can be read and the source
starts as the encoder expects it for that member. -/
theorem file_reference_kept_iff (field : String) (hmember : member ∈ fileMembers)
    (hcarries : Carries file member uri) :
    (∀ object : Assoc String Json, object.get "file" = some (.object file) →
      (Keeps (OpenAiChat.parseFile field object) (fun name _ => OpenAiChat.encodeFile name) chatFile member uri ↔
        (∃ name : Option String, file.get "filename" = name.map .string) ∧
          (if OpenAiChat.startsWith "data:" uri then "file_data" else "file_id") = member)) ∧
    (Keeps (OpenAiResponses.parseFile field file) OpenAiResponses.encodeFile Json.asObject member uri ↔
      (∃ name : Option String, Json.present file "filename" = name.map .string) ∧
        OpenAiResponses.fileMember (.uri uri) = member) := by
  refine ⟨fun object hfile => ?_, keeps_iff_of_responses field hmember hcarries⟩
  refine keeps_iff (member ≠ "file_url") (fun name mediaType source => ?_) (fun name _ => ?_) ?_ hmember
  · have hid := hcarries "file_id" (by decide)
    have hdata := hcarries "file_data" (by decide)
    simp only [fileMembers, mem_cons, not_mem_nil, or_false] at hmember
    rcases hmember with rfl | rfl | rfl <;> simp [OpenAiChat.parseFile, hfile, hid, hdata]
  · refine ⟨_, _, chatFile_ofFields .., ?_, fun _ => returns_pure⟩
    split <;> simp [Carries, fileMembers, Assoc.ofList, get_insert, get_insertSome]
  · rintro rfl
    split <;> simp

end Codec

noncomputable local instance : Platform := unaryPlatform

/-- A part of a Responses message that gives a file by its id. -/
def inputFile (fileId : String) : Assoc String Json :=
  .ofList [("type", .string "input_file"), ("file_id", .string fileId)]

theorem carries_inputFile (fileId : String) : Carries (inputFile fileId) "file_id" fileId := by
  simp [Carries, fileMembers, inputFile, Assoc.ofList, get_insert]

theorem file_id_is_kept :
    Keeps (OpenAiResponses.parseFile "part" (inputFile "file-1")) OpenAiResponses.encodeFile Json.asObject "file_id"
      "file-1" :=
  (file_reference_kept_iff "part" (by decide) (carries_inputFile _)).2.2
    ⟨⟨none, by simp [Json.present, inputFile, Assoc.ofList, get_insert]⟩, by decide⟩

/-- A file id that starts in another way comes back as the data of a file. -/
theorem file_id_becomes_file_data :
    Carries (inputFile "assistant-1") "file_id" "assistant-1" ∧
      ¬Keeps (OpenAiResponses.parseFile "part" (inputFile "assistant-1")) OpenAiResponses.encodeFile Json.asObject
        "file_id" "assistant-1" := by
  refine ⟨carries_inputFile _, fun hkeep => ?_⟩
  have hguess := ((keeps_iff_of_responses "part" (by decide) (carries_inputFile _)).1 hkeep).2
  exact absurd hguess (by decide)

end Pooler
