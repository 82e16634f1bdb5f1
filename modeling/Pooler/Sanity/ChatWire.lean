import Pooler.Lib.Recover
import Pooler.Sanity.Fields
import Pooler.Spec.Protocol.ChatRequest

/-! What the Chat encoder writes is a value that `serde_json` can hold. -/

namespace Pooler.OpenAiChat

open Lib Journal Json Assoc List Option

variable {ok : Note → Prop} {value : Json} {key : String} {fields : Assoc String Json}
  {merged merged' : Assoc String Json × Bool}

theorem wellFormed_encodeFile {name src} (h : Returns ok (encodeFile name src) value) : value.WellFormed := by
  cases src with
  | uri =>
    simp only [encodeFile, returns_pure] at h
    rw [h]
    exact wellFormed_tagged (wellFormed_insertSome (wellFormed_ofList (by simp)) (by simp))
  | inline =>
    simp only [encodeFile, returns_bind, returns_pure] at h
    obtain ⟨-, -, rfl⟩ := h
    have hemp : (Json.object []).WellFormed := wellFormed_object.2 ⟨sorted_nil, forall_mem_nil _⟩
    exact wellFormed_tagged (wellFormed_insertSome hemp (by simp))

theorem wellFormed_messageContent {values} (h : ∀ value ∈ values, value.WellFormed) :
    (messageContent values).WellFormed := by
  unfold messageContent
  split
  · trivial
  next part =>
    have hpart : (Json.object part).WellFormed := h _ mem_cons_self
    split
    · cases htext : Assoc.get part "text" with
      | none => simp [hpart]
      | some => exact (wellFormed_object.1 hpart).2.get htext
    · simp [hpart]
  · exact wellFormed_array.2 h

theorem wellFormed_jsonMessage {role values name id}
    (h : ∀ value ∈ values, value.WellFormed) : (Json.object (jsonMessage role values name id)).WellFormed := by
  have hcont := wellFormed_messageContent h
  refine wellFormed_insertSome (wellFormed_insertSome (wellFormed_ofList ?_) (by simp)) (by simp)
  simp [hcont]

theorem wellFormed_encodeToolChoice (choice : ToolChoice) : (encodeToolChoice choice).WellFormed := by
  cases choice with
  | tool =>
    rw [encodeToolChoice]
    exact wellFormed_tagged (wellFormed_ofList (by simp))
  | _ => trivial

theorem wellFormed_encodeStop (stop : List String) : ∀ v ∈ encodeStop stop, v.WellFormed := by
  unfold encodeStop
  split <;> simp

theorem wellFormed_encodeMetadata (metadata : OrderedMap String String) :
    ∀ v ∈ encodeMetadata metadata, v.WellFormed := by
  unfold encodeMetadata
  split
  · nofun
  · rintro v hv
    obtain rfl := mem_some_iff.1 hv
    refine wellFormed_object.2 ⟨pairwise_map.2 metadata.sorted, ?_⟩
    intro entry hent
    obtain ⟨field, -, rfl⟩ := mem_map.1 hent
    trivial

theorem of_mergeField {field} (h : Returns ok (mergeField key merged field) merged') :
    merged' = merged ∧ (∃ n, n.isLoss = true ∧ ok n) ∨
      merged.1.get field.1 = none ∧ merged' = (merged.1.insert field.1 field.2, true) := by
  unfold mergeField at h
  split at h
  · obtain ⟨_, hnote, h⟩ := returns_bind.1 h
    exact .inl ⟨returns_pure.1 h, _, rfl, returns_note.1 hnote⟩
  next hcon =>
    refine .inr ⟨?_, returns_pure.1 h⟩
    simpa [Assoc.contains] using hcon

theorem wellFormed_mergeFields (hflds : fields.All Json.WellFormed)
    (h : Returns ok (fields.foldlM (mergeField key) merged) merged') (hmgd : (Json.object merged.1).WellFormed) :
    (Json.object merged'.1).WellFormed := by
  induction fields generalizing merged with
  | nil =>
    rw [foldlM_nil, returns_pure] at h
    rwa [h]
  | cons field fields ih =>
    rw [foldlM_cons, returns_bind] at h
    obtain ⟨next, hnext, h⟩ := h
    obtain ⟨hfld, hflds⟩ := forall_mem_cons.1 hflds
    refine ih hflds h ?_
    rcases of_mergeField hnext with ⟨rfl, -⟩ | ⟨-, rfl⟩
    · exact hmgd
    · exact wellFormed_insert hmgd hfld

theorem get_mergeFields (h : Returns Note.Lossless (fields.foldlM (mergeField key) merged) merged') (k : String) :
    merged'.1.get k = (merged.1.get k).or (fields.get k) := by
  induction fields generalizing merged with
  | nil =>
    rw [foldlM_nil, returns_pure] at h
    rw [h, get_nil, or_none]
  | cons field fields ih =>
    rw [foldlM_cons, returns_bind] at h
    obtain ⟨next, hnext, h⟩ := h
    rcases of_mergeField hnext with ⟨-, n, hloss, hlos⟩ | ⟨hfree, rfl⟩
    · rw [Note.Lossless, hloss] at hlos
      cases hlos
    · rw [ih h, get_insert, Assoc.get]
      split
      next hk => rw [← hk, hfree, none_or, some_or]
      · rfl

variable [Platform]

theorem wellFormed_encodeContentPart {part} (h : Returns ok (encodeContentPart part) value) : value.WellFormed := by
  cases part with
  | text =>
    simp only [encodeContentPart, returns_pure, textPart] at h
    simp [h]
  | image =>
    simp only [encodeContentPart, returns_pure] at h
    rw [h]
    exact wellFormed_tagged (wellFormed_insertSome (wellFormed_ofList (by simp)) (by simp))
  | file => exact wellFormed_encodeFile h
  | audio =>
    simp only [encodeContentPart, returns_bind, returns_pure] at h
    obtain ⟨audio, -, rfl⟩ := h
    simp
  | reasoning =>
    simp only [encodeContentPart, returns_bind, returns_pure, textPart] at h
    obtain ⟨-, -, rfl⟩ := h
    simp
  | toolCall | toolResult => exact absurd h returns_fail
  | provider nameSpace name data =>
    rw [encodeContentPart] at h
    split at h
    · obtain ⟨_, -, h⟩ := returns_bind.1 h
      rw [returns_pure.1 h]
      exact data.wellFormed
    · obtain ⟨_, -, h⟩ := returns_bind.1 h
      simp [returns_pure.1 h, textPart]

theorem wellFormed_encodeToolCall {call} (h : Returns ok (encodeToolCall call) value) : value.WellFormed := by
  simp only [encodeToolCall, returns_bind, returns_pure] at h
  obtain ⟨-, -, -, -, rfl⟩ := h
  simp

theorem wellFormed_encodeToolResultMessage {result}
    (h : Returns ok (encodeToolResultMessage result) value) : value.WellFormed := by
  simp only [encodeToolResultMessage, returns_bind, returns_pure] at h
  obtain ⟨-, -, -, -, content, hcont, rfl⟩ := h
  have hwell : content.WellFormed := by
    unfold encodeToolResultContent at hcont
    split at hcont
    · rw [returns_pure.1 hcont]
      trivial
    · obtain ⟨values, hvals, h⟩ := returns_bind.1 hcont
      rw [returns_pure.1 h, wellFormed_array]
      exact forall_right_of_forall₂ (fun part value (hpart : Returns ok (encodeContentPart part) value) =>
        wellFormed_encodeContentPart hpart) (returns_mapM.1 hvals)
  exact wellFormed_insert (wellFormed_insert (wellFormed_jsonMessage (forall_mem_nil _)) trivial) hwell

theorem wellFormed_encodeMessageParts {parts encoded} (h : Returns ok (encodeMessageParts parts) encoded) :
    (∀ value ∈ encoded.1, value.WellFormed) ∧ ∀ value ∈ encoded.2, value.WellFormed := by
  induction parts using encodeMessageParts.induct generalizing encoded with
  | case1 =>
    obtain rfl := returns_pure.1 h
    exact ⟨nofun, nofun⟩
  | case2 call parts ih =>
    simp only [encodeMessageParts, returns_bind, returns_pure] at h
    obtain ⟨value, hval, rest, hr, rfl⟩ := h
    obtain ⟨hpts, hcal⟩ := ih hr
    exact ⟨hpts, forall_mem_cons.2 ⟨wellFormed_encodeToolCall hval, hcal⟩⟩
  | case3 result parts ih =>
    obtain ⟨_, -, h⟩ := returns_bind.1 h
    exact ih h
  | case4 part parts hcall hres ih =>
    simp only [encodeMessageParts, returns_bind, returns_pure] at h
    obtain ⟨value, hval, rest, hr, rfl⟩ := h
    obtain ⟨hpts, hcal⟩ := ih hr
    exact ⟨forall_mem_cons.2 ⟨wellFormed_encodeContentPart hval, hpts⟩, hcal⟩

theorem wellFormed_encodeMessage {message} (h : Returns ok (encodeMessage message) value) : value.WellFormed := by
  simp only [encodeMessage, returns_bind] at h
  obtain ⟨-, -, -, -, -, -, h⟩ := h
  split at h
  · unfold encodeToolMessage at h
    split at h
    · exact absurd h returns_fail
    · exact wellFormed_encodeToolResultMessage h
  · obtain ⟨encoded, henc, h⟩ := returns_bind.1 h
    obtain ⟨hpts, hcal⟩ := wellFormed_encodeMessageParts henc
    rw [returns_pure.1 h]
    refine wellFormed_insertSome (wellFormed_jsonMessage hpts) ?_
    split
    · simp
    · simpa using hcal

theorem wellFormed_encodeInputItem {item} (h : Returns ok (encodeInputItem item) value) : value.WellFormed := by
  cases item with
  | message => exact wellFormed_encodeMessage h
  | toolCall =>
    simp only [encodeInputItem, encodeToolCallMessage, returns_bind, returns_pure] at h
    obtain ⟨encoded, henc, rfl⟩ := h
    exact wellFormed_insert (wellFormed_jsonMessage (forall_mem_nil _)) (by simp [wellFormed_encodeToolCall henc])
  | toolResult => exact wellFormed_encodeToolResultMessage h
  | content =>
    simp only [encodeInputItem, returns_bind, returns_pure] at h
    obtain ⟨encoded, henc, rfl⟩ := h
    exact wellFormed_jsonMessage (by simpa using wellFormed_encodeContentPart henc)
  | provider =>
    simp only [encodeInputItem, returns_bind, returns_pure] at h
    obtain ⟨-, -, rfl⟩ := h
    exact wellFormed_jsonMessage (forall_mem_nil _)

theorem wellFormed_encodeToolDefinition {definition}
    (h : Returns ok (encodeToolDefinition definition) value) : value.WellFormed := by
  simp only [encodeToolDefinition, returns_bind, returns_pure] at h
  obtain ⟨-, -, rfl⟩ := h
  have hpars : ∀ v ∈ definition.parameters.map (·.value), v.WellFormed := by
    intro v hv
    obtain ⟨document, -, rfl⟩ := mem_map.1 hv
    exact document.wellFormed
  have hstrict : ∀ v ∈ definition.strict.map Json.bool, v.WellFormed := by
    intro v hv
    obtain ⟨strict, -, rfl⟩ := mem_map.1 hv
    trivial
  exact wellFormed_tagged (wellFormed_insertSome (wellFormed_insertSome (wellFormed_insertSome
    (wellFormed_ofList (by simp)) (by simp)) hpars) hstrict)

theorem wellFormed_ofF32 (x : F32) : (Json.ofF32 x).WellFormed := by
  unfold Json.ofF32
  split
  next hx => exact Platform.isFinite_f32ToF64 x hx
  · trivial

theorem wellFormed_encodeResponseFormat (fmt : ResponseFormat) : (encodeResponseFormat fmt).WellFormed := by
  cases fmt with
  | text | jsonObject => exact wellFormed_ofFields (by simp)
  | jsonSchema name schema =>
    rw [encodeResponseFormat]
    exact wellFormed_tagged (wellFormed_ofList (by simp [schema.wellFormed]))

/-! ### The body of a request -/

section Body

variable {request : SemanticRequest} {dialect : ModelDialect} {messages tools : List Json}

theorem sorted_requestFields : (requestFields request dialect messages tools).Sorted := by
  simp only [requestFields, insertSampling]
  iterate 12 refine Assoc.Sorted.insertSome ?_ _ _
  exact sorted_ofList _

theorem all_requestFields {P} (hstr : ∀ s, P (.string s)) (hnum : ∀ n, P (.number (.posInt n)))
    (hfloat : ∀ x, P (.ofF32 x)) (hmsgs : P (.array messages)) (htls : tools ≠ [] → P (.array tools))
    (hchoice : ∀ choice, P (encodeToolChoice choice)) (hstop : ∀ v ∈ encodeStop request.sampling.stop, P v)
    (hfmt : ∀ fmt ∈ request.responseFormat, P (encodeResponseFormat fmt))
    (hmeta : ∀ v ∈ encodeMetadata request.metadata, P v) : (requestFields request dialect messages tools).All P := by
  have htls' : ∀ v ∈ if tools.isEmpty then none else some (Json.array tools), P v := by
    cases tools with
    | nil => nofun
    | cons =>
      intro v hv
      exact mem_some_iff.1 hv ▸ htls (cons_ne_nil _ _)
  have hbase : (Assoc.ofList [("model", Json.string request.model), ("messages", .array messages)]).All P := by
    refine all_ofList ?_
    rw [forall_mem_cons, forall_mem_singleton]
    exact ⟨hstr _, hmsgs⟩
  have hchos := (hbase.insertSome (k := "tools") htls').insertSome (k := "tool_choice")
    (forall_mem_map.2 fun choice (_ : choice ∈ request.toolChoice) => hchoice choice)
  have hfloats : ∀ (x : Option F32), ∀ v ∈ x.map Json.ofF32, P v :=
    fun x => forall_mem_map.2 fun x _ => hfloat x
  have hsam := (((((((hchos.insertSome (k := "temperature")
    (hfloats (if dialect.temperature = .accepted then request.sampling.temperature else none))).insertSome
    (k := "top_p") (hfloats request.sampling.topP)).insertSome (k := "max_tokens")
    (forall_mem_map.2 fun n (_ : n ∈ request.sampling.maxOutputTokens) => hnum n.toUInt64)).insertSome
    (k := "stop") hstop).insertSome (k := "seed")
    (forall_mem_map.2 fun n (_ : n ∈ request.sampling.seed) => hnum n)).insertSome
    (k := "presence_penalty") (hfloats request.sampling.presencePenalty)).insertSome
    (k := "frequency_penalty") (hfloats request.sampling.frequencyPenalty))
  exact ((hsam.insertSome (k := "response_format") (forall_mem_map.2 hfmt)).insertSome
    (k := "reasoning_effort") (forall_mem_map.2 fun effort _ => hstr (reasoningEffortName effort))).insertSome
    hmeta

theorem wellFormed_requestFields (hmsgs : ∀ message ∈ messages, message.WellFormed)
    (htls : ∀ tool ∈ tools, tool.WellFormed) :
    (Json.object (requestFields request dialect messages tools)).WellFormed :=
  wellFormed_object.2 ⟨sorted_requestFields, all_requestFields (fun _ => trivial) (fun _ => trivial)
    wellFormed_ofF32 (wellFormed_array.2 hmsgs) (fun _ => wellFormed_array.2 htls)
    wellFormed_encodeToolChoice (wellFormed_encodeStop _) (fun fmt _ => wellFormed_encodeResponseFormat fmt)
    (wellFormed_encodeMetadata _)⟩

theorem get_requestFields_of_not_mem {key} (h : key ∉ takenFields) :
    (requestFields request dialect messages tools).get key = none := by
  simp only [takenFields, mem_cons, not_or] at h
  simp only [requestFields, insertSampling, get_insertSome, Assoc.ofList, foldl_cons, foldl_nil, get_insert, get_nil]
  simp [h, eq_comm]

end Body

/-! ### Preserved fields -/

theorem wellFormed_mergeUnknownFields {obj obj' exts}
    (h : Returns ok (mergeUnknownFields obj exts) obj') (hobj : (Json.object obj).WellFormed) :
    (Json.object obj').WellFormed := by
  unfold mergeUnknownFields at h
  induction exts generalizing obj with
  | nil =>
    rw [foldlM_nil, returns_pure] at h
    rwa [h]
  | cons entry exts ih =>
    rw [foldlM_cons, returns_bind] at h
    obtain ⟨next, hnext, h⟩ := h
    refine ih h ?_
    simp only [mergeExtension] at hnext
    split at hnext
    · simp only [returns_bind, returns_pure] at hnext
      obtain ⟨-, -, rfl⟩ := hnext
      exact hobj
    · simp only [returns_bind, returns_lift, orError_eq_ok, asObject_eq_some, returns_pure] at hnext
      obtain ⟨value, hval, fields, rfl, merged, hmgd, -, -, rfl⟩ := hnext
      exact wellFormed_mergeFields (wellFormed_object.1 (Platform.wellFormed_of_fromSlice hval)).2 hmgd hobj

end Pooler.OpenAiChat
