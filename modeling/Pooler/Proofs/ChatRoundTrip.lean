import Pooler.Proofs.ChatMessages
import Pooler.Sanity.ChatWire
import Pooler.Sanity.Wire

/-! A Chat request that is encoded without a loss: exactly when decoding the body gives it back. -/

namespace Pooler.OpenAiChat

open Lib Journal Assoc List Option Json Platform Note Nat

variable {object fields base : Assoc String Json}

theorem parse_toolChoice (choice : Option ToolChoice) :
    Returns (fun _ => True) (parseToolChoiceOf (choice.map encodeToolChoice)) choice := by
  cases choice with
  | none => simp [parseToolChoiceOf]
  | some choice =>
    cases choice with
    | tool =>
      simp [parseToolChoiceOf, encodeToolChoice, parseToolChoice, parseNamedChoice, Json.ofFields, Assoc.ofList,
        get_insert]
    | _ => simp [parseToolChoiceOf, encodeToolChoice, parseToolChoice]

theorem takeU64_eq_ok {key x}
    (h : object.get key = x.map fun n => .number (.posInt n)) : takeU64 object key = .ok x := by
  rw [takeU64, h]
  cases x with
  | none | some => rfl

theorem takeU32_eq_ok {key x}
    (h : object.get key = x.map fun n => .number (.posInt n.toUInt64)) : takeU32 object key = .ok x := by
  rw [takeU32, h]
  cases x with
  | none => rfl
  | some n =>
    have hsm : n.toNat < 4294967296 := n.toNat_lt
    simp [asU32, shape, orError, Json.asU64, bind, Except.bind, hsm, Functor.map, Except.map]

theorem parseMaxTokens_eq_ok {x}
    (h : object.get "max_tokens" = x.map fun n => .number (.posInt n.toUInt64))
    (hoth : object.get "max_completion_tokens" = none) : parseMaxTokens object = .ok x := by
  have hfree : takeU32 object "max_completion_tokens" = .ok none := takeU32_eq_ok (x := none) hoth
  rw [parseMaxTokens, takeU32_eq_ok h]
  simp [Assoc.contains, hoth, hfree, bind, Except.bind]

theorem parse_strings (stops : List String) (k : ℕ) :
    ((stops.map Json.string).zipIdx k).mapM (fun stop => shape s!"stop[{stop.2}]" "a string" stop.1.asStr) =
      .ok stops := by
  induction stops generalizing k with
  | nil => rfl
  | cons stop stops ih =>
    rw [map_cons, zipIdx_cons, mapM_cons, ih (k + 1)]
    rfl

theorem parseStop_eq_ok (stop : List String) : parseStop (encodeStop stop) = .ok stop := by
  match stop with
  | [] | [stop] => rfl
  | first :: second :: rest => exact parse_strings (first :: second :: rest) 0

/-- There is an effort, and its name is not the name of another one. -/
def FaithfulReasoning (reasoning : ReasoningConfig) : Prop :=
  ∃ effort, reasoning.effort = some effort ∧ parseReasoningEffort (reasoningEffortName effort) = effort

theorem parseReasoning_eq_ok {reasoning} (h : Returns Note.Lossless (reportReasoning reasoning) ()) :
    parseReasoning ((reasoning.bind (·.effort)).map fun effort => .string (reasoningEffortName effort)) = .ok reasoning ↔
      ∀ r ∈ reasoning, FaithfulReasoning r := by
  match reasoning, h with
  | none, _ => exact iff_of_true rfl nofun
  | some ⟨none, includeSummary, extensions⟩, _ => simp [parseReasoning, FaithfulReasoning]
  | some ⟨some effort, includeSummary, extensions⟩, h =>
    simp only [reportReasoning, reportUnrepresentableExtensions, returns_bind, returns_noteIf,
      not_lossless_unsupportedRequired, not_lossless_dropOptional, imp_false, Bool.not_eq_true', Bool.not_eq_false,
      Bool.not_eq_true, List.isEmpty_iff] at h
    obtain ⟨-, rfl, rfl⟩ := h
    simp [parseReasoning, FaithfulReasoning, shape, orError, Json.asStr, bind, Except.bind]

theorem parse_entries (entries : Assoc String String) :
    (entries.map fun entry => (entry.1, Json.string entry.2)).mapM (fun entry => do
      let text ← shape s!"metadata.{entry.1}" "a string" entry.2.asStr
      .ok (entry.1, text)) = .ok entries := by
  induction entries with
  | nil => rfl
  | cons entry entries ih =>
    rw [map_cons, mapM_cons, ih]
    rfl

theorem parseMetadata_eq_ok (metadata : OrderedMap String String) :
    parseMetadata (encodeMetadata metadata) = .ok metadata := by
  unfold encodeMetadata
  split
  next hemp => rw [OrderedMap.eq_empty (isEmpty_iff.1 hemp), parseMetadata]
  · have hofList : OrderedMap.ofList metadata.entries = metadata := by
      obtain ⟨entries, sorted⟩ := metadata
      simp [OrderedMap.ofList, sorted.ofList_eq]
    have hrd := parse_entries metadata.entries
    simp only [parseMetadata, shape, orError, Json.asObject, bind, Except.bind] at hrd ⊢
    rw [hrd]
    simp [hofList]

/-- The fields that decoding leaves over. -/
def unknownFields (object : Assoc String Json) : Assoc String Json :=
  object.filter fun entry => !takenFields.contains entry.1

theorem unknownFields_eq {object} (hsort : object.Sorted) (hflds : fields.Sorted)
    (hg : ∀ k, object.get k = (base.get k).or (fields.get k)) (hbase : ∀ k, k ∉ takenFields → base.get k = none)
    (htkn : ∀ field ∈ fields, field.1 ∉ takenFields) : unknownFields object = fields := by
  refine Assoc.Sorted.ext (hsort.filter _) hflds fun k => ?_
  rw [unknownFields, get_filter object (fun key => !takenFields.contains key)]
  by_cases hk : k ∈ takenFields
  · rw [if_neg (by simp [hk])]
    cases hfld : fields.get k with
    | none => rfl
    | some value => exact absurd hk (htkn (k, value) (mem_of_get hfld))
  · rw [if_pos (by simp [hk]), hg, hbase k hk, none_or]

variable [Platform]

/-- The two requests are the same but for how their documents were written. -/
structure SameRequest (a b : SemanticRequest) : Prop where
  model : a.model = b.model
  input : Forall₂ (fun x y => x.normal.Same y.normal) a.input b.input
  tools : Forall₂ ToolDefinition.Same a.tools b.tools
  toolChoice : a.toolChoice = b.toolChoice
  reasoning : a.reasoning = b.reasoning
  sampling : a.sampling = b.sampling
  responseFormat : Option.Rel ResponseFormat.Same a.responseFormat b.responseFormat
  metadata : a.metadata = b.metadata
  extensions : a.extensions = b.extensions

def FaithfulTool (tool : ToolDefinition) : Prop := ∀ document ∈ tool.parameters, document.value.nesting ≤ 123

structure FaithfulSampling (sampling : SamplingParameters) : Prop where
  temperature : ∀ x ∈ sampling.temperature, x.isFinite = true
  topP : ∀ x ∈ sampling.topP, x.isFinite = true
  presencePenalty : ∀ x ∈ sampling.presencePenalty, x.isFinite = true
  frequencyPenalty : ∀ x ∈ sampling.frequencyPenalty, x.isFinite = true

def FaithfulFormat : ResponseFormat → Prop
  | .jsonSchema _ schema _ => schema.value.nesting ≤ 124
  | .text | .jsonObject => True

/-- There are no extensions, or only the fields that decoding leaves over. -/
def FaithfulExtensions (extensions : Extensions) : Prop :=
  extensions = [] ∨ ∃ fields : Assoc String Json, fields ≠ [] ∧ (Json.object fields).WellFormed ∧
    (∀ field ∈ fields, field.1 ∉ takenFields) ∧ extensions = [(unknownFieldsKey, unknownFieldsOf fields)]

/-- The request says no more than its encoding does. -/
structure Faithful (request : SemanticRequest) : Prop where
  input : ∀ item ∈ request.input, FaithfulItem item.normal
  tools : ∀ tool ∈ request.tools, FaithfulTool tool
  reasoning : ∀ reasoning ∈ request.reasoning, FaithfulReasoning reasoning
  sampling : FaithfulSampling request.sampling
  responseFormat : ∀ format ∈ request.responseFormat, FaithfulFormat format
  extensions : FaithfulExtensions request.extensions

/-! ### Tools -/

theorem recovers_tool (idx : ℕ) {tool value} (h : Returns Note.Lossless (encodeToolDefinition tool) value) :
    value.nesting ≤ 125 ∧ Recovers (parseTool idx value) tool.Same ↔ FaithfulTool tool := by
  simp only [encodeToolDefinition, reportUnrepresentableExtensions, returns_bind, returns_noteIf, returns_pure,
    not_lossless_unsupportedRequired, imp_false, Bool.not_eq_true', Bool.not_eq_false, List.isEmpty_iff] at h
  obtain ⟨-, hexts, rfl⟩ := h
  set function := (((Assoc.ofList [("name", Json.string tool.name)]).insertSome "description"
    (tool.description.map .string)).insertSome "parameters" (tool.parameters.map (·.value))).insertSome "strict"
    (tool.strict.map .bool) with hfun
  obtain ⟨hname, hdes, hpars, hstr⟩ : function.get "name" = some (.string tool.name) ∧
      function.get "description" = tool.description.map .string ∧
      function.get "parameters" = tool.parameters.map (·.value) ∧ function.get "strict" = tool.strict.map .bool := by
    simp [hfun, Assoc.get_insertSome, Assoc.ofList, Assoc.get_insert]
  have hrd : Returns (fun _ => True)
      (parseTool idx (.ofFields [("type", .string "function"), ("function", .object function)]))
      ⟨tool.name, tool.description, (tool.parameters.map (·.value)).map .fromValue, tool.strict, []⟩ := by
    simp [parseTool, Json.ofFields, Assoc.ofList, Assoc.get_insert, hname, hdes, hpars, hstr]
  have hs : tool.Same
      ⟨tool.name, tool.description, (tool.parameters.map (·.value)).map .fromValue, tool.strict, []⟩ := by
    refine ⟨rfl, rfl, ?_, rfl, hexts⟩
    cases tool.parameters with
    | none => rfl
    | some document => simp [PreservedJson.value_fromValue document.wellFormed]
  rw [hrd.recovers_iff, and_iff_left hs, FaithfulTool]
  constructor
  · intro hnest document hdoc
    exact (Json.nesting_of_tagged hnest).get (hpars.trans (Option.map_eq_some_iff.2 ⟨document, hdoc, rfl⟩))
  · intro hdocum
    refine Json.nesting_tagged ((((Assoc.all_ofList (by simp)).insertSome (by simp)).insertSome ?_).insertSome ?_)
    · exact Option.forall_mem_map.2 hdocum
    · exact Option.forall_mem_map.2 fun _ _ => Nat.zero_le _

theorem recovers_tools {tools vals}
    (h : Forall₂ (fun tool value => Returns Lossless (encodeToolDefinition tool) value) tools vals) :
    (∀ value ∈ vals, value.nesting ≤ 125) ∧
        Recovers (parseTools (if vals.isEmpty then none else some (.array vals)))
          (Forall₂ ToolDefinition.Same tools) ↔ ∀ tool ∈ tools, FaithfulTool tool := by
  rw [← recovers_mapM h fun n _ _ htool => recovers_tool n htool]
  cases vals with
  | nil => simp [parseTools]
  | cons => simp [parseTools, Recovers]

/-! ### Sampling -/

theorem takeF32_eq_ok {key x} (h : object.get key = x.map .ofF32) :
    takeF32 object key = .ok x ↔ ∀ v ∈ x, v.isFinite = true := by
  rw [takeF32, h]
  cases x with
  | none => simp
  | some x =>
    cases hx : x.isFinite with
    | false => simp [Json.ofF32, hx, Json.asF64, shape, orError, bind, Except.bind]
    | true =>
      simp [Json.ofF32, hx, Json.asF64, shape, orError, bind, Except.bind, isFinite_f32ToF64 x hx,
        inF32Range_f32ToF64 x hx, f64ToF32_f32ToF64 x hx]

/-! ### The other fields -/

theorem recovers_format (fmt : Option ResponseFormat) :
    (∀ f ∈ fmt, (encodeResponseFormat f).nesting ≤ 126) ∧
        Recovers (parseResponseFormat (fmt.map encodeResponseFormat)) (Option.Rel ResponseFormat.Same fmt) ↔
      ∀ f ∈ fmt, FaithfulFormat f := by
  match hfmt : fmt with
  | none => exact iff_of_true ⟨nofun, none, returns_pure.2 rfl, .none⟩ nofun
  | some .text | some .jsonObject =>
    refine iff_of_true ⟨?_, fmt, ?_, by rw [hfmt]; exact .some trivial⟩ (by simp [FaithfulFormat])
    · simpa [encodeResponseFormat] using nesting_ofFields (n := 125) (by simp)
    · simp [parseResponseFormat, encodeResponseFormat, parseFormatOf, Json.ofFields, Assoc.ofList, hfmt]
  | some (.jsonSchema name schema strict) =>
    have hrd : Returns (fun _ => True) (parseResponseFormat ((some (.jsonSchema name schema strict)).map
        encodeResponseFormat)) (some (.jsonSchema name (.fromValue schema.value) strict)) := by
      simp [parseResponseFormat, encodeResponseFormat, parseFormatOf, parseJsonSchema, Json.ofFields, Assoc.ofList,
        get_insert]
    have hs : Option.Rel ResponseFormat.Same (some (.jsonSchema name schema strict))
        (some (.jsonSchema name (.fromValue schema.value) strict)) :=
      .some ⟨rfl, (PreservedJson.value_fromValue schema.wellFormed).symm, rfl⟩
    rw [hrd.recovers_iff, and_iff_left hs]
    simp only [mem_some_iff, forall_eq', FaithfulFormat, encodeResponseFormat]
    constructor
    · intro hnest
      have hg : (Assoc.ofList [("name", Json.string name), ("schema", schema.value), ("strict", .bool strict)]).get
          "schema" = some schema.value := by simp [Assoc.ofList, get_insert]
      exact (nesting_of_tagged hnest).get hg
    · intro hsch
      exact nesting_tagged (all_ofList (by simp [hsch]))

/-! ### Preserved fields -/

theorem returns_preserveUnknownFields {extensions} :
    Returns (fun _ => True) (preserveUnknownFields fields) extensions ↔
      extensions = if fields.isEmpty then [] else [(unknownFieldsKey, unknownFieldsOf fields)] := by
  unfold preserveUnknownFields
  split
  · simp
  · simp

theorem faithful_unknownFields (h : (Json.object object).WellFormed) :
    FaithfulExtensions (if (unknownFields object).isEmpty then []
      else [(unknownFieldsKey, unknownFieldsOf (unknownFields object))]) := by
  obtain ⟨hsort, hall⟩ := wellFormed_object.1 h
  split
  · exact .inl rfl
  next hne =>
    refine .inr ⟨unknownFields object, by simpa using hne, wellFormed_object.2 ⟨hsort.filter _, ?_⟩, ?_, rfl⟩
    · exact fun field hfld => hall field (mem_of_mem_filter hfld)
    · intro field hfld
      simpa using (mem_filter.1 hfld).2

/-- What the body holds beside the fields of the request itself. -/
structure Extends (object base : Assoc String Json) (extensions : Extensions) : Prop where
  taken : ∀ k ∈ takenFields, object.get k = base.get k
  nesting : (base.All fun value => value.nesting ≤ 126) → object.All fun value => value.nesting ≤ 126
  unknown : extensions = if (unknownFields object).isEmpty then []
    else [(unknownFieldsKey, unknownFieldsOf (unknownFields object))]

theorem get_of_mergeUnknownFields {object} (hwell : (Json.object fields).WellFormed)
    (h : Returns Lossless (mergeUnknownFields base [(unknownFieldsKey, unknownFieldsOf fields)]) object) :
    (∀ k, object.get k = (base.get k).or (fields.get k)) ∧ (Json.object fields).nesting ≤ maxNesting := by
  have hkey : unknownFieldsKey.asStr = unknownFieldsExtension := rfl
  simp only [mergeUnknownFields, foldlM_cons, foldlM_nil, mergeExtension, hkey, ne_eq, not_true_eq_false,
    if_false, returns_bind, returns_lift, orError_eq_ok, asObject_eq_some, returns_pure] at h
  obtain ⟨_, ⟨value, hval, fields', rfl, merged, hmgd, -, -, rfl⟩, rfl⟩ := h
  rw [unknownFieldsOf, fromSlice_toVec hwell] at hval
  split at hval
  next hnest =>
    cases hval
    exact ⟨get_mergeFields hmgd, hnest⟩
  · cases hval

theorem extends_of_faithful {object extensions}
    (h : Returns Lossless (mergeUnknownFields base extensions) object) (hobj : object.Sorted)
    (hbase : ∀ k, k ∉ takenFields → base.get k = none) (hext : FaithfulExtensions extensions) :
    Extends object base extensions := by
  rcases hext with rfl | ⟨fields, hne, hwell, htkn, rfl⟩
  · obtain rfl : object = base := returns_pure.1 h
    have hn : unknownFields object = [] :=
      unknownFields_eq hobj sorted_nil (fun k => by rw [get_nil, or_none]) hbase nofun
    exact ⟨fun _ _ => rfl, id, by rw [hn]; rfl⟩
  · obtain ⟨hg, hnest⟩ := get_of_mergeUnknownFields hwell h
    have hunk := unknownFields_eq hobj (wellFormed_object.1 hwell).1 hg hbase htkn
    refine ⟨?_, ?_, ?_⟩
    · intro k hk
      rw [hg]
      cases hfld : fields.get k with
      | none => rw [or_none]
      | some value => exact absurd hk (htkn (k, value) (mem_of_get hfld))
    · intro hall field hfld
      have hval := hobj.get_of_mem hfld
      rw [hg] at hval
      rcases or_eq_some_iff.1 hval with hbaseField | ⟨-, hfieldsField⟩
      · exact hall.get hbaseField
      · exact (nesting_object.1 hnest).get hfieldsField
    · rw [hunk, if_neg (by simpa using hne)]

/-! ### Requests -/

theorem validateTools_same {tools tools'} (h : Forall₂ ToolDefinition.Same tools tools')
    (seen : List String) : SemanticRequest.validateTools seen tools' = SemanticRequest.validateTools seen tools := by
  induction h generalizing seen with
  | nil => rfl
  | cons htool _ ih => simp [SemanticRequest.validateTools, ← htool.name, ih]

variable {request : SemanticRequest}

/-- What encoding without a loss says about the request and the body. -/
structure Wrote (request : SemanticRequest) (object : Assoc String Json) (messages tools : List Json) : Prop where
  messages : Forall₂ (fun item value => Returns Lossless (encodeInputItem item) value) request.input messages
  tools : Forall₂ (fun tool value => Returns Lossless (encodeToolDefinition tool) value) request.tools tools
  sampling : request.sampling.extensions = []
  reasoning : Returns Lossless (reportReasoning request.reasoning) ()

variable {dialect : ModelDialect}

theorem of_encodeObject (h : Returns Lossless (encodeObject request dialect) object) :
    ∃ messages tools, Wrote request object messages tools ∧
      (request.sampling.temperature.isSome → dialect.temperature = .accepted) ∧
      Returns Lossless (mergeUnknownFields (requestFields request dialect messages tools) request.extensions)
        object := by
  simp only [encodeObject, reportSampling, reportUnrepresentableExtensions, returns_bind, returns_mapM, returns_noteIf,
    not_lossless_unsupportedRequired, not_lossless_dropOptional, imp_false] at h
  obtain ⟨messages, hmsgs, -, -, tools, htls, -, -, -, -, -, -, -, ⟨-, hexts, htemp⟩, _, hreas, -, -, hmrg⟩ := h
  refine ⟨messages, tools, ⟨hmsgs, htls, by simpa using hexts, hreas⟩, ?_, hmrg⟩
  intro hsome
  simpa [hsome] using htemp

/-- The fields of the body that decoding takes out. -/
structure BodyFields (object : Assoc String Json) (request : SemanticRequest) (messages tools : List Json) : Prop where
  model : object.get "model" = some (.string request.model)
  messages : object.get "messages" = some (.array messages)
  tools : object.get "tools" = if tools.isEmpty then none else some (.array tools)
  toolChoice : object.get "tool_choice" = request.toolChoice.map encodeToolChoice
  temperature : object.get "temperature" = request.sampling.temperature.map .ofF32
  topP : object.get "top_p" = request.sampling.topP.map .ofF32
  maxTokens : object.get "max_tokens" = request.sampling.maxOutputTokens.map fun n => .number (.posInt n.toUInt64)
  maxCompletionTokens : object.get "max_completion_tokens" = none
  stop : object.get "stop" = encodeStop request.sampling.stop
  seed : object.get "seed" = request.sampling.seed.map fun n => .number (.posInt n)
  presencePenalty : object.get "presence_penalty" = request.sampling.presencePenalty.map .ofF32
  frequencyPenalty : object.get "frequency_penalty" = request.sampling.frequencyPenalty.map .ofF32
  responseFormat : object.get "response_format" = request.responseFormat.map encodeResponseFormat
  reasoning : object.get "reasoning_effort" =
    (request.reasoning.bind (·.effort)).map fun effort => .string (reasoningEffortName effort)
  metadata : object.get "metadata" = encodeMetadata request.metadata
  n : object.get "n" = none

theorem wellFormed_encodeObject
    (h : Returns Lossless (encodeObject request dialect) object) : (Json.object object).WellFormed := by
  obtain ⟨messages, tools, hwr, -, hmrg⟩ := of_encodeObject h
  refine wellFormed_mergeUnknownFields hmrg (wellFormed_requestFields ?_ ?_)
  · exact forall_right_of_forall₂ (fun item value (hitem : Returns Lossless (encodeInputItem item) value) =>
      wellFormed_encodeInputItem hitem) hwr.messages
  · exact forall_right_of_forall₂ (fun tool value (htool : Returns Lossless (encodeToolDefinition tool) value) =>
      wellFormed_encodeToolDefinition htool) hwr.tools

section Request

variable {request : SemanticRequest} {dialect : ModelDialect} {messages tools : List Json}

theorem bodyFields (hext : Extends object (requestFields request dialect messages tools) request.extensions)
    (h : request.sampling.temperature.isSome → dialect.temperature = .accepted) :
    BodyFields object request messages tools := by
  have htemp : (if dialect.temperature = .accepted then request.sampling.temperature else none) =
      request.sampling.temperature := by
    split
    · rfl
    next hrej =>
      cases ht : request.sampling.temperature with
      | none => rfl
      | some => exact absurd (h (by rw [ht]; rfl)) hrej
  constructor <;> rw [hext.taken _ (by decide)] <;>
    simp [requestFields, insertSampling, htemp, get_insertSome, Assoc.ofList, get_insert]

theorem nesting_body (hext : Extends object (requestFields request dialect messages tools) request.extensions)
    (hflds : BodyFields object request messages tools) :
    (Json.object object).nesting ≤ maxNesting ↔ (∀ msg ∈ messages, msg.nesting ≤ 125) ∧
      (∀ tool ∈ tools, tool.nesting ≤ 125) ∧
      ∀ fmt ∈ request.responseFormat, (encodeResponseFormat fmt).nesting ≤ 126 := by
  constructor
  · intro h
    have hall := nesting_object.1 h
    refine ⟨nesting_array.1 (hall.get hflds.messages), ?_, ?_⟩
    · cases tools with
      | nil => nofun
      | cons => exact nesting_array.1 (hall.get hflds.tools)
    · intro fmt hmem
      exact hall.get (hflds.responseFormat.trans (map_eq_some_iff.2 ⟨fmt, hmem, rfl⟩))
  · rintro ⟨hm, ht, hf⟩
    refine nesting_object.2 (hext.nesting (all_requestFields (fun _ => zero_le _) (fun _ => zero_le _) ?_
      (nesting_array.2 hm) (fun _ => nesting_array.2 ht) ?_ ?_ hf ?_))
    · intro x
      unfold Json.ofF32
      split <;> simp
    · intro choice
      cases choice with
      | tool => exact nesting_tagged (all_ofList (by simp))
      | _ => exact zero_le _
    · unfold encodeStop
      split
      · nofun
      · simp
      · simp [nesting_array]
    · unfold encodeMetadata
      split
      · nofun
      · intro v hv
        obtain rfl := mem_some_iff.1 hv
        refine nesting_object.2 fun entry hent => ?_
        obtain ⟨field, -, rfl⟩ := mem_map.1 hent
        exact zero_le _

theorem returns_parseMessages (hflds : BodyFields object request messages tools) {input} :
    Returns (fun _ => True) (parseMessages object) input ↔
      Returns (fun _ => True) (messages.zipIdx.mapM fun msg => parseMessage msg.2 msg.1) input := by
  simp [parseMessages, hflds.messages]

theorem parseModel_body (hvld : request.validate = .ok ()) (hflds : BodyFields object request messages tools) :
    parseModel object = .ok request.model := by
  have hblank : SemanticRequest.isBlank request.model = false := by
    rw [Bool.eq_false_iff]
    intro hblank
    simp [SemanticRequest.validate, hblank] at hvld
  simp only [parseModel, bind_eq_ok, optionalString_eq_ok, orError_eq_ok, hflds.model]
  exact ⟨some request.model, rfl, request.model, rfl, by simp [hblank]⟩

theorem parseSampling_body (hflds : BodyFields object request messages tools)
    (hexts : request.sampling.extensions = []) :
    parseSampling object = .ok request.sampling ↔ FaithfulSampling request.sampling := by
  have htkn : parseSampling object = .ok request.sampling ↔
      takeF32 object "temperature" = .ok request.sampling.temperature ∧
      takeF32 object "top_p" = .ok request.sampling.topP ∧
      takeF32 object "presence_penalty" = .ok request.sampling.presencePenalty ∧
      takeF32 object "frequency_penalty" = .ok request.sampling.frequencyPenalty := by
    have hmax := parseMaxTokens_eq_ok hflds.maxTokens hflds.maxCompletionTokens
    have hseed := takeU64_eq_ok hflds.seed
    have hstop := hflds.stop
    generalize request.sampling = sampling at *
    obtain ⟨temperature, topP, maxOutputTokens, stop, seed, presencePenalty, frequencyPenalty, extensions⟩ := sampling
    obtain rfl : extensions = [] := hexts
    simp only [parseSampling, bind_eq_ok, hmax, hstop, parseStop_eq_ok, hseed, Except.ok.injEq,
      SamplingParameters.mk.injEq]
    constructor
    · rintro ⟨_, h1, _, h2, _, -, _, -, _, -, _, h3, _, h4, rfl, rfl, -, -, -, rfl, rfl, -⟩
      exact ⟨h1, h2, h3, h4⟩
    · rintro ⟨h1, h2, h3, h4⟩
      exact ⟨_, h1, _, h2, _, rfl, _, rfl, _, rfl, _, h3, _, h4, rfl, rfl, rfl, rfl, rfl, rfl, rfl, trivial⟩
  rw [htkn, takeF32_eq_ok hflds.temperature, takeF32_eq_ok hflds.topP, takeF32_eq_ok hflds.presencePenalty,
    takeF32_eq_ok hflds.frequencyPenalty]
  exact ⟨fun ⟨h1, h2, h3, h4⟩ => ⟨h1, h2, h3, h4⟩, fun ⟨h1, h2, h3, h4⟩ => ⟨h1, h2, h3, h4⟩⟩

theorem faithful_of_recovers (hwr : Wrote request object messages tools)
    (hext : Extends object (requestFields request dialect messages tools) request.extensions)
    (hflds : BodyFields object request messages tools) (hfaith : FaithfulExtensions request.extensions)
    (hnest : (Json.object object).nesting ≤ maxNesting) {decoded}
    (hdec : Returns (fun _ => True) (decodeObject object) decoded) (hs : SameRequest request decoded) :
    Faithful request := by
  obtain ⟨hm, ht, hf⟩ := (nesting_body hext hflds).1 hnest
  simp only [decodeObject, returns_bind, returns_lift, returns_pure] at hdec
  obtain ⟨model, -, input, hinp, decodedTools, htls, choice, -, sampling, hsam, fmt, hfmt, reasoning,
    hreas, metadata, -, -, -, extensions, -, -, -, rfl⟩ := hdec
  obtain rfl : request.sampling = sampling := hs.sampling
  obtain rfl : request.reasoning = reasoning := hs.reasoning
  rw [hflds.tools] at htls
  rw [hflds.responseFormat] at hfmt
  rw [hflds.reasoning] at hreas
  exact
    { input := (recovers_mapM hwr.messages fun n _ _ hitem => recovers_item n hitem).1
        ⟨hm, input, (returns_parseMessages hflds).1 hinp, hs.input⟩
      tools := (recovers_tools hwr.tools).1 ⟨ht, decodedTools, htls, hs.tools⟩
      reasoning := (parseReasoning_eq_ok hwr.reasoning).1 hreas
      sampling := (parseSampling_body hflds hwr.sampling).1 hsam
      responseFormat := (recovers_format request.responseFormat).1 ⟨hf, fmt, hfmt, hs.responseFormat⟩
      extensions := hfaith }

theorem recovers_of_faithful (hvld : request.validate = .ok ()) (hwr : Wrote request object messages tools)
    (hext : Extends object (requestFields request dialect messages tools) request.extensions)
    (hflds : BodyFields object request messages tools) (hfaith : Faithful request) :
    (Json.object object).nesting ≤ maxNesting ∧ Recovers (decodeObject object) (SameRequest request) := by
  obtain ⟨hm, input, hinp, hsameInput⟩ :=
    (recovers_mapM hwr.messages fun n _ _ hitem => recovers_item n hitem).2 hfaith.input
  obtain ⟨ht, decodedTools, htls, hsameTools⟩ := (recovers_tools hwr.tools).2 hfaith.tools
  obtain ⟨hf, fmt, hfmt, hsameFormat⟩ := (recovers_format request.responseFormat).2 hfaith.responseFormat
  refine ⟨(nesting_body hext hflds).2 ⟨hm, ht, hf⟩,
    { SemanticRequest.new request.model with
      input := input, tools := decodedTools, toolChoice := request.toolChoice, sampling := request.sampling,
      responseFormat := fmt, reasoning := request.reasoning, metadata := request.metadata,
      extensions := request.extensions }, ?_, ⟨rfl, hsameInput, hsameTools, rfl, rfl, rfl, hsameFormat, rfl, rfl⟩⟩
  simp only [decodeObject, returns_bind, returns_lift, returns_pure, mapError_eq_ok]
  refine ⟨request.model, parseModel_body hvld hflds, input,
    (returns_parseMessages hflds).2 hinp, decodedTools, hflds.tools ▸ htls, request.toolChoice,
    hflds.toolChoice ▸ parse_toolChoice request.toolChoice, request.sampling,
    (parseSampling_body hflds hwr.sampling).2 hfaith.sampling, fmt, hflds.responseFormat ▸ hfmt,
    request.reasoning, hflds.reasoning ▸ (parseReasoning_eq_ok hwr.reasoning).2 hfaith.reasoning,
    request.metadata, hflds.metadata ▸ parseMetadata_eq_ok request.metadata, ⟨⟩, ?_,
    request.extensions, returns_preserveUnknownFields.2 hext.unknown, ⟨⟩, ?_, rfl⟩
  · rw [hflds.n]
    exact returns_pure.2 rfl
  · rw [SemanticRequest.validate, SemanticRequest.new, validateTools_same hsameTools]
    exact hvld

/-- Decoding gives the request back exactly when it says no more than its encoding does. -/
theorem recovers_request (hvld : request.validate = .ok ())
    (h : Returns Lossless (encodeObject request dialect) object) :
    (Json.object object).nesting ≤ maxNesting ∧ Recovers (decodeObject object) (SameRequest request) ↔
      Faithful request := by
  obtain ⟨messages, tools, hwr, htemp, hmrg⟩ := of_encodeObject h
  have hwell := wellFormed_encodeObject h
  have hexten : FaithfulExtensions request.extensions →
      Extends object (requestFields request dialect messages tools) request.extensions :=
    extends_of_faithful hmrg (wellFormed_object.1 hwell).1 fun k hk => get_requestFields_of_not_mem hk
  constructor
  · rintro ⟨hnest, decoded, hdec, hs⟩
    -- What is decoded has only the extension that decoding makes, so the request has no other.
    have hfaith : FaithfulExtensions request.extensions := by
      simp only [decodeObject, returns_bind, returns_lift, returns_pure] at hdec
      obtain ⟨_, -, _, -, _, -, _, -, _, -, _, -, _, -, _, -, -, -, extensions, hexts, -, -, rfl⟩ := hdec
      rw [hs.extensions]
      change FaithfulExtensions extensions
      rw [returns_preserveUnknownFields.1 hexts]
      exact faithful_unknownFields hwell
    have hext := hexten hfaith
    exact faithful_of_recovers hwr hext (bodyFields hext htemp) hfaith hnest hdec hs
  · intro hfaith
    have hext := hexten hfaith.extensions
    exact recovers_of_faithful hvld hwr hext (bodyFields hext htemp) hfaith

end Request

/-! ### Bodies -/

theorem of_encodeChatRequest {encoded} (h : encodeChatRequestWithDialect request .reject dialect = .ok encoded) :
    request.validate = .ok () ∧ ∃ object, Returns Lossless (encodeObject request dialect) object ∧
      encoded.body = toVec (.object object) := by
  simp only [encodeChatRequestWithDialect, bind_eq_ok, mapError_eq_ok] at h
  obtain ⟨_, hvld, ⟨object, notes⟩, hrun, _, hrep, h⟩ := h
  cases h
  exact ⟨hvld, object, ⟨notes, hrun, lossless_ofNotes.1 (validate_reject.1 hrep)⟩, rfl⟩

theorem decodes_body_iff {same} (h : (Json.object object).WellFormed) :
    (∃ decoded, decodeChatRequestWithReport (toVec (.object object)) = .ok decoded ∧ same decoded.request) ↔
      (Json.object object).nesting ≤ maxNesting ∧ Recovers (decodeObject object) same := by
  simp only [decodeChatRequestWithReport, bind_eq_ok, orError_eq_ok, shape_eq_ok, asObject_eq_some,
    fromSlice_toVec h, ite_none_right_eq_some]
  constructor
  · rintro ⟨decoded, ⟨_, ⟨hnest, hobj⟩, _, rfl, ⟨request, notes⟩, hrun, h⟩, hs⟩
    cases hobj
    cases h
    exact ⟨hnest, request, ⟨notes, hrun, fun _ _ => trivial⟩, hs⟩
  · rintro ⟨hnest, request, ⟨notes, hrun, -⟩, hs⟩
    exact ⟨⟨request, .ofNotes notes⟩, ⟨_, ⟨hnest, rfl⟩, object, rfl, (request, notes), hrun, rfl⟩, hs⟩

/-- A request that is encoded without a reported loss is given back by decoding exactly when it is
faithful: the encoder reports no loss of media types, inline media, the place of tool calls, names of
tool messages and the other things that a faithful request does not have. -/
theorem lossless_chat_encoding {request : SemanticRequest} {dialect : ModelDialect} {encoded : EncodedChatRequest}
    (h : encodeChatRequestWithDialect request .reject dialect = .ok encoded) :
    (∃ decoded, decodeChatRequestWithReport encoded.body = .ok decoded ∧ SameRequest request decoded.request) ↔
      Faithful request := by
  obtain ⟨hvld, object, hobj, hbody⟩ := of_encodeChatRequest h
  rw [hbody, decodes_body_iff (wellFormed_encodeObject hobj), recovers_request hvld hobj]

end Pooler.OpenAiChat

/-! ### Samples -/

namespace Pooler.OpenAiChat

noncomputable local instance : Platform := unaryPlatform

/-- A question about the weather, with the tool that answers it and the call that was made. -/
noncomputable def weatherRequest : SemanticRequest :=
  { SemanticRequest.new "gpt" with
    input := [.message (.text .user "Is it raining?"),
      .toolCall (.new "call_1" "weather" (.fromValue (.ofFields [("city", .string "Oslo")]))),
      .toolResult ⟨"call_1", [.text "yes"], false, []⟩]
    tools := [⟨"weather", some "the weather", some (.fromValue (.ofFields [("type", .string "object")])), none, []⟩]
    reasoning := some ⟨some .low, false, []⟩ }

theorem faithful_weatherRequest : Faithful weatherRequest where
  input := by
    simp only [weatherRequest, List.forall_mem_cons]
    refine ⟨⟨nofun, List.pairwise_singleton _ _, ?_⟩, ⟨nofun, List.pairwise_singleton _ _, ?_⟩, ?_, nofun⟩
    · exact List.forall_mem_singleton.2 trivial
    · exact List.forall_mem_singleton.2 ⟨rfl, by unfold FaithfulCall; decide⟩
    · exact List.forall_mem_singleton.2 trivial
  tools := by
    refine List.forall_mem_singleton.2 fun document hdoc => ?_
    rw [← Option.mem_some_iff.1 hdoc]
    decide
  reasoning := by
    rintro reasoning hreas
    rw [← Option.mem_some_iff.1 hreas]
    exact ⟨.low, rfl, rfl⟩
  sampling := ⟨nofun, nofun, nofun, nofun⟩
  responseFormat := nofun
  extensions := .inl rfl

theorem weatherRequest_given_back : ∃ encoded decoded,
    encodeChatRequest weatherRequest .reject = .ok encoded ∧ decodeChatRequestWithReport encoded.body = .ok decoded ∧
      SameRequest weatherRequest decoded.request := by
  obtain ⟨encoded, henc⟩ : ∃ encoded, encodeChatRequestWithDialect weatherRequest .reject .default = .ok encoded :=
    ⟨_, rfl⟩
  obtain ⟨decoded, hdec, hs⟩ := (lossless_chat_encoding henc).2 faithful_weatherRequest
  exact ⟨encoded, decoded, henc, hdec, hs⟩

/-- A picture that is said to be a PNG. -/
noncomputable def pictureRequest : SemanticRequest :=
  { SemanticRequest.new "gpt" with
    input := [.message (.ofContent .user [.image "image/png" (.uri "cat.png") none])] }

theorem picture_media_type_lost : ∃ encoded, encodeChatRequest pictureRequest .reject = .ok encoded ∧
    ¬∃ decoded, decodeChatRequestWithReport encoded.body = .ok decoded ∧
      SameRequest pictureRequest decoded.request := by
  obtain ⟨encoded, henc⟩ : ∃ encoded, encodeChatRequestWithDialect pictureRequest .reject .default = .ok encoded :=
    ⟨_, rfl⟩
  obtain ⟨hvld, object, hobj, hbody⟩ := of_encodeChatRequest henc
  refine ⟨encoded, henc, ?_⟩
  rw [hbody, decodes_body_iff (wellFormed_encodeObject hobj), recovers_request hvld hobj]
  intro hfaith
  have hmediaType : "image/png" = "image/*" := (hfaith.input _ List.mem_cons_self).2.2 _ List.mem_cons_self
  exact absurd hmediaType (by decide)

end Pooler.OpenAiChat
