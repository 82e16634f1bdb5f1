import Pooler.Proofs.ChatParts

/-! Chat messages that are encoded without a loss: which of them decoding gives back. -/

namespace Pooler

open Lib Assoc Json List Note

variable [Platform]

def ContentPart.isToolCall : ContentPart → Bool
  | .toolCall _ => true
  | _ => false

/-- A bare tool call counts as the assistant message that holds it, and a message of a tool as the
result for its call, if it has nothing that a result has not. -/
def InputItem.normal : InputItem → InputItem
  | .toolCall call => .message (.ofContent .assistant [.toolCall call])
  | .message ⟨none, .tool, parts, none, some toolCallId, _, extensions⟩ =>
    .toolResult ⟨toolCallId, parts, false, extensions⟩
  | item => item

namespace OpenAiChat

open Journal

def FaithfulCall (call : ToolCall) : Prop := call.arguments.value.nesting ≤ maxNesting

def FaithfulMessagePart (role : Role) : ContentPart → Prop
  | .toolCall call => role = .assistant ∧ FaithfulCall call
  | part => FaithfulPart part

/-- The item, seen as a message or as the result of a tool, says no more than its encoding does. -/
def FaithfulItem : InputItem → Prop
  | .message message => message.role ≠ .tool ∧
    (message.content.Pairwise fun a b => a.isToolCall = true → b.isToolCall = true) ∧
    ∀ part ∈ message.content, FaithfulMessagePart message.role part
  | .toolResult result => ∀ part ∈ result.content, FaithfulPart part
  | .toolCall _ | .content _ | .provider _ _ _ => False

/-! ### Tool calls -/

theorem parse_toolCall (field id name args : String) {document}
    (h : PreservedJson.fromStr args = some document) :
    Returns (fun _ => True) (parseToolCall field (.ofFields [("id", .string id), ("type", .string "function"),
      ("function", .ofFields [("name", .string name), ("arguments", .string args)])])) (.new id name document) := by
  simp [parseToolCall, Json.ofFields, Assoc.ofList, get_insert, h]

/-- The relation between a part that is a tool call and the value it was encoded to. -/
def WroteCall (part : ContentPart) (value : Json) : Prop :=
  ∃ call, part = .toolCall call ∧ Returns Lossless (encodeToolCall call) value

variable {value : Json} {part : ContentPart}

theorem nesting_of_wroteCall (h : WroteCall part value) : value.nesting ≤ 2 := by
  obtain ⟨call, -, h⟩ := h
  simp only [encodeToolCall, reportUnrepresentableExtensions, returns_bind, returns_pure] at h
  obtain ⟨-, -, -, -, rfl⟩ := h
  refine nesting_ofFields ?_
  simp only [forall_mem_cons, nesting_string]
  exact ⟨Nat.zero_le _, Nat.zero_le _, nesting_ofFields (by simp), forall_mem_nil _⟩

theorem recovers_toolCall (field : String) (h : WroteCall part value) :
    Recovers (ContentPart.toolCall <$> parseToolCall field value) part.Same ↔ FaithfulMessagePart .assistant part := by
  obtain ⟨call, rfl, h⟩ := h
  simp only [encodeToolCall, reportUnrepresentableExtensions, returns_bind, returns_pure, returns_noteIf,
    not_lossless_unsupportedRequired, Bool.not_eq_true', imp_false, Bool.not_eq_false, List.isEmpty_iff] at h
  obtain ⟨-, hdep, -, hexts, rfl⟩ := h
  have hrd := PreservedJson.value_fromStr_toBytes call.arguments
  rw [recovers_map]
  by_cases hnest : call.arguments.value.nesting ≤ maxNesting
  · rw [if_pos hnest, Option.map_eq_some_iff] at hrd
    obtain ⟨document, hdoc, hval⟩ := hrd
    rw [(parse_toolCall field call.id call.name _ hdoc).recovers_iff]
    exact iff_of_true (.toolCall ⟨rfl, rfl, hval.symm, hdep, hexts⟩) ⟨rfl, hnest⟩
  · rw [if_neg hnest, Option.map_eq_none_iff] at hrd
    refine iff_of_false ?_ fun h => hnest h.2
    simp [Recovers, parseToolCall, Json.ofFields, Assoc.ofList, Assoc.get_insert, hrd]

/-! ### Messages -/

variable {parts : List ContentPart}

theorem wrote_of_encodeMessageParts {encoded} (h : Returns Lossless (encodeMessageParts parts) encoded) :
    Forall₂ WrotePart (parts.filter fun part => !part.isToolCall) encoded.1 ∧
      Forall₂ WroteCall (parts.filter ContentPart.isToolCall) encoded.2 := by
  induction parts using encodeMessageParts.induct generalizing encoded with
  | case1 =>
    obtain rfl := returns_pure.1 h
    exact ⟨.nil, .nil⟩
  | case2 call parts ih =>
    simp only [encodeMessageParts, returns_bind, returns_pure] at h
    obtain ⟨value, hval, rest, hr, rfl⟩ := h
    obtain ⟨hpts, hcal⟩ := ih hr
    exact ⟨hpts, .cons ⟨call, rfl, hval⟩ hcal⟩
  | case3 =>
    obtain ⟨_, hnote, -⟩ := returns_bind.1 h
    exact absurd (returns_note.1 hnote) not_lossless_unsupportedRequired
  | case4 part parts hcall hres ih =>
    simp only [encodeMessageParts, returns_bind, returns_pure] at h
    obtain ⟨value, hval, rest, hr, rfl⟩ := h
    obtain ⟨hpts, hcal⟩ := ih hr
    have hplain : part.isToolCall = false := by
      cases part with
      | toolCall call => exact absurd rfl (hcall call)
      | _ => rfl
    rw [filter_cons_of_pos (by simp [hplain]), filter_cons_of_neg (by simp [hplain])]
    exact ⟨.cons hval hpts, hcal⟩

variable {field : String}

theorem not_isToolCall_of_parse
    (h : Returns (fun _ => True) (parseContentPart field value) part) : part.isToolCall = false := by
  obtain ⟨object, -, kind, -, h⟩ := returns_parseContentPart.1 h
  unfold parsePartOf at h
  split at h
  · simp only [parseText, returns_bind, returns_pure] at h
    obtain ⟨-, -, -, -, rfl⟩ := h
    rfl
  · simp only [parseImage, returns_bind, returns_pure] at h
    obtain ⟨-, -, -, -, -, -, -, -, -, -, rfl⟩ := h
    rfl
  · simp only [parseAudio, returns_bind, returns_pure] at h
    obtain ⟨-, -, -, -, -, -, -, -, -, -, rfl⟩ := h
    rfl
  · simp only [parseFile, returns_bind, returns_pure] at h
    obtain ⟨-, -, -, -, -, -, -, -, -, -, rfl⟩ := h
    rfl
  · simp only [parseProvider, returns_bind, returns_pure] at h
    obtain ⟨-, -, rfl⟩ := h
    rfl

theorem not_isToolCall_of_parseContent
    (h : Returns (fun _ => True) (parseContent field value) parts) : ∀ part ∈ parts, part.isToolCall = false := by
  intro part hpart
  by_cases htext : ∃ text, part = .text text
  · obtain ⟨text, rfl⟩ := htext
    rfl
  · obtain ⟨items, -, item, -, field, hrd⟩ := item_of_parseContent h hpart fun text heq => htext ⟨text, heq⟩
    exact not_isToolCall_of_parse hrd

/-- The tool calls that decoding looks for. -/
def parsedCalls (role : Role) (field : String) (object : Assoc String Json) : Convert (List ContentPart) :=
  if role = .assistant then parseToolCalls field object else pure []

variable {object : Assoc String Json} {role : Role}

theorem isToolCall_of_parsedCalls {calls}
    (h : Returns (fun _ => True) (parsedCalls role field object) calls) : ∀ call ∈ calls, call.isToolCall = true := by
  unfold parsedCalls at h
  split at h
  · unfold parseToolCalls at h
    split at h
    · obtain rfl := returns_pure.1 h
      nofun
    · obtain ⟨values, -, h⟩ := returns_bind.1 h
      intro call hcall
      obtain ⟨value, -, n, hrd⟩ := exists_of_mem_mapM
        (f := fun n value => ContentPart.toolCall <$> parseToolCall s!"{field}.tool_calls[{n}]" value) h hcall
      obtain ⟨call, -, rfl⟩ := returns_map.1 hrd
      rfl
  · obtain rfl := returns_pure.1 h
    nofun

theorem recovers_parsedCalls (field : String)
    {values} (h : Forall₂ WroteCall parts values)
    (hobj : object.get "tool_calls" = if values.isEmpty then none else some (.array values)) :
    Recovers (parsedCalls role field object) (Forall₂ ContentPart.Same parts) ↔
      ∀ part ∈ parts, FaithfulMessagePart role part := by
  unfold parsedCalls
  split
  next hrole =>
    subst hrole
    have hlist : (∀ value ∈ values, True) ∧ Recovers (values.zipIdx.mapM fun call =>
          ContentPart.toolCall <$> parseToolCall s!"{field}.tool_calls[{call.2}]" call.1)
          (Forall₂ ContentPart.Same parts) ↔ ∀ part ∈ parts, FaithfulMessagePart .assistant part :=
      recovers_mapM h fun n _ _ hcall =>
        (and_iff_right trivial).trans (recovers_toolCall s!"{field}.tool_calls[{n}]" hcall)
    rw [← hlist, parseToolCalls, hobj]
    cases values with
    | nil => simp
    | cons => simp [Recovers]
  next hrole =>
    rw [recovers_pure, forall₂_nil_right_iff]
    constructor
    · rintro rfl
      exact forall_mem_nil _
    · intro hpts
      cases h with
      | nil => rfl
      | cons hcall =>
        obtain ⟨call, rfl, -⟩ := hcall
        exact absurd (hpts _ mem_cons_self).1 hrole

variable {item : InputItem} {content : List ContentPart}

theorem returns_parseMessageOf
    (hrole : role ≠ .tool) :
    Returns (fun _ => True) (parseMessageOf field object content (roleName role)) item ↔
      ∃ calls, Returns (fun _ => True) (parsedCalls role field object) calls ∧
        ∃ id, object.get "id" = id.map .string ∧ ∃ name, object.get "name" = name.map .string ∧
          item = .message ⟨id, role, content ++ calls, name, none, .empty, []⟩ := by
  cases role with
  | tool => exact absurd rfl hrole
  | assistant => simp [parseMessageOf, roleName, parseAssistant, parseEnvelope, parsedCalls]
  | system | developer | user => simp [parseMessageOf, roleName, parseEnvelope, parsedCalls]

theorem normal_message (message : Message) (h : message.role ≠ .tool) :
    (InputItem.message message).normal = .message message := by
  obtain ⟨id, role, content, name, toolCallId, metadata, exts⟩ := message
  cases role with
  | tool => exact absurd rfl h
  | _ => simp [InputItem.normal]

theorem isToolCall_of_same (a b : ContentPart) (h : a.Same b) : a.isToolCall = b.isToolCall := by
  cases h <;> rfl

theorem faithful_parts_iff :
    (∀ part ∈ content, FaithfulMessagePart role part) ↔
      (∀ part ∈ content.filter fun part => !part.isToolCall, FaithfulPart part) ∧
        ∀ part ∈ content.filter ContentPart.isToolCall, FaithfulMessagePart role part := by
  have hplain : ∀ part : ContentPart, part.isToolCall = false → (FaithfulMessagePart role part ↔ FaithfulPart part) := by
    intro part hpart
    cases part with
    | toolCall => cases hpart
    | _ => rfl
  simp only [mem_filter, Bool.not_eq_true', and_imp]
  constructor
  · intro h
    exact ⟨fun part hm hk => (hplain part hk).1 (h part hm), fun part hm _ => h part hm⟩
  · rintro ⟨hpts, hcal⟩ part hm
    cases hk : part.isToolCall with
    | false => exact (hplain part hk).2 (hpts part hm hk)
    | true => exact hcal part hm hk

variable {message : Message}

theorem of_encodeMessage (hrole : message.role ≠ .tool)
    (h : Returns Lossless (encodeMessage message) value) :
    message.metadata = .empty ∧ message.extensions = [] ∧ message.toolCallId = none ∧
      ∃ encoded, Returns Lossless (encodeMessageParts message.content) encoded ∧
        value = .object ((jsonMessage (roleName message.role) encoded.1 message.name message.id).insertSome "tool_calls"
          (if encoded.2.isEmpty then none else some (.array encoded.2))) := by
  simp only [encodeMessage, reportUnrepresentableExtensions, returns_bind, returns_noteIf, returns_pure,
    if_neg hrole, not_lossless_unsupportedRequired, not_lossless_dropOptional] at h
  obtain ⟨-, hmeta, -, hexts, -, hcall, encoded, henc, hval⟩ := h
  have hents : message.metadata.entries = [] := by simpa using hmeta
  exact ⟨OrderedMap.eq_empty hents, by simpa using hexts, by simpa [hrole] using hcall, encoded, henc, hval⟩

variable (index : ℕ)

theorem recovers_message (hrole : message.role ≠ .tool) (h : Returns Lossless (encodeMessage message) value) :
    value.nesting ≤ 125 ∧
        Recovers (parseMessage index value) (fun item => (InputItem.message message).Same item.normal) ↔
      FaithfulItem (.message message) := by
  obtain ⟨hmeta, hexts, htoolCallId, encoded, henc, rfl⟩ := of_encodeMessage hrole h
  obtain ⟨hpts, hcal⟩ := wrote_of_encodeMessageParts henc
  set object := (jsonMessage (roleName message.role) encoded.1 message.name message.id).insertSome "tool_calls"
    (if encoded.2.isEmpty then none else some (.array encoded.2)) with hobj
  obtain ⟨hgetRole, hgetContent, hgetId, hgetName, hgetCalls⟩ :
      object.get "role" = some (.string (roleName message.role)) ∧
        object.get "content" = some (messageContent encoded.1) ∧ object.get "id" = message.id.map .string ∧
        object.get "name" = message.name.map .string ∧
        object.get "tool_calls" = if encoded.2.isEmpty then none else some (.array encoded.2) := by
    simp [hobj, jsonMessage, get_insertSome, Assoc.ofList, get_insert]
  have hnest : (Json.object object).nesting ≤ 125 ↔ (messageContent encoded.1).nesting ≤ 124 := by
    rw [nesting_object]
    refine ⟨fun hall => hall.get hgetContent, fun hcont => ?_⟩
    refine (((all_ofList ?_).insertSome ?_).insertSome ?_).insertSome ?_
    · simp [hcont]
    · simp
    · simp
    · have hdeep : (Json.array encoded.2).nesting ≤ 124 := nesting_array.2 fun value hval =>
        (forall_right_of_forall₂ (fun _ _ hcall => nesting_of_wroteCall hcall) hcal value hval).trans (by decide)
      split <;> simp [hdeep]
  obtain ⟨field, hfld⟩ : ∃ field, field = s!"messages[{index}]" := ⟨_, rfl⟩
  have hrd : ∀ item, Returns (fun _ => True) (parseMessage index (.object object)) item ↔
      ∃ parts, Returns (fun _ => True) (parseContent s!"{field}.content" (messageContent encoded.1)) parts ∧
        Returns (fun _ => True) (parseMessageOf field object parts (roleName message.role)) item := by
    simp [parseMessage, hfld, hgetRole, hgetContent]
  rw [hnest, FaithfulItem, faithful_parts_iff, ← recovers_messageContent s!"{field}.content" hpts,
    ← recovers_parsedCalls field hcal hgetCalls]
  constructor
  · rintro ⟨hdeep, item, hitem, hs⟩
    obtain ⟨parts, hpts', hof⟩ := (hrd item).1 hitem
    obtain ⟨calls, hcal', id, -, name, -, rfl⟩ := (returns_parseMessageOf hrole).1 hof
    rw [normal_message _ (by exact hrole)] at hs
    obtain ⟨hpair, hsameParts, hsameCalls⟩ := (forall₂_append_iff isToolCall_of_same
      (not_isToolCall_of_parseContent hpts') (isToolCall_of_parsedCalls hcal')).1 hs.content
    exact ⟨hrole, hpair, ⟨hdeep, parts, hpts', hsameParts⟩, calls, hcal', hsameCalls⟩
  · rintro ⟨-, hpair, ⟨hdeep, parts, hpts', hsameParts⟩, calls, hcal', hsameCalls⟩
    refine ⟨hdeep, .message ⟨message.id, message.role, parts ++ calls, message.name, none, .empty, []⟩, ?_, ?_⟩
    · exact (hrd _).2 ⟨parts, hpts', (returns_parseMessageOf hrole).2
        ⟨calls, hcal', message.id, hgetId, message.name, hgetName, rfl⟩⟩
    · beta_reduce
      rw [normal_message _ (by exact hrole)]
      exact ⟨rfl, rfl, (forall₂_append_iff isToolCall_of_same (not_isToolCall_of_parseContent hpts')
        (isToolCall_of_parsedCalls hcal')).2 ⟨hpair, hsameParts, hsameCalls⟩, rfl, htoolCallId, hmeta, hexts⟩

/-! ### Results of tools -/

theorem recovers_toolResult {result} (h : Returns Note.Lossless (encodeToolResultMessage result) value) :
    value.nesting ≤ 125 ∧
        Recovers (parseMessage index value) (fun item => (InputItem.toolResult result).Same item.normal) ↔
      FaithfulItem (.toolResult result) := by
  simp only [encodeToolResultMessage, reportUnrepresentableExtensions, returns_bind, returns_noteIf, returns_pure,
    not_lossless_unsupportedRequired, not_lossless_dropOptional, imp_false, Bool.not_eq_true', Bool.not_eq_false,
    Bool.not_eq_true, List.isEmpty_iff] at h
  obtain ⟨-, hexts, -, hisError, content, hcont, rfl⟩ := h
  set object := ((jsonMessage "tool" [] none none).insert "tool_call_id" (.string result.toolCallId)).insert
    "content" content with hobj
  obtain ⟨hgetRole, hgetContent, hgetId⟩ : object.get "role" = some (.string "tool") ∧
      object.get "content" = some content ∧ object.get "tool_call_id" = some (.string result.toolCallId) := by
    simp [hobj, jsonMessage, Assoc.get_insertSome, Assoc.ofList, Assoc.get_insert]
  have hnest : (Json.object object).nesting ≤ 125 ↔ content.nesting ≤ 124 := by
    rw [Json.nesting_object]
    refine ⟨fun hall => hall.get hgetContent, fun hdeep => ?_⟩
    refine Assoc.All.insert (Assoc.All.insert (((Assoc.all_ofList ?_).insertSome ?_).insertSome ?_) ?_) hdeep
    · simp [messageContent]
    · simp
    · simp
    · simp
  obtain ⟨field, hfld⟩ : ∃ field, field = s!"messages[{index}]" := ⟨_, rfl⟩
  have hrd : ∀ item, Returns (fun _ => True) (parseMessage index (.object object)) item ↔
      ∃ parts, Returns (fun _ => True) (parseContent s!"{field}.content" content) parts ∧
        item = .toolResult ⟨result.toolCallId, parts, false, []⟩ := by
    simp [parseMessage, parseMessageOf, parseToolMessage, hfld, hgetRole, hgetContent, hgetId]
  rw [hnest, FaithfulItem, ← recovers_toolContent s!"{field}.content" hcont]
  refine and_congr_right fun _ => ⟨?_, ?_⟩
  · rintro ⟨item, hitem, hs⟩
    obtain ⟨parts, hpts, rfl⟩ := (hrd item).1 hitem
    exact ⟨parts, hpts, hs.content⟩
  · rintro ⟨parts, hpts, hs⟩
    exact ⟨_, (hrd _).2 ⟨parts, hpts, rfl⟩, rfl, hs, hisError, hexts⟩

/-! ### Items -/

theorem normal_of_parseMessage {index : ℕ} (h : Returns (fun _ => True) (parseMessage index value) item) :
    (∃ message, item = .message message ∧ message.role ≠ .tool) ∨ ∃ result, item = .toolResult result := by
  simp only [parseMessage, returns_bind] at h
  obtain ⟨object, -, role, -, content, -, h⟩ := h
  have henv : ∀ {known role content}, role ≠ .tool →
      Returns (fun _ => True) (parseEnvelope s!"messages[{index}]" object known role content) item →
      ∃ message, item = .message message ∧ message.role ≠ .tool := by
    intro known role content hrole h
    simp only [parseEnvelope, returns_bind, returns_pure] at h
    obtain ⟨-, -, id, -, name, -, rfl⟩ := h
    exact ⟨_, rfl, hrole⟩
  unfold parseMessageOf at h
  split at h
  · exact .inl (henv (by decide) h)
  · exact .inl (henv (by decide) h)
  · exact .inl (henv (by decide) h)
  · obtain ⟨calls, -, h⟩ := returns_bind.1 h
    exact .inl (henv (by decide) h)
  · simp only [parseToolMessage, returns_bind, returns_pure] at h
    obtain ⟨-, -, id, -, rfl⟩ := h
    exact .inr ⟨_, rfl⟩
  · exact absurd h returns_fail

theorem not_same_content {index : ℕ} :
    ¬Recovers (parseMessage index value) (fun item => (InputItem.content part).Same item.normal) := by
  rintro ⟨item, hitem, hs⟩
  rcases normal_of_parseMessage hitem with ⟨message, rfl, hrole⟩ | ⟨result, rfl⟩
  · rw [normal_message message hrole] at hs
    exact hs
  · exact hs

/-- A message of a tool that has a name, an identifier or no call is not given back. -/
theorem not_same_tool {index : ℕ} (hrole : message.role = .tool) :
    ¬Recovers (parseMessage index value) (fun item => (InputItem.message message).Same item.normal) := by
  rintro ⟨item, hitem, hs⟩
  rcases normal_of_parseMessage hitem with ⟨message', rfl, hrole'⟩ | ⟨result, rfl⟩
  · rw [normal_message message' hrole'] at hs
    exact hrole' (hs.role ▸ hrole)
  · exact hs

theorem encode_bare_call {call} (h : Returns Lossless (encodeToolCallMessage call) value) :
    Returns Lossless (encodeMessage (.ofContent .assistant [.toolCall call])) value := by
  simp only [encodeToolCallMessage, returns_bind, returns_pure] at h
  obtain ⟨encoded, henc, rfl⟩ := h
  simp only [encodeMessage, Message.ofContent, reportUnrepresentableExtensions, encodeMessageParts, OrderedMap.empty,
    returns_bind, returns_noteIf]
  simp
  exact ⟨encoded, henc, rfl⟩

theorem recovers_message_tool (hrole : message.role = .tool) (h : Returns Note.Lossless (encodeMessage message) value) :
    value.nesting ≤ 125 ∧ Recovers (parseMessage index value)
        (fun item => (InputItem.message message).normal.Same item.normal) ↔
      FaithfulItem (InputItem.message message).normal := by
  obtain ⟨id, role, content, name, toolCallId, metadata, exts⟩ := message
  obtain rfl : role = .tool := hrole
  simp only [encodeMessage, reportUnrepresentableExtensions, returns_bind, returns_noteIf, if_pos,
    not_lossless_unsupportedRequired, not_lossless_dropOptional, imp_false, Bool.not_eq_true', Bool.not_eq_false,
    List.isEmpty_iff] at h
  obtain ⟨-, -, -, hexts, -, -, h⟩ := h
  subst hexts
  cases toolCallId with
  | none => exact absurd h returns_fail
  | some =>
    cases id with
    | some => exact iff_of_false (fun h => not_same_tool rfl h.2) fun h => h.1 rfl
    | none =>
      cases name with
      | some => exact iff_of_false (fun h => not_same_tool rfl h.2) fun h => h.1 rfl
      | none => exact recovers_toolResult index h

theorem recovers_item (h : Returns Lossless (encodeInputItem item) value) :
    value.nesting ≤ 125 ∧ Recovers (parseMessage index value) (fun item' => item.normal.Same item'.normal) ↔
      FaithfulItem item.normal := by
  cases item with
  | message message =>
    by_cases hrole : message.role = .tool
    · exact recovers_message_tool index hrole h
    · rw [normal_message message hrole]
      exact recovers_message index hrole h
  | toolCall => exact recovers_message index nofun (encode_bare_call h)
  | toolResult => exact recovers_toolResult index h
  | content => exact iff_of_false (fun h => not_same_content h.2) id
  | provider =>
    obtain ⟨_, hnote, -⟩ := returns_bind.1 h
    exact absurd (returns_note.1 hnote) not_lossless_unsupportedRequired

end OpenAiChat

end Pooler
