import Pooler.Sanity.Fields
import Pooler.Sanity.Streams
import Pooler.Spec.Protocol.ResponsesStream

/-! The events that the Responses decoder returns form a valid stream, as long as the provider opens
every block under an identifier of its own and does not complete the arguments of a call that has
ended. -/

namespace Pooler.OpenAiResponsesEventDecoder

open Lib OpenAiResponses List OrderedMap
open Triple (lift_bind failIf_bind get_bind modify_at modify_bind_at pure_at assuming)
open OpenAiChat (orError_eq_ok)

/-! ### The open blocks -/

/-- The three tables of items. -/
structure Items where
  texts : OrderedMap String Bool
  reasoning : OrderedMap String DecodedReasoningItem
  functions : OrderedMap String DecodedFunctionItem

variable (d : OpenAiResponsesEventDecoder)

def items : Items := ⟨d.textItems, d.reasoningItems, d.functionItems⟩

def textBlock (entry : String × Bool) : Option String := if entry.2 then some entry.1 else none

def reasoningItemBlock (entry : String × DecodedReasoningItem) : Option String :=
  if entry.2.isOpen then some entry.1 else none

def callBlock (entry : String × DecodedFunctionItem) : Option String :=
  if entry.2.isOpen then some entry.2.callId else none

/-- The blocks that the items hold open: text and reasoning under the identifier of the item, a
function call under the identifier of the call. -/
def Items.blocks (items : Items) : List String :=
  items.texts.collect textBlock ++ items.reasoning.collect reasoningItemBlock ++ items.functions.collect callBlock

def blocks : List String := d.items.blocks

/-- Before the end of the stream. Room is kept to close every open block. -/
structure Live (room : ℕ) (d : OpenAiResponsesEventDecoder) : Prop where
  tracks : d.out.Tracks (room + d.blocks.length) d.responseStarted false d.blocks
  running : d.completed = false

variable {d d' : OpenAiResponsesEventDecoder} {room : ℕ} {kind : StreamEventKind} {id : String}

theorem Live.mono {less : ℕ} (h : Live room d) (hle : less ≤ room) : Live less d :=
  ⟨h.tracks.mono (by omega), h.running⟩

/-! ### One event -/

/-- The decoder emitted one event and changed at most its tables. -/
structure Emits (kind : StreamEventKind) (blockId : Option String) (d d' : OpenAiResponsesEventDecoder) : Prop where
  out : d'.out = d.out.event kind blockId
  started : d'.responseStarted = d.responseStarted
  completed : d'.completed = d.completed

theorem Live.same (h : Live room d) (hperm : d.blocks.Perm d'.blocks)
    (hs : d'.out = d.out ∧ d'.responseStarted = d.responseStarted ∧ d'.completed = d.completed) : Live room d' := by
  refine ⟨?_, hs.2.2 ▸ h.running⟩
  rw [hs.1, hs.2.1, ← hperm.length_eq]
  exact h.tracks.perm hperm

variable {blockId : Option String}

theorem Live.plain (h : Live (room + 1) d) (hemit : Emits kind blockId d d')
    (hblks : d'.blocks = d.blocks) (hact : kind.blockAction = none) (hk : kind.Inner) : Live room d' := by
  refine ⟨?_, hemit.completed ▸ h.running⟩
  rw [hemit.out, hemit.started, hblks]
  exact h.tracks.spare.quiet hact hk

theorem Live.opens (h : Live (room + 2) d) (hemit : Emits kind (some id) d d')
    (hperm : d'.blocks.Perm (id :: d.blocks)) (hk : kind.Inner) (hact : kind.Opens (some id) id)
    (hne : id ≠ "") (hw : id ∉ d.blocks) : Live room d' := by
  refine ⟨?_, hemit.completed ▸ h.running⟩
  rw [hemit.out, hemit.started]
  exact h.tracks.opens_spare hk hact hne hw hperm

theorem Live.continues (h : Live (room + 1) d) (hemit : Emits kind (some id) d d') (hperm : d.blocks.Perm d'.blocks)
    (hk : kind.Inner) (hact : kind.Continues (some id) id) (ho : id ∈ d.blocks) : Live room d' := by
  refine ⟨?_, hemit.completed ▸ h.running⟩
  rw [hemit.out, hemit.started, ← hperm.length_eq]
  exact (h.tracks.spare.continues hk hact ho).perm hperm

theorem Live.closes (h : Live room d) (hemit : Emits kind (some id) d d') (hperm : d.blocks.Perm (id :: d'.blocks))
    (hk : kind.Inner) (hact : kind.Closes (some id) id) : Live room d' := by
  refine ⟨?_, hemit.completed ▸ h.running⟩
  rw [hemit.out, hemit.started]
  exact h.tracks.closes_spare hk hact hperm

/-! ### Changes of the tables -/

section Tables

variable (t : Items)

theorem blocks_texts {texts} (h : (texts.collect textBlock).Perm (id :: t.texts.collect textBlock)) :
    (Items.blocks { t with texts := texts }).Perm (id :: t.blocks) :=
  (h.append_right _).append_right _

theorem blocks_reasoning {reasoning}
    (h : (reasoning.collect reasoningItemBlock).Perm (id :: t.reasoning.collect reasoningItemBlock)) :
    (Items.blocks { t with reasoning := reasoning }).Perm (id :: t.blocks) := by
  have hmid := (h.append_left (t.texts.collect textBlock)).append_right (t.functions.collect callBlock)
  simp only [Items.blocks]
  refine hmid.trans ?_
  simpa only [append_assoc, cons_append] using perm_middle

theorem blocks_functions {functions} (h : (functions.collect callBlock).Perm (id :: t.functions.collect callBlock)) :
    (Items.blocks { t with functions := functions }).Perm (id :: t.blocks) :=
  (h.append_left _).trans perm_middle

end Tables

variable (t : Items)

/-- The identifier is not empty, and no open block has it. -/
def Items.fresh (id : String) : Bool := !id.isEmpty && !t.blocks.contains id

theorem Items.fresh_iff {t : Items} : t.fresh id = true ↔ id ≠ "" ∧ id ∉ t.blocks := by
  simp [Items.fresh]

/-- The text of the item is open, or it can be opened. -/
def Items.textFits (itemId : String) : Bool := (t.texts.get itemId).getD false || t.fresh itemId

/-- The reasoning of the item is open, or it can be opened. -/
def Items.reasoningFits (itemId : String) : Bool := ((t.reasoning.get itemId).getD .default).isOpen || t.fresh itemId

/-! ### Text -/

theorem textBlock_of_get : ((d.textItems.get id).bind fun v => textBlock (id, v)) =
    if (d.textItems.get id).getD false then some id else none := by
  cases d.textItems.get id with
  | none | some => rfl

theorem mem_texts_iff : id ∈ d.textItems.collect textBlock ↔ (d.textItems.get id).getD false = true := by
  refine (mem_collect_key (p := fun isOpen => isOpen)).trans ?_
  cases d.textItems.get id with
  | none | some => rfl

theorem openText_spec : Triple (fun d => Live (room + 2) d ∧ d.items.textFits id = true) (openText id)
    (fun _ d => Live room d ∧ id ∈ d.blocks) := by
  refine get_bind fun d ⟨h, hf⟩ => ?_
  split
  next ho => exact pure_at ⟨h.mono (by omega), mem_append_left _ (mem_append_left _ (mem_texts_iff.2 ho))⟩
  next hcl =>
    obtain ⟨hne, hw⟩ : id ≠ "" ∧ id ∉ d.blocks := by
      simpa [Items.textFits, items, hcl, Items.fresh_iff, blocks] using hf
    have hperm := blocks_texts d.items (collect_insert_more
      (textBlock_of_get.trans (if_neg hcl)) (show textBlock (id, true) = some id from rfl))
    refine modify_bind_at (modify_at ⟨?_, hperm.symm.subset mem_cons_self⟩)
    exact h.opens ⟨rfl, rfl, rfl⟩ hperm ⟨rfl, rfl⟩ (fun _ _ => rfl) hne hw

theorem Live.closeText (h : Live room d) (ho : (d.textItems.get id).getD false = true) :
    Live room { d with textItems := d.textItems.insert id false, out := d.out.event .textEnd (some id) } ∧
      (d.textItems.collect textBlock).Perm (id :: (d.textItems.insert id false).collect textBlock) := by
  have hperm : (d.textItems.collect textBlock).Perm (id :: (d.textItems.insert id false).collect textBlock) :=
    collect_insert_less (textBlock_of_get.trans (if_pos ho)) rfl
  refine ⟨h.closes ⟨rfl, rfl, rfl⟩ ?_ ⟨rfl, rfl⟩ fun _ _ => rfl, hperm⟩
  exact blocks_texts { d.items with texts := d.textItems.insert id false } hperm

theorem closeText_spec : Leads (Live room) (closeText id) (Live room) := by
  refine get_bind fun d h => ?_
  split
  next ho => exact modify_bind_at (modify_at (h.closeText ho).1)
  · exact pure_at h

theorem addTextItem_spec : Leads (Live room) (addTextItem id) (Live room) := by
  refine Triple.modify fun d h => h.same ?_ ⟨rfl, rfl, rfl⟩
  cases hg : d.textItems.get id with
  | none =>
    have hs : ((d.textItems.insert id false).collect textBlock).Perm (d.textItems.collect textBlock) :=
      collect_insert_same (by rw [hg]; rfl)
    exact ((hs.append_right _).append_right _).symm
  | some => exact List.Perm.refl _

/-! ### Reasoning -/

theorem reasoningItemBlock_of_get : ((d.reasoningItems.get id).bind fun v => reasoningItemBlock (id, v)) =
    if (d.reasoningItem id).isOpen then some id else none := by
  unfold reasoningItem
  cases d.reasoningItems.get id with
  | none | some => rfl

theorem mem_reasoning_iff : id ∈ d.reasoningItems.collect reasoningItemBlock ↔ (d.reasoningItem id).isOpen = true := by
  refine mem_collect_key.trans ?_
  unfold reasoningItem
  cases d.reasoningItems.get id with
  | none | some => rfl

theorem isOpen_of_insert (items : OrderedMap String DecodedReasoningItem) (state : DecodedReasoningItem)
    (ho : state.isOpen = true) (h : d'.reasoningItems = items.insert id state) :
    (d'.reasoningItem id).isOpen = true := by
  simp [reasoningItem, h, OrderedMap.get, OrderedMap.insert, ho]

theorem openReasoning_spec : Triple (fun d => Live (room + 2) d ∧ d.items.reasoningFits id = true) (openReasoning id)
    (fun _ d => Live room d ∧ (d.reasoningItem id).isOpen = true) := by
  refine get_bind fun d ⟨h, hf⟩ => ?_
  dsimp only
  split
  next ho => exact pure_at ⟨h.mono (by omega), ho⟩
  next hcl =>
    obtain ⟨hne, hw⟩ : id ≠ "" ∧ id ∉ d.blocks := by
      simp only [Items.reasoningFits, Bool.or_eq_true, Items.fresh_iff] at hf
      exact hf.resolve_left hcl
    have hperm := blocks_reasoning d.items (collect_insert_more
      (reasoningItemBlock_of_get.trans (if_neg hcl))
      (show reasoningItemBlock (id, { d.reasoningItem id with isOpen := true }) = some id from rfl))
    refine modify_bind_at (modify_at ⟨?_,
      isOpen_of_insert d.reasoningItems { d.reasoningItem id with isOpen := true } rfl rfl⟩)
    exact h.opens ⟨rfl, rfl, rfl⟩ hperm ⟨rfl, rfl⟩ (fun _ _ => rfl) hne hw

theorem Live.endReasoning (reasoning : ReasoningBlock) (h : Live room d) (ho : (d.reasoningItem id).isOpen = true) :
    Live room { d with
      reasoningItems := d.reasoningItems.insert id { d.reasoningItem id with isOpen := false },
      out := d.out.event (.reasoningEnd (some reasoning)) (some id) } ∧
      (d.reasoningItems.collect reasoningItemBlock).Perm
        (id :: (d.reasoningItems.insert id { d.reasoningItem id with isOpen := false }).collect reasoningItemBlock) := by
  have hperm : (d.reasoningItems.collect reasoningItemBlock).Perm
      (id :: (d.reasoningItems.insert id { d.reasoningItem id with isOpen := false }).collect reasoningItemBlock) :=
    collect_insert_less (reasoningItemBlock_of_get.trans (if_pos ho)) rfl
  refine ⟨h.closes ⟨rfl, rfl, rfl⟩ ?_ ⟨rfl, rfl⟩ fun _ _ => rfl, hperm⟩
  exact blocks_reasoning { d.items with reasoning := d.reasoningItems.insert id _ } hperm

theorem endReasoning_spec (reasoning : ReasoningBlock) :
    Leads (fun d => Live room d ∧ (d.reasoningItem id).isOpen = true) (endReasoning id reasoning) (Live room) :=
  assuming fun _ ⟨h, ho⟩ => modify_bind_at (modify_at (h.endReasoning reasoning ho).1)

theorem pushSummary_spec (delta : String) :
    Triple (fun d => Live room d ∧ (d.reasoningItem id).isOpen = true) (pushSummary id delta)
      (fun _ d => Live room d ∧ (d.reasoningItem id).isOpen = true) := by
  refine Triple.modify fun d ⟨h, ho⟩ => ⟨h.same ?_ ⟨rfl, rfl, rfl⟩, ?_⟩
  · have hs : ((d.reasoningItems.insert id { d.reasoningItem id with
        summary := (d.reasoningItem id).summary ++ delta }).collect reasoningItemBlock).Perm
        (d.reasoningItems.collect reasoningItemBlock) := collect_insert_same reasoningItemBlock_of_get
    exact ((hs.append_left _).append_right _).symm
  · exact isOpen_of_insert d.reasoningItems { d.reasoningItem id with summary := (d.reasoningItem id).summary ++ delta }
      ho rfl

/-! ### Function calls -/

variable {state : DecodedFunctionItem}

theorem mem_blocks_of_call (hg : d.functionItems.get id = some state)
    (ho : state.isOpen = true) : state.callId ∈ d.blocks :=
  mem_append_right _ (mem_collect.2 ⟨id, state, hg, if_pos ho⟩)

theorem blocks_of_arguments (hg : d.functionItems.get id = some state)
    (arguments : String) (hitems : d'.items = { d.items with
      functions := d.functionItems.insert id { state with arguments := arguments } }) : d.blocks.Perm d'.blocks := by
  have hs : ((d.functionItems.insert id { state with arguments := arguments }).collect callBlock).Perm
      (d.functionItems.collect callBlock) := collect_insert_same (by rw [hg]; rfl)
  unfold blocks
  rw [hitems]
  exact (hs.append_left _).symm

theorem Live.endFunction {old} (h : Live room d) (hg : d.functionItems.get id = some old)
    (ho : old.isOpen = true) (hcall : state.callId = old.callId) :
    Live room { d with
      functionItems := d.functionItems.insert id { state with isOpen := false },
      out := d.out.event (.toolCallEnd state.callId) (some state.callId) } := by
  have hperm : (d.functionItems.collect callBlock).Perm
      (state.callId :: (d.functionItems.insert id { state with isOpen := false }).collect callBlock) :=
    collect_insert_less (by rw [hg, hcall]; exact if_pos ho) rfl
  refine h.closes ⟨rfl, rfl, rfl⟩ ?_ ⟨rfl, rfl⟩ fun _ _ => rfl
  exact blocks_functions { d.items with functions := d.functionItems.insert id _ } hperm

variable (object : Assoc String Json)

/-- The text of a field, empty if the field has none. -/
def stringAt (key : String) : String := ((object.get key).bind Json.asStr).getD ""

theorem requiredString_eq_ok {object key field s}
    (h : requiredString object key field = .ok s) : stringAt object key = s := by
  unfold requiredString at h
  cases hg : object.get key with
  | none => rw [hg] at h; cases h
  | some =>
    rw [hg] at h
    have hstr := orError_eq_ok.1 h
    simp [stringAt, hg, hstr]

variable (item : Assoc String Json)

theorem startFunction_spec :
    Leads (fun d => Live (room + 2) d ∧ d.items.fresh (stringAt item "call_id") = true) (startFunction id item)
      (Live room) := by
  refine lift_bind fun callId hcall => lift_bind fun name _ => get_bind fun d ⟨h, hfr⟩ => failIf_bind fun hw => ?_
  rw [requiredString_eq_ok hcall] at hfr
  obtain ⟨hne, hout⟩ := Items.fresh_iff.1 hfr
  have hn : d.functionItems.get id = none := by simpa using hw
  have hperm := blocks_functions d.items (collect_insert_more (by simp [items, hn])
    (show callBlock (id, ⟨callId, "", true⟩) = some callId from rfl))
  refine modify_bind_at (modify_at ?_)
  exact h.opens ⟨rfl, rfl, rfl⟩ hperm ⟨rfl, rfl⟩ (fun _ _ => rfl) hne hout

theorem decodeFunctionDelta_spec : Leads (Live (room + 1)) (decodeFunctionDelta object) (Live room) := by
  refine lift_bind fun itemId _ => lift_bind fun delta _ => get_bind fun d h =>
    lift_bind fun state hstate => failIf_bind fun ho => modify_bind_at ?_
  have hg := orError_eq_ok.1 hstate
  have hin : state.callId ∈ d.blocks := mem_blocks_of_call hg (by simpa using ho)
  have hperm : d.blocks.Perm (blocks { d with
      functionItems := d.functionItems.insert itemId { state with arguments := state.arguments ++ delta } }) :=
    blocks_of_arguments hg (state.arguments ++ delta) rfl
  have hl := h.same hperm ⟨rfl, rfl, rfl⟩
  refine eventIfText_spec (modify_at ?_) ?_
  · exact hl.continues ⟨rfl, rfl, rfl⟩ (List.Perm.refl _) ⟨rfl, rfl⟩ (fun _ _ => rfl) (hperm.subset hin)
  · rintro _ rfl
    exact hl.mono (by omega)

/-- The arguments of a call are not completed after its end. -/
def Items.doneFits (itemId arguments : String) : Bool :=
  (t.functions.get itemId).all fun state => state.isOpen || !unstreamed state arguments

theorem decodeFunctionDone_spec :
    Leads (fun d => Live (room + 1) d ∧ d.items.doneFits (stringAt object "item_id") (stringAt object "arguments") = true)
      (decodeFunctionDone object) (Live room) := by
  refine lift_bind fun itemId hitem => lift_bind fun arguments hargs =>
    get_bind fun d ⟨h, hf⟩ => lift_bind fun state hstate => ?_
  rw [requiredString_eq_ok hitem, requiredString_eq_ok hargs] at hf
  have hg := orError_eq_ok.1 hstate
  split
  next huns =>
    have ho : state.isOpen = true := by simpa [Items.doneFits, items, hg, huns] using hf
    refine modify_bind_at (modify_at ?_)
    exact h.continues ⟨rfl, rfl, rfl⟩ (blocks_of_arguments hg arguments rfl) ⟨rfl, rfl⟩ (fun _ _ => rfl)
      (mem_blocks_of_call hg ho)
  · refine Triple.failIf ?_
    rintro _ rfl
    exact h.mono (by omega)

theorem closeFunction_spec : Leads (Live (room + 1)) (closeFunction id item) (Live room) := by
  refine lift_bind fun arguments _ => get_bind fun d h => lift_bind fun state hstate => ?_
  have hg := orError_eq_ok.1 hstate
  split
  · exact pure_at (h.mono (by omega))
  next hcl =>
    have ho : state.isOpen = true := by simpa using hcl
    split
    · refine modify_bind_at (modify_bind_at (modify_at ?_))
      have hdlt : Live room { d with
          out := d.out.event (.toolCallDelta state.callId arguments) (some state.callId) } :=
        h.continues ⟨rfl, rfl, rfl⟩ (List.Perm.refl _) ⟨rfl, rfl⟩ (fun _ _ => rfl) (mem_blocks_of_call hg ho)
      exact hdlt.endFunction hg ho rfl
    · refine failIf_bind fun _ => modify_bind_at (modify_at ?_)
      exact (h.mono (by omega)).endFunction hg ho rfl

/-! ### The response -/

variable {p : Items → Prop}

/-- Before the tables change, what an event asks of them still holds. -/
def Before (room : ℕ) (p : Items → Prop) (d : OpenAiResponsesEventDecoder) : Prop := Live room d ∧ p d.items

theorem observeResponseIdentity_spec (resp : Assoc String Json) :
    Leads (Live room) (observeResponseIdentity resp) (Live room) := by
  refine lift_bind fun id _ => get_bind fun d h => failIf_bind fun _ => modify_bind_at
    (lift_bind fun model _ => failIf_bind fun _ => modify_at ?_)
  exact ⟨h.tracks, h.running⟩

theorem ensureResponseStart_spec : Leads (Before (room + 1) p) ensureResponseStart (Before room p) := by
  refine get_bind fun d h => ?_
  split
  · exact pure_at ⟨h.1.mono (by omega), h.2⟩
  next hbeg =>
    refine modify_bind_at (modify_at ⟨⟨?_, h.1.running⟩, h.2⟩)
    have htrk := h.1.tracks.spare
    rw [Bool.not_eq_true _ |>.mp hbeg] at htrk
    exact htrk.starts d.responseId d.model

theorem ensureResponseStart_live : Leads (Live (room + 1)) ensureResponseStart (Live room) :=
  (ensureResponseStart_spec (p := fun _ => True)).weaken (fun _ h => ⟨h, trivial⟩) fun _ _ h => h.1

theorem decodeResponseStart_spec : Leads (Live (room + 1)) (decodeResponseStart object) (Live room) :=
  lift_bind fun resp _ => Triple.bind (observeResponseIdentity_spec resp) fun _ => ensureResponseStart_live

theorem event_spec (hact : kind.blockAction = none) (hk : kind.Inner) :
    Leads (Live (room + 1)) (event kind blockId) (Live room) :=
  Triple.modify fun _ h => h.plain ⟨rfl, rfl, rfl⟩ rfl hact hk

/-! ### Handlers -/

theorem decodeTextDelta_spec :
    Leads (fun d => Live (room + 3) d ∧ d.items.textFits (stringAt object "item_id") = true) (decodeTextDelta object)
      (Live room) := by
  refine lift_bind fun itemId hitem => lift_bind fun delta _ => ?_
  rw [requiredString_eq_ok hitem]
  refine Triple.bind openText_spec fun _ => eventIfText_spec (Triple.modify fun d h => ?_) fun _ h => h.1.mono (by omega)
  exact h.1.continues ⟨rfl, rfl, rfl⟩ (List.Perm.refl _) ⟨rfl, rfl⟩ (fun _ _ => rfl) h.2

/-- The content part of an event is a text. -/
def isTextPart : Bool := ((object.get "part").bind Json.asObject).any fun part => stringAt part "type" = "output_text"

theorem decodeContentPartAdded_spec :
    Leads (fun d => Live (room + 2) d ∧ (!isTextPart object || d.items.textFits (stringAt object "item_id")) = true)
      (decodeContentPartAdded object) (Live room) := by
  refine lift_bind fun part hpart => lift_bind fun kind hk => ?_
  split
  · have htext : isTextPart object = true := by
      simp [isTextPart, orError_eq_ok.1 hpart, requiredString_eq_ok hk]
    refine lift_bind fun itemId hitem => openText_spec.weaken ?_ fun _ _ h => h.1
    intro d h
    rw [← requiredString_eq_ok hitem]
    exact ⟨h.1, by simpa [htext] using h.2⟩
  · exact Triple.pure fun _ h => h.1.mono (by omega)
  · exact Triple.throw _

theorem decodeContentPartDone_spec : Leads (Live (room + 1)) (decodeContentPartDone object) (Live room) := by
  refine lift_bind fun part _ => lift_bind fun kind _ => ?_
  split
  · exact lift_bind fun text _ => eventIfText_spec (event_spec rfl ⟨rfl, rfl⟩) fun _ h => h.mono (by omega)
  · exact lift_bind fun itemId _ => closeText_spec.of_pre (fun _ h => h.mono (by omega))
  · exact Triple.throw _

theorem decodeRefusalDelta_spec : Leads (Live (room + 1)) (decodeRefusalDelta object) (Live room) :=
  lift_bind fun _ _ => eventIfText_spec (event_spec rfl ⟨rfl, rfl⟩) fun _ h => h.mono (by omega)

theorem decodeReasoningPartAdded_spec :
    Leads (fun d => Live (room + 2) d ∧ d.items.reasoningFits (stringAt object "item_id") = true)
      (decodeReasoningPartAdded object) (Live room) := by
  refine lift_bind fun itemId hitem => ?_
  rw [requiredString_eq_ok hitem]
  exact openReasoning_spec.of_post fun _ _ h => h.1

theorem decodeReasoningDelta_spec :
    Leads (fun d => Live (room + 3) d ∧ d.items.reasoningFits (stringAt object "item_id") = true)
      (decodeReasoningDelta object) (Live room) := by
  refine lift_bind fun itemId hitem => lift_bind fun delta _ => ?_
  rw [requiredString_eq_ok hitem]
  refine Triple.bind openReasoning_spec fun _ => eventIfText_spec ?_ fun _ h => h.1.mono (by omega)
  refine Triple.bind (pushSummary_spec delta) fun _ => Triple.modify fun d h => ?_
  exact h.1.continues ⟨rfl, rfl, rfl⟩ (List.Perm.refl _) ⟨rfl, rfl⟩ (fun _ _ => rfl)
    (mem_append_left _ (mem_append_right _ (mem_reasoning_iff.2 h.2)))

theorem closeReasoning_spec :
    Leads (fun d => Live (room + 2) d ∧ d.items.reasoningFits id = true) (closeReasoning id item) (Live room) := by
  refine get_bind fun d h => lift_bind fun summary _ => failIf_bind fun _ =>
    lift_bind fun encryptedContent _ => Triple.bind (openReasoning_spec.of_pre ?_) fun _ =>
    endReasoning_spec _
  rintro _ rfl
  exact h

/-- The kind and the identifier of the item of an event. -/
def itemOf : Assoc String Json := ((object.get "item").bind Json.asObject).getD []

theorem itemObject_eq_ok {object item} (h : itemObject object = .ok item) : itemOf object = item := by
  simp [itemOf, orError_eq_ok.1 h]

/-- The item that is added can open its block. -/
def Items.addedFits : Bool :=
  match stringAt item "type" with
  | "reasoning" => t.reasoningFits (stringAt item "id")
  | "function_call" => t.fresh (stringAt item "call_id")
  | _ => true

theorem decodeOutputItemAdded_spec (input : List UInt8) :
    Leads (fun d => Live (room + 3) d ∧ d.items.addedFits (itemOf object) = true) (decodeOutputItemAdded object input)
      (Live room) := by
  refine lift_bind fun item hitem => lift_bind fun itemId hid => lift_bind fun kind hk => ?_
  have hst : Leads (fun d => Live (room + 3) d ∧ d.items.addedFits (itemOf object) = true) ensureResponseStart
      (Before (room + 2) fun t => t.addedFits (itemOf object) = true) :=
    ensureResponseStart_spec (p := fun t => t.addedFits (itemOf object) = true)
  refine Triple.bind hst fun _ => ?_
  rw [itemObject_eq_ok hitem]
  have hk := requiredString_eq_ok hk
  split
  · exact addTextItem_spec.of_pre (fun _ h => h.1.mono (by omega))
  · refine openReasoning_spec.weaken (fun d h => ⟨h.1, ?_⟩) fun _ _ h => h.1
    have hf := h.2
    simp only [Items.addedFits, hk] at hf
    exact requiredString_eq_ok hid ▸ hf
  · refine (startFunction_spec item).of_pre (fun d h => ⟨h.1, ?_⟩)
    have hf := h.2
    simp only [Items.addedFits, hk] at hf
    exact hf
  · exact (event_spec rfl ⟨rfl, rfl⟩).of_pre (fun _ h => h.1.mono (by omega))

/-- The reasoning of an item that is done is open, or it can be opened. -/
def Items.itemDoneFits : Bool := stringAt item "type" ≠ "reasoning" || t.reasoningFits (stringAt item "id")

theorem decodeOutputItemDone_spec (input : List UInt8) :
    Leads (fun d => Live (room + 2) d ∧ d.items.itemDoneFits (itemOf object) = true) (decodeOutputItemDone object input)
      (Live room) := by
  refine lift_bind fun item hitem => lift_bind fun itemId hid => lift_bind fun kind hk => ?_
  rw [itemObject_eq_ok hitem]
  have hk := requiredString_eq_ok hk
  split
  · exact lift_bind fun _ _ => closeText_spec.of_pre (fun _ h => h.1.mono (by omega))
  · refine (closeReasoning_spec item).of_pre (fun d h => ⟨h.1, ?_⟩)
    have hf : d.items.reasoningFits (stringAt item "id") = true := by simpa [Items.itemDoneFits, hk] using h.2
    exact requiredString_eq_ok hid ▸ hf
  · exact (closeFunction_spec item).of_pre (fun _ h => h.1.mono (by omega))
  · exact (event_spec rfl ⟨rfl, rfl⟩).of_pre (fun _ h => h.1.mono (by omega))

theorem decodeOther_spec (kind : String) (object : Assoc String Json) (input : List UInt8) :
    Leads (Live (room + 2)) (decodeOther kind object input) (Live room) := by
  unfold decodeOther
  split
  · exact lift_bind fun _ _ => Triple.bind ensureResponseStart_live fun _ => event_spec rfl ⟨rfl, rfl⟩
  · exact Triple.throw _

/-! ### The end of the response -/

/-- The identifiers of the open items of a table, whatever their blocks are called. -/
def openKey (entry : String × DecodedFunctionItem) : Option String := if entry.2.isOpen then some entry.1 else none

/-- A loop that closes one open item at a time leaves none open. -/
theorem forM_closes {p : OpenAiResponsesEventDecoder → Prop} {opened : OpenAiResponsesEventDecoder → List String}
    {close : String → Decode Unit} (hclose : ∀ id rest,
      Triple (fun d => p d ∧ (opened d).Perm (id :: rest)) (close id) (fun _ d => p d ∧ (opened d).Perm rest))
    (hp : p d) {ids} (hids : opened d = ids) : Triple (· = d) (ids.forM close) (fun _ d => p d ∧ opened d = []) := by
  refine Triple.weaken (Triple.forM (fun rest d => p d ∧ (opened d).Perm rest) fun id rest _ => hclose id rest) ?_
    fun _ _ h => ⟨h.1, h.2.eq_nil⟩
  rintro _ rfl
  exact ⟨hp, by rw [hids]⟩

theorem closeOpenTexts_spec :
    Triple (Live room) closeOpenTexts (fun _ d => Live room d ∧ d.textItems.collect textBlock = []) := by
  refine get_bind fun d h => forM_closes ?_ h (collect_ite d.textItems (·.2) (·.1))
  refine fun id rest => get_bind fun d ⟨h, hperm⟩ => ?_
  have ho := mem_texts_iff.1 (hperm.symm.subset mem_cons_self)
  rw [if_pos ho]
  obtain ⟨hl, hcl⟩ := h.closeText ho
  exact modify_bind_at (modify_at ⟨hl, (hcl.symm.trans hperm).cons_inv⟩)

theorem closeOpenReasoning_spec :
    Triple (fun d => Live room d ∧ d.textItems.collect textBlock = []) closeOpenReasoning
      (fun _ d => (Live room d ∧ d.textItems.collect textBlock = []) ∧
        d.reasoningItems.collect reasoningItemBlock = []) := by
  refine get_bind fun d h => forM_closes ?_ h (collect_ite d.reasoningItems (·.2.isOpen) (·.1))
  refine fun id rest => get_bind fun d ⟨⟨h, htex⟩, hperm⟩ => ?_
  have ho := mem_reasoning_iff.1 (hperm.symm.subset mem_cons_self)
  obtain ⟨hl, hcl⟩ := h.endReasoning _ ho
  exact modify_bind_at (modify_at ⟨⟨hl, htex⟩, (hcl.symm.trans hperm).cons_inv⟩)

theorem closeOpenFunctions_spec :
    Triple (fun d => (Live room d ∧ d.textItems.collect textBlock = []) ∧
        d.reasoningItems.collect reasoningItemBlock = []) closeOpenFunctions
      (fun _ d => ((Live room d ∧ d.textItems.collect textBlock = []) ∧
        d.reasoningItems.collect reasoningItemBlock = []) ∧ d.functionItems.collect openKey = []) := by
  refine get_bind fun d h => forM_closes ?_ h (collect_ite d.functionItems (·.2.isOpen) (·.1))
  refine fun id rest => get_bind fun d ⟨⟨⟨h, htex⟩, hreas⟩, hperm⟩ => ?_
  obtain ⟨state, hg, ho⟩ := (Option.any_eq_true ..).1 (mem_collect_key.1 (hperm.symm.subset mem_cons_self))
  have hkeys : (d.functionItems.collect openKey).Perm
      (id :: (d.functionItems.insert id { state with isOpen := false }).collect openKey) :=
    collect_insert_less (by rw [hg]; exact if_pos ho) rfl
  rw [hg]
  exact modify_bind_at (modify_at ⟨⟨⟨h.endFunction hg ho rfl, htex⟩, hreas⟩, (hkeys.symm.trans hperm).cons_inv⟩)

theorem calls_eq_nil (h : d.functionItems.collect openKey = []) : d.functionItems.collect callBlock = [] := by
  refine eq_nil_iff_forall_not_mem.2 fun call hcall => ?_
  obtain ⟨key, state, hg, hblk⟩ := mem_collect.1 hcall
  obtain ⟨ho, -⟩ := Option.ite_none_right_eq_some.1 hblk
  have hkey : key ∈ d.functionItems.collect openKey := mem_collect.2 ⟨key, state, hg, if_pos ho⟩
  rw [h] at hkey
  cases hkey

theorem closeAllOpen_spec : Triple (Live room) closeAllOpen (fun _ d => Live room d ∧ d.blocks = []) := by
  refine Triple.bind closeOpenTexts_spec fun _ => Triple.bind closeOpenReasoning_spec fun _ =>
    closeOpenFunctions_spec.of_post ?_
  rintro _ d ⟨⟨⟨h, htex⟩, hreas⟩, hkeys⟩
  exact ⟨h, by simp [blocks, items, Items.blocks, htex, hreas, calls_eq_nil hkeys]⟩

theorem reportUsage_spec (usage : Option Usage) :
    Triple (fun d => Live (room + 1) d ∧ d.blocks = []) (reportUsage usage) (fun _ d => Live room d ∧ d.blocks = []) := by
  unfold reportUsage
  split
  · exact Triple.pure fun _ h => ⟨h.1.mono (by omega), h.2⟩
  · exact Triple.modify fun _ h => ⟨h.1.plain ⟨rfl, rfl, rfl⟩ rfl rfl ⟨rfl, rfl⟩, h.2⟩

/-- After an event: the stream goes on, or it has ended and is valid. -/
def Kept (d : OpenAiResponsesEventDecoder) : Prop := Live 0 d ∨ (d.completed = true ∧ d.out.Valid)

theorem Live.last (h : Live 1 d) (hact : kind.blockAction = none)
    (hk : kind.isResponseStart = false) (hdrn : kind.isCompletion = true → d.blocks = []) :
    (d.out.event kind blockId).Valid := by
  have htrk : d.out.Tracks (0 + 1 + d.blocks.length) d.responseStarted false d.blocks := h.tracks
  exact htrk.spare.valid_event hact hk hdrn

theorem decodeCompleted_spec (incomplete : Bool) : Leads (Live 3) (decodeCompleted object incomplete) Kept := by
  refine lift_bind fun resp _ => Triple.bind (observeResponseIdentity_spec resp) fun _ =>
    Triple.bind ensureResponseStart_live fun _ => Triple.bind closeAllOpen_spec fun _ =>
    lift_bind fun usage _ => get_bind fun d h => lift_bind fun reason _ => ?_
  refine Triple.bind ((reportUsage_spec usage).known h) fun _ => ?_
  refine assuming fun d h => modify_bind_at (modify_at (.inr ⟨rfl, ?_⟩))
  exact h.1.last rfl rfl fun _ => h.2

theorem decodeFailed_spec : Leads (Live 2) (decodeFailed object) Kept := by
  refine lift_bind fun resp _ => Triple.bind (observeResponseIdentity_spec resp) fun _ =>
    lift_bind fun error _ => lift_bind fun msg _ => Triple.bind ensureResponseStart_live fun _ => ?_
  exact assuming fun d h => modify_bind_at (modify_at (.inr ⟨rfl, h.last rfl rfl nofun⟩))

theorem decodeError_spec : Leads (Live 1) (decodeError object) Kept := by
  refine lift_bind fun _ _ => assuming fun d h => modify_bind_at (modify_at (.inr ⟨rfl, ?_⟩))
  exact h.last rfl rfl nofun

/-! ### The stream -/

/-- A block that the event opens has a fresh identifier, and the event does not complete the
arguments of a call that has ended. -/
def Items.fits (kind : String) (object : Assoc String Json) : Bool :=
  match kind with
  | "response.output_item.added" => t.addedFits (itemOf object)
  | "response.content_part.added" => !isTextPart object || t.textFits (stringAt object "item_id")
  | "response.output_text.delta" => t.textFits (stringAt object "item_id")
  | "response.reasoning_summary_part.added" | "response.reasoning_summary_text.delta"
  | "response.reasoning_text.delta" => t.reasoningFits (stringAt object "item_id")
  | "response.function_call_arguments.done" => t.doneFits (stringAt object "item_id") (stringAt object "arguments")
  | "response.output_item.done" => t.itemDoneFits (itemOf object)
  | _ => true

theorem decodeKind_spec (kind : String) (object : Assoc String Json) (input : List UInt8) :
    Leads (fun d => Live 3 d ∧ d.items.fits kind object = true) (decodeKind kind object input) Kept := by
  have hl : ∀ {less : ℕ} {prog : Decode Unit}, less ≤ 3 → Leads (Live less) prog (Live 0) →
      ∀ {q : OpenAiResponsesEventDecoder → Prop}, Leads (fun d => Live 3 d ∧ q d) prog Kept :=
    fun hle h => h.weaken (fun _ hd => hd.1.mono hle) fun _ _ hd => .inl hd
  have hf : ∀ {less : ℕ} {prog : Decode Unit} {q : OpenAiResponsesEventDecoder → Prop}, less ≤ 3 →
      Leads (fun d => Live less d ∧ q d) prog (Live 0) →
      Leads (fun d => Live 3 d ∧ q d) prog Kept :=
    fun hle h => h.weaken (fun _ hd => ⟨hd.1.mono hle, hd.2⟩) fun _ _ hd => .inl hd
  have hskip : ∀ {q : OpenAiResponsesEventDecoder → Prop},
      Leads (fun d => Live 3 d ∧ q d) (pure () : Decode Unit) Kept :=
    Triple.pure fun _ hd => .inl (hd.1.mono (by omega))
  have hend : ∀ {less : ℕ} {prog : Decode Unit} {q : OpenAiResponsesEventDecoder → Prop}, less ≤ 3 →
      Leads (Live less) prog Kept → Leads (fun d => Live 3 d ∧ q d) prog Kept :=
    fun hle h => h.weaken (fun _ hd => hd.1.mono hle) fun _ _ hd => hd
  unfold decodeKind
  split
  · exact hl (by omega) (decodeResponseStart_spec object)
  · exact hl (by omega) (decodeResponseStart_spec object)
  · exact hf le_rfl (decodeOutputItemAdded_spec object input)
  · exact hf (by omega) (decodeContentPartAdded_spec object)
  · exact hf le_rfl (decodeTextDelta_spec object)
  · exact hskip
  · exact hl (by omega) (decodeContentPartDone_spec object)
  · exact hf (by omega) (decodeReasoningPartAdded_spec object)
  · exact hf le_rfl (decodeReasoningDelta_spec object)
  · exact hf le_rfl (decodeReasoningDelta_spec object)
  · exact hskip
  · exact hskip
  · exact hskip
  · exact hl (by omega) (decodeFunctionDelta_spec object)
  · exact hf (by omega) (decodeFunctionDone_spec object)
  · exact hl (by omega) (decodeRefusalDelta_spec object)
  · exact hskip
  · exact hf (by omega) (decodeOutputItemDone_spec object input)
  · exact hend le_rfl (decodeCompleted_spec object false)
  · exact hend le_rfl (decodeCompleted_spec object true)
  · exact hend (by omega) (decodeFailed_spec object)
  · exact hend (by omega) (decodeError_spec object)
  · exact hskip
  · exact hl (by omega) (decodeOther_spec kind object input)

def Input.fits : Input → Bool
  | .done => true
  | .document _ _ value =>
    let object := value.asObject.getD []
    t.fits (stringAt object "type") object

/-- What the event asks of the tables holds, and the counter of the events has room: for every open
block and for three more. -/
def Meets (d : OpenAiResponsesEventDecoder) (input : Input) : Prop :=
  input.fits d.items = true ∧ d.out.nextSequence + (3 + d.blocks.length) ≤ u64Max

instance (d : OpenAiResponsesEventDecoder) (input : Input) : Decidable (Meets d input) :=
  inferInstanceAs (Decidable (_ ∧ _))

theorem Kept.live {input} (h : Kept d) (hmeet : Meets d input) (hrun : d.completed = false) : Live 3 d := by
  rcases h with h | h
  · have htrk : d.out.Tracks 0 d.responseStarted false d.blocks := h.tracks.mono (by omega)
    exact ⟨htrk.raise hmeet.2, h.running⟩
  · rw [hrun] at h
    cases h.1

theorem decodeEvent_spec (input : Input) : Leads (fun d => Kept d ∧ Meets d input) (decodeEvent input) Kept := by
  cases input with
  | done =>
    refine get_bind fun d h => Triple.failIf ?_
    rintro _ rfl
    exact h.1
  | document eventName input =>
    refine get_bind fun d h => failIf_bind fun hrun => lift_bind fun object hobj =>
      lift_bind fun kind hk => failIf_bind fun _ => ?_
    have hf : d.items.fits kind object = true := by
      have := h.2.1
      rwa [Input.fits, orError_eq_ok.1 hobj, Option.getD_some, requiredString_eq_ok hk] at this
    refine (decodeKind_spec kind object input).known ?_
    exact ⟨h.1.live h.2 hrun, hf⟩

/-- Every stream that the decoder accepts is a valid stream of events, if its blocks open under fresh
identifiers and no call gets arguments after its end. -/
theorem decoded_responses_valid (stream : List Input) (hmeets : StepsMeet (after decodeEvent) Meets default stream)
    (d : OpenAiResponsesEventDecoder) (haccepted : stream.forM decodeEvent default = .ok (⟨⟩, d)) : d.out.Valid := by
  have hst : Live 0 default := ⟨Output.tracks_empty (by decide), rfl⟩
  have hkept := Triple.forM_of_stepsMeet decodeEvent_spec stream default ⟨⟩ d ⟨.inl hst, hmeets⟩ haccepted
  rcases hkept with hl | ⟨-, hvld⟩
  · exact hl.tracks.valid
  · exact hvld

/-- An event of the given type. -/
def document (kind : String) (fields : Assoc String Json) : Input :=
  .document (some kind) [] (.object (("type", .string kind) :: fields))

def weatherItem (arguments : String) : Json :=
  .object [("arguments", .string arguments), ("call_id", .string "call"), ("id", .string "item"),
    ("name", .string "weather"), ("type", .string "function_call")]

def weatherEvents : List Input :=
  [document "response.created" [("response", .object [("id", .string "resp"), ("model", .string "gpt")])],
    document "response.reasoning_text.delta" [("delta", .string "A question."), ("item_id", .string "thought")],
    document "response.output_text.delta" [("delta", .string "Hello"), ("item_id", .string "answer")],
    document "response.output_item.added" [("item", weatherItem "")],
    document "response.function_call_arguments.delta" [("delta", .string "\x7b\x7d"), ("item_id", .string "item")],
    document "response.output_item.done" [("item", weatherItem "\x7b\x7d")],
    document "response.completed" [("response", .object [("id", .string "resp")])], .done]

theorem weatherEvents_valid : StepsMeet (after decodeEvent) Meets default weatherEvents ∧
    ∃ d, weatherEvents.forM decodeEvent default = .ok (⟨⟩, d) ∧ d.out.events.length = 11 ∧ d.out.Valid := by
  have hmeet : StepsMeet (after decodeEvent) Meets default weatherEvents := by decide +kernel
  have hcnt : ((weatherEvents.forM decodeEvent default).map fun r => r.2.out.events.length) = .ok 11 := by
    decide +kernel
  obtain ⟨⟨_, d⟩, hacc, hlen⟩ := exists_of_map_eq_ok hcnt
  exact ⟨hmeet, d, hacc, hlen, decoded_responses_valid weatherEvents hmeet d hacc⟩

/-- The arguments of a call that has ended without any are completed late. -/
def lateArguments : List Input :=
  [document "response.output_item.added" [("item", weatherItem "")],
    document "response.output_item.done" [("item", weatherItem "")],
    document "response.function_call_arguments.done" [("arguments", .string "\x7b\x7d"), ("item_id", .string "item")]]

theorem late_arguments_accepted :
    ∃ d, lateArguments.forM decodeEvent default = .ok (⟨⟩, d) ∧
      StreamValidator.default.acceptAll d.out.events = .error (.unknownBlock "call") ∧ ¬d.out.Valid := by
  have href : ((lateArguments.forM decodeEvent default).map
      fun r => StreamValidator.default.acceptAll r.2.out.events) = .ok (.error (.unknownBlock "call")) := by
    decide +kernel
  obtain ⟨⟨_, d⟩, hacc, herr⟩ := exists_of_map_eq_ok href
  exact ⟨d, hacc, herr, Output.not_valid herr⟩

end Pooler.OpenAiResponsesEventDecoder
