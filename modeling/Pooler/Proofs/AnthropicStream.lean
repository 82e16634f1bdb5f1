import Pooler.Sanity.Fields
import Pooler.Sanity.Streams
import Pooler.Spec.Protocol.AnthropicStream

/-! The events that the Anthropic decoder returns form a valid stream, as long as the provider opens
every block under an identifier of its own, completes the message when its blocks are closed, and
sends nothing that becomes an event after that. -/

namespace Pooler.AnthropicEventDecoder

open Lib AnthropicStream OrderedMap Option Output List
open Triple (lift_bind failIf_bind get_bind modify_at modify_bind_at pure_at assuming)
open OpenAiChat (orError_eq_ok)

/-! ### The open blocks -/

/-- The identifier under which a block is open; a block of an unknown kind is not. -/
def openId : ℕ × DecodedBlock → Option String
  | (_, .text id) | (_, .reasoning id _ _ _) | (_, .tool id) => some id
  | (_, .opaqueBlock) => none

def openIds (d : AnthropicEventDecoder) : List String := d.blocks.collect openId

/-- Before the end of the message, with room to number more events. -/
structure Live (room : ℕ) (d : AnthropicEventDecoder) : Prop where
  tracks : d.out.ahead.Tracks room d.responseStarted false d.openIds
  running : d.terminal = false
  unfinished : d.completionSeen = false

variable {d d' : AnthropicEventDecoder} {room : ℕ} {kind : StreamEventKind} {id : String} {index : ℕ}
  {block : DecodedBlock}

theorem Live.mono {less : ℕ} (h : Live room d) (hle : less ≤ room) : Live less d :=
  ⟨h.tracks.mono hle, h.running, h.unfinished⟩

/-! ### One event -/

/-- The decoder emitted one event and changed at most its table of blocks. -/
structure Emits (kind : StreamEventKind) (blockId : Option String) (d d' : AnthropicEventDecoder) : Prop where
  out : d'.out = d.out.numbered kind blockId
  started : d'.responseStarted = d.responseStarted
  completionSeen : d'.completionSeen = d.completionSeen
  terminal : d'.terminal = d.terminal

section

variable (h : Live (room + 1) d)
include h

variable {blockId : Option String}

theorem Live.emits (hemit : Emits kind blockId d d')
    (htrk : (d.out.ahead.event kind blockId).Tracks room d.responseStarted false d'.openIds) : Live room d' := by
  refine ⟨?_, hemit.terminal ▸ h.running, hemit.completionSeen ▸ h.unfinished⟩
  rw [hemit.out, hemit.started, h.tracks.ahead_numbered]
  exact htrk

theorem Live.plain (hemit : Emits kind blockId d d')
    (hblks : d.openIds.Perm d'.openIds) (hact : kind.blockAction = none) (hk : kind.Inner) : Live room d' :=
  h.emits hemit ((h.tracks.quiet hact hk).perm hblks)

theorem Live.opens (hemit : Emits kind blockId d d') (hblks : d'.openIds.Perm (id :: d.openIds)) (hk : kind.Inner)
    (hact : kind.Opens blockId id) (hfr : id ≠ "" ∧ id ∉ d.openIds) : Live room d' :=
  h.emits hemit ((h.tracks.opens hk hact hfr.1 hfr.2).perm hblks.symm)

theorem Live.continues (hemit : Emits kind blockId d d') (hblks : d.openIds.Perm d'.openIds) (hk : kind.Inner)
    (hact : kind.Continues blockId id) (ho : id ∈ d.openIds) : Live room d' :=
  h.emits hemit ((h.tracks.continues hk hact ho).perm hblks)

theorem Live.closes (hemit : Emits kind blockId d d') (hblks : d.openIds.Perm (id :: d'.openIds)) (hk : kind.Inner)
    (hact : kind.Closes blockId id) : Live room d' :=
  h.emits hemit ((h.tracks.perm hblks).closes hk hact)

end

/-! ### The table of blocks -/

theorem openIds_insert_new (hw : d.blocks.contains index = false) (hid : openId (index, block) = some id) :
    (d.blocks.insert index block).collect openId |>.Perm (id :: d.openIds) := by
  refine collect_insert_more ?_ hid
  rw [OrderedMap.contains, isSome_eq_false_iff, isNone_iff_eq_none] at hw
  rw [hw]
  rfl

theorem openIds_insert_hidden (hw : d.blocks.contains index = false) :
    (d.blocks.insert index .opaqueBlock).collect openId |>.Perm d.openIds := by
  refine collect_insert_same ?_
  rw [OrderedMap.contains, isSome_eq_false_iff, isNone_iff_eq_none] at hw
  rw [hw]
  rfl

theorem openIds_insert_reasoning {text text' signature signature' encrypted encrypted'}
    (h : d.blocks.get index = some (.reasoning id text signature encrypted)) :
    (d.blocks.insert index (.reasoning id text' signature' encrypted')).collect openId |>.Perm d.openIds := by
  refine collect_insert_same ?_
  rw [h]
  rfl

theorem mem_openIds (h : d.blocks.get index = some block) (hid : openId (index, block) = some id) : id ∈ d.openIds :=
  mem_collect.2 ⟨index, block, h, hid⟩

theorem openIds_erase (h : d.blocks.get index = some block) :
    d.openIds.Perm ((openId (index, block)).toList ++ (d.blocks.erase index).collect openId) := by
  have hperm := perm_collect d.blocks index openId
  rw [h] at hperm
  exact hperm

/-! ### Steps that only fail or read -/

theorem requiredString_some {object key field text}
    (h : requiredString object key field = .ok text) : (object.get key).bind Json.asStr = some text := by
  obtain ⟨value, hval, htext⟩ := bind_eq_ok.1 h
  cases hg : object.get key with
  | none =>
    rw [hg] at hval
    cases hval
  | some =>
    rw [hg] at hval
    cases hval
    exact orError_eq_ok.1 htext

theorem requiredIndex_some {object field} {n : ℕ} (h : requiredIndex object field = .ok n) :
    ∃ index, (object.get "index").bind Json.asU64 = some index ∧ n = index.toNat := by
  obtain ⟨value, hval, hr⟩ := bind_eq_ok.1 h
  obtain ⟨index, hidx, hn⟩ := bind_eq_ok.1 hr
  cases hg : object.get "index" with
  | none =>
    rw [hg] at hval
    cases hval
  | some =>
    rw [hg] at hval
    cases hval
    exact ⟨index, orError_eq_ok.1 hidx, (Except.ok.inj hn).symm⟩

theorem mergeUsageOf_spec {p} (object : Assoc String Json) (field : String)
    (h : ∀ d usage, p d → p { d with usage }) : Leads p (mergeUsageOf object field) p := by
  unfold mergeUsageOf
  split
  · exact Triple.pure fun _ hp => hp
  · exact get_bind fun d hp => lift_bind fun usage _ => modify_at (h d usage hp)

theorem Live.withUsage (h : Live room d) (usage : Usage) : Live room { d with usage } :=
  ⟨h.tracks, h.running, h.unfinished⟩

/-! ### The start of the message -/

theorem reportUsage_spec : Leads (Live (room + 1)) reportUsage (Live room) :=
  get_bind fun _ h => modify_at (h.plain ⟨rfl, rfl, rfl, rfl⟩ (Perm.refl _) rfl ⟨rfl, rfl⟩)

theorem usageIfAny_spec : Leads (Live (room + 1)) usageIfAny (Live room) := by
  refine get_bind fun d h => ?_
  split
  · exact reportUsage_spec.known h
  · exact pure_at (h.mono (by omega))

theorem decodeMessageStart_spec (object : Assoc String Json) :
    Leads (Live (room + 2)) (decodeMessageStart object) (Live room) := by
  refine get_bind fun d h => failIf_bind fun hfst => lift_bind fun msg _ =>
    lift_bind fun responseId _ => lift_bind fun model _ => ?_
  have hmrg := mergeUsageOf_spec (p := fun d => Live (room + 2) d ∧ d.responseStarted = false) msg
    "message_start.message.usage" fun d usage hd => ⟨hd.1.withUsage usage, hd.2⟩
  refine Triple.bind (hmrg.known ⟨h, hfst⟩) fun _ => ?_
  refine assuming fun d ⟨h, hfst⟩ => modify_bind_at (modify_bind_at ?_)
  refine usageIfAny_spec.known ?_
  refine ⟨?_, h.running, h.unfinished⟩
  have htrk := h.tracks
  rw [hfst] at htrk
  show (d.out.numbered (.responseStart responseId model) none).ahead.Tracks (room + 1) true false d.openIds
  rw [htrk.ahead_numbered]
  exact htrk.plain rfl fun _ => rfl

/-! ### Content blocks -/

section
variable {toText : Json → String} {object delta : Assoc String Json} {raw : Json}

theorem opaqueEvent_spec : Leads (Live (room + 1)) (opaqueEvent toText raw) (Live room) :=
  Triple.modify fun _ h => h.plain ⟨rfl, rfl, rfl, rfl⟩ (List.Perm.refl _) rfl ⟨rfl, rfl⟩

theorem Live.enters {blockId} (h : Live (room + 1) d) (hw : d.blocks.contains index = false)
    (hid : openId (index, block) = some id) (hk : kind.Inner)
    (hact : kind.Opens blockId id) (hfr : id ≠ "" ∧ id ∉ d.openIds) :
    Live room { d with blocks := d.blocks.insert index block, out := d.out.numbered kind blockId } ∧
      id ∈ openIds { d with blocks := d.blocks.insert index block, out := d.out.numbered kind blockId } := by
  have hblks := openIds_insert_new hw hid
  exact ⟨h.opens ⟨rfl, rfl, rfl, rfl⟩ hblks hk hact hfr, hblks.symm.subset mem_cons_self⟩

theorem firstDelta_spec {text blockId} (h : Live (room + 1) d ∧ id ∈ d.openIds)
    (hk : kind.Inner) (hact : kind.Continues blockId id) :
    Leads (fun s => s = d) (eventIfText text (event kind blockId)) (Live room) := by
  refine eventIfText_spec (modify_at ?_) ?_
  · exact h.1.continues ⟨rfl, rfl, rfl, rfl⟩ (Perm.refl _) hk hact h.2
  · rintro _ rfl
    exact h.1.mono (by omega)

theorem startText_spec (h : Live (room + 2) d) (hw : d.blocks.contains index = false)
    (hfr : blockId "text" index ≠ "" ∧ blockId "text" index ∉ d.openIds) :
    Leads (fun s => s = d) (startText index object) (Live room) :=
  modify_bind_at (modify_bind_at (lift_bind fun _ _ =>
    firstDelta_spec (h.enters hw rfl ⟨rfl, rfl⟩ (fun _ _ => rfl) hfr) ⟨rfl, rfl⟩ fun _ _ => rfl))

theorem startReasoning_spec (h : Live (room + 2) d) (hw : d.blocks.contains index = false)
    (hfr : blockId "thinking" index ≠ "" ∧ blockId "thinking" index ∉ d.openIds) :
    Leads (fun s => s = d) (startReasoning index object) (Live room) :=
  lift_bind fun _ _ => lift_bind fun _ _ => lift_bind fun _ _ =>
    modify_bind_at (modify_bind_at
      (firstDelta_spec (h.enters hw rfl ⟨rfl, rfl⟩ (fun _ _ => rfl) hfr) ⟨rfl, rfl⟩ fun _ _ => rfl))

theorem startTool_spec (h : Live (room + 2) d) (hw : d.blocks.contains index = false)
    (hfr : ∀ id, (object.get "id").bind Json.asStr = some id → id ≠ "" ∧ id ∉ d.openIds) :
    Leads (fun s => s = d) (startTool toText index object) (Live room) := by
  refine lift_bind fun id hid => lift_bind fun name _ => modify_bind_at (modify_bind_at ?_)
  let started : AnthropicEventDecoder := { d with
    blocks := d.blocks.insert index (.tool id), out := d.out.numbered (.toolCallStart id name) none }
  have hopn : Live (room + 1) started ∧ id ∈ started.openIds :=
    h.enters hw rfl ⟨rfl, rfl⟩ (fun _ _ => rfl) (hfr id (requiredString_some hid))
  split
  · exact pure_at (hopn.1.mono (by omega))
  · exact modify_at (hopn.1.continues ⟨rfl, rfl, rfl, rfl⟩ (Perm.refl _) ⟨rfl, rfl⟩ (fun _ _ => rfl) hopn.2)

theorem startOpaque_spec (h : Live (room + 2) d) (hw : d.blocks.contains index = false) :
    Leads (fun s => s = d) (startOpaque toText index object) (Live room) := by
  refine modify_bind_at (opaqueEvent_spec.known ?_)
  have htrk : d.out.ahead.Tracks (room + 1) d.responseStarted false d.openIds := h.tracks.mono (by omega)
  exact ⟨htrk.perm (openIds_insert_hidden hw).symm, h.running, h.unfinished⟩

/-- The identifier of the block that an event of the kind `content_block_start` opens. -/
def opened (object : Assoc String Json) : Option String :=
  match (object.get "index").bind Json.asU64, (object.get "content_block").bind Json.asObject with
  | some index, some block =>
    match (block.get "type").bind Json.asStr with
    | some "text" => some (blockId "text" index.toNat)
    | some "thinking" | some "redacted_thinking" => some (blockId "thinking" index.toNat)
    | some "tool_use" => (block.get "id").bind Json.asStr
    | _ => none
  | _, _ => none

theorem decodeBlockStart_spec :
    Leads (fun d => Live (room + 2) d ∧ ∀ id, opened object = some id → id ≠ "" ∧ id ∉ d.openIds)
      (decodeBlockStart toText object) (Live room) := by
  refine lift_bind fun index hidx => get_bind fun d ⟨h, hfr⟩ => failIf_bind fun hw =>
    lift_bind fun block hblk => lift_bind fun kind hk => ?_
  obtain ⟨n, hn, rfl⟩ := requiredIndex_some hidx
  simp only [opened, hn, orError_eq_ok.1 hblk, requiredString_some hk] at hfr
  split
  · exact startText_spec h hw (hfr _ rfl)
  · exact startReasoning_spec h hw (hfr _ rfl)
  · exact startReasoning_spec h hw (hfr _ rfl)
  · exact startTool_spec h hw hfr
  · exact startOpaque_spec h hw

theorem decodeBlockDelta_spec : Leads (Live (room + 1)) (decodeBlockDelta toText object raw) (Live room) := by
  refine lift_bind fun index _ => lift_bind fun delta _ => lift_bind fun kind _ => get_bind fun d h => ?_
  have hopaq : Leads (fun s => s = d) (opaqueEvent toText raw) (Live room) := opaqueEvent_spec.known h
  split
  next id hblk _ =>
    exact lift_bind fun _ _ => modify_at (h.continues ⟨rfl, rfl, rfl, rfl⟩ (Perm.refl _) ⟨rfl, rfl⟩
      (fun _ _ => rfl) (mem_openIds hblk rfl))
  next id text signature encrypted hblk _ =>
    exact lift_bind fun _ _ => modify_bind_at (modify_at (h.continues ⟨rfl, rfl, rfl, rfl⟩
      (openIds_insert_reasoning hblk).symm ⟨rfl, rfl⟩ (fun _ _ => rfl) (mem_openIds hblk rfl)))
  next id text signature encrypted hblk _ =>
    refine lift_bind fun _ _ => modify_at ⟨?_, h.running, h.unfinished⟩
    exact (h.tracks.mono (by omega)).perm (openIds_insert_reasoning hblk).symm
  next hblk _ =>
    exact lift_bind fun _ _ => modify_at (h.continues ⟨rfl, rfl, rfl, rfl⟩ (Perm.refl _) ⟨rfl, rfl⟩
      (fun _ _ => rfl) (mem_openIds hblk rfl))
  · exact hopaq
  · exact hopaq
  · exact Triple.throw _
  · exact Triple.throw _

theorem decodeBlockStop_spec : Leads (Live (room + 1)) (decodeBlockStop toText object) (Live room) := by
  refine lift_bind fun index _ => get_bind fun d h => lift_bind fun block hblk => modify_bind_at ?_
  have hperm := openIds_erase (orError_eq_ok.1 hblk)
  cases block with
  | text => exact modify_at (h.closes ⟨rfl, rfl, rfl, rfl⟩ hperm ⟨rfl, rfl⟩ fun _ _ => rfl)
  | reasoning => exact modify_at (h.closes ⟨rfl, rfl, rfl, rfl⟩ hperm ⟨rfl, rfl⟩ fun _ _ => rfl)
  | tool => exact modify_at (h.closes ⟨rfl, rfl, rfl, rfl⟩ hperm ⟨rfl, rfl⟩ fun _ _ => rfl)
  | opaqueBlock => exact modify_at (h.plain ⟨rfl, rfl, rfl, rfl⟩ hperm rfl ⟨rfl, rfl⟩)

/-! ### The end of the message -/

/-- Either the message goes on, or its last event has been emitted. -/
def Kept (d : AnthropicEventDecoder) : Prop := Live 0 d ∨ ((d.completionSeen = true ∨ d.terminal = true) ∧ d.out.Valid)

theorem Live.ends (h : Live (room + 1) d) (hact : kind.blockAction = none) (hst : kind.isResponseStart = false)
    (hdrn : kind.isCompletion = true → d.openIds = []) : (d.out.numbered kind none).Valid := by
  apply valid_of_ahead
  rw [h.tracks.ahead_numbered]
  exact h.tracks.valid_event hact hst hdrn

theorem decodeMessageDelta_spec (room : ℕ) :
    Leads (fun d => Live (room + 1) d ∧ ((stopReason object).isSome = true → d.openIds = []))
      (decodeMessageDelta object) Kept := by
  refine Triple.bind (mergeUsageOf_spec object _ fun d usage h => ⟨h.1.withUsage usage, h.2⟩) fun _ => ?_
  cases hreas : stopReason object with
  | some =>
    refine lift_bind fun text _ => assuming fun d ⟨h, hdrn⟩ =>
      modify_bind_at (Triple.get_bind_at (modify_at (.inr ⟨.inl rfl, ?_⟩)))
    exact h.ends rfl rfl fun _ => hdrn rfl
  | none =>
    dsimp only
    split
    · exact reportUsage_spec.weaken (fun _ h => h.1) fun _ _ h => .inl (h.mono (Nat.zero_le _))
    · exact Triple.pure fun _ h => .inl (h.1.mono (Nat.zero_le _))

theorem decodeMessageStop_spec : Leads (Live (room + 1)) decodeMessageStop Kept := by
  refine get_bind fun d h => failIf_bind fun hemp => modify_bind_at ?_
  have hdrn : d.openIds = [] := by
    have hents : d.blocks.entries = [] := by simpa using hemp
    simp [openIds, OrderedMap.collect, hents]
  rw [h.unfinished]
  exact Triple.get_bind_at (modify_at (.inr ⟨.inr rfl, h.ends rfl rfl fun _ => hdrn⟩))

theorem decodeError_spec : Leads (Live (room + 1)) (decodeError object) Kept :=
  lift_bind fun _ _ => lift_bind fun _ _ => lift_bind fun _ _ => assuming fun _ h =>
    modify_bind_at (modify_at (.inr ⟨.inr rfl, h.ends rfl rfl nofun⟩))

/-- An event that becomes none, also after the message is complete. -/
def quiet (kind : String) (object : Assoc String Json) : Bool :=
  kind = "ping" || kind = "message_stop" ||
    (kind = "message_delta" && (stopReason object).isNone && !object.contains "usage")

theorem quiet_spec {kind} (hqui : quiet kind object = true) :
    Leads (fun d => d.completionSeen = true ∧ d.out.Valid) (decodeValue toText kind object raw) Kept := by
  simp only [quiet, Bool.or_eq_true, Bool.and_eq_true, decide_eq_true_eq] at hqui
  rcases hqui with (rfl | rfl) | ⟨⟨rfl, hreas⟩, husage⟩
  · exact Triple.pure fun _ h => .inr ⟨.inl h.1, h.2⟩
  · refine get_bind fun d h => failIf_bind fun _ => modify_bind_at ?_
    rw [h.1]
    exact pure_at (.inr ⟨.inr rfl, h.2⟩)
  · have hnone : object.get "usage" = none := by simpa [Assoc.contains] using husage
    have hno : stopReason object = none := by simpa using hreas
    have hskip : decodeValue toText "message_delta" object raw = (pure () >>= fun _ => pure ()) := by
      simp [decodeValue, decodeMessageDelta, mergeUsageOf, hnone, hno, Assoc.contains]
    rw [hskip]
    exact Triple.pure fun _ h => .inr ⟨.inl h.1, h.2⟩

/-! ### The stream -/

/-- After the completion only what becomes no event; before it, blocks that open have an identifier
of their own and the completion comes when all are closed. -/
def fits (d : AnthropicEventDecoder) (kind : String) (object : Assoc String Json) : Bool :=
  if d.completionSeen then quiet kind object
  else match kind with
  | "content_block_start" => (opened object).all (fun id => id ≠ "" && !d.openIds.contains id)
  | "message_delta" => (stopReason object).isNone || d.openIds.isEmpty
  | _ => true

theorem decodeValue_spec {kind} (h : Live 2 d) (hf : fits d kind object = true) :
    Leads (fun s => s = d) (decodeValue toText kind object raw) Kept := by
  have hl : ∀ {prog : Decode Unit}, Leads (Live 2) prog (Live 0) →
      Leads (fun s => s = d) prog Kept := fun hprog =>
    hprog.weaken (by rintro _ rfl; exact h) fun _ _ h => .inl h
  have hkept : ∀ {prog : Decode Unit}, Leads (Live 1) prog Kept →
      Leads (fun s => s = d) prog Kept := fun hprog =>
    hprog.known (h.mono (by omega))
  simp only [fits, h.unfinished, Bool.false_eq_true, if_false] at hf
  unfold decodeValue
  split
  · exact hl (decodeMessageStart_spec object)
  · have hfr : ∀ id, opened object = some id → id ≠ "" ∧ id ∉ d.openIds := by
      intro id hid
      simpa [hid] using hf
    exact decodeBlockStart_spec.weaken (by rintro _ rfl; exact ⟨h, hfr⟩) fun _ _ h => .inl h
  · exact hl (decodeBlockDelta_spec.of_pre (fun _ h => h.mono (by omega)))
  · exact hl (decodeBlockStop_spec.of_pre (fun _ h => h.mono (by omega)))
  · have hdrn : (stopReason object).isSome = true → d.openIds = [] := by
      intro hsome
      rcases Bool.or_eq_true_iff.1 hf with hnone | hemp
      · rw [← not_isSome, hsome] at hnone
        cases hnone
      · simpa using hemp
    exact (decodeMessageDelta_spec 0).known ⟨h.mono (by omega), hdrn⟩
  · exact hkept decodeMessageStop_spec
  · exact hkept decodeError_spec
  · exact hl (Triple.pure fun _ h => h.mono (by omega))
  · exact hl (opaqueEvent_spec.of_pre (fun _ h => h.mono (by omega)))

def Record.documentType (record : Record) : Option String := (record.data.asObject.bind (·.get "type")).bind Json.asStr

/-- The event fits the state of the decoder, and two more events can be numbered. -/
def Meets (d : AnthropicEventDecoder) (record : Record) : Prop :=
  d.fits (record.documentType.getD "") (record.data.asObject.getD []) = true ∧ d.out.nextSequence + 2 ≤ u64Max

instance (d : AnthropicEventDecoder) (record : Record) : Decidable (Meets d record) :=
  inferInstanceAs (Decidable (_ ∧ _))

theorem decodeSseEvent_spec (toText : Json → String) (rec : Record) :
    Leads (fun d => Kept d ∧ Meets d rec) (decodeSseEvent toText rec) Kept := by
  refine get_bind fun d ⟨hkept, hf, hrm⟩ => failIf_bind fun hrun =>
    lift_bind fun object hobj => lift_bind fun kind hk => lift_bind fun _ _ => ?_
  have hdata : rec.data.asObject = some object := orError_eq_ok.1 hobj
  have htype : rec.documentType = some kind := by
    rw [Record.documentType, hdata]
    exact requiredString_some hk
  rw [hdata, htype, getD_some, getD_some] at hf
  rcases hkept with hl | ⟨hdone | hdone, hvld⟩
  · exact decodeValue_spec ⟨hl.tracks.raise hrm, hl.running, hl.unfinished⟩ hf
  · unfold fits at hf
    rw [if_pos hdone] at hf
    exact (quiet_spec hf).known ⟨hdone, hvld⟩
  · rw [hrun] at hdone
    cases hdone

end

/-- Every stream that the decoder accepts is a valid stream of events, if its blocks open under fresh
identifiers, the completion comes after they are closed, and nothing follows that becomes an event. -/
theorem decoded_messages_valid (toText : Json → String) (stream : List Record)
    (hmeets : StepsMeet (after (decodeSseEvent toText)) Meets default stream) (d : AnthropicEventDecoder)
    (haccepted : stream.forM (decodeSseEvent toText) default = .ok (⟨⟩, d)) : d.out.Valid := by
  have hst : Live 0 default := ⟨tracks_empty (by decide), rfl, rfl⟩
  have hkept := Triple.forM_of_stepsMeet (decodeSseEvent_spec toText) stream default ⟨⟩ d ⟨.inl hst, hmeets⟩ haccepted
  rcases hkept with hl | ⟨-, hvld⟩
  · exact valid_of_ahead hl.tracks.valid
  · exact hvld

/-- An event of the given type. -/
def document (kind : String) (fields : Assoc String Json) : Record :=
  ⟨some kind, .object (("type", .string kind) :: fields)⟩

def startedBlock (index : UInt64) (block : Assoc String Json) : Record :=
  document "content_block_start" [("content_block", .object block), ("index", .number (.posInt index))]

def continuedBlock (index : UInt64) (delta : Assoc String Json) : Record :=
  document "content_block_delta" [("delta", .object delta), ("index", .number (.posInt index))]

def stoppedBlock (index : UInt64) : Record := document "content_block_stop" [("index", .number (.posInt index))]

def stoppedMessage (reason : String) : Record :=
  document "message_delta" [("delta", .object [("stop_reason", .string reason)])]

def weatherMessage : List Record :=
  [document "message_start" [("message", .object [("id", .string "msg"), ("model", .string "claude"),
      ("usage", .object [("input_tokens", .number (.posInt 9))])])],
    startedBlock 0 [("thinking", .string ""), ("type", .string "thinking")],
    continuedBlock 0 [("thinking", .string "A question."), ("type", .string "thinking_delta")],
    continuedBlock 0 [("signature", .string "signed"), ("type", .string "signature_delta")], stoppedBlock 0,
    startedBlock 1 [("text", .string "Hello"), ("type", .string "text")], stoppedBlock 1,
    startedBlock 2 [("id", .string "call"), ("input", .object []), ("name", .string "weather"),
      ("type", .string "tool_use")],
    continuedBlock 2 [("partial_json", .string "\x7b\x7d"), ("type", .string "input_json_delta")], stoppedBlock 2,
    stoppedMessage "tool_use", document "ping" [], document "message_stop" []]

def noText : Json → String := fun _ => ""

theorem weatherMessage_valid : StepsMeet (after (decodeSseEvent noText)) Meets default weatherMessage ∧
    ∃ d, weatherMessage.forM (decodeSseEvent noText) default = .ok (⟨⟩, d) ∧ d.out.events.length = 12 ∧
      d.out.Valid := by
  have hmeet : StepsMeet (after (decodeSseEvent noText)) Meets default weatherMessage := by decide +kernel
  have hcnt : ((weatherMessage.forM (decodeSseEvent noText) default).map fun r => r.2.out.events.length) =
      .ok 12 := by
    decide +kernel
  obtain ⟨⟨_, d⟩, hacc, hlen⟩ := exists_of_map_eq_ok hcnt
  exact ⟨hmeet, d, hacc, hlen, decoded_messages_valid noText weatherMessage hmeet d hacc⟩

/-- A message that is stopped twice. -/
def twiceStopped : List Record := [document "message_start" [("message", .object [])], stoppedMessage "end_turn",
  stoppedMessage "end_turn"]

theorem second_stop_reason_accepted :
    ∃ d, twiceStopped.forM (decodeSseEvent noText) default = .ok (⟨⟩, d) ∧
      StreamValidator.default.acceptAll d.out.events = .error .afterTerminal ∧ ¬d.out.Valid := by
  have href : ((twiceStopped.forM (decodeSseEvent noText) default).map
      fun r => StreamValidator.default.acceptAll r.2.out.events) = .ok (.error .afterTerminal) := by
    decide +kernel
  obtain ⟨⟨_, d⟩, hacc, herr⟩ := exists_of_map_eq_ok href
  exact ⟨d, hacc, herr, not_valid herr⟩

end Pooler.AnthropicEventDecoder
