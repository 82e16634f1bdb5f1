import Pooler.Sanity.Fields
import Pooler.Sanity.Streams
import Pooler.Spec.Protocol.ChatStream

/-! The events that the Chat decoder returns form a valid stream, as long as the identifiers that the
provider chooses for its tool calls do not collide with blocks that are open. -/

namespace Pooler.OpenAiChatEventDecoder

open Lib OpenAiChat List
open Triple (lift_bind failIf_bind get_bind modify_at modify_bind_at pure_at assuming)

variable {d : OpenAiChatEventDecoder} {room : ℕ} {p : OrderedMap ℕ String → Prop}

def toolIds (d : OpenAiChatEventDecoder) : List String := d.tools.entries.map (·.2)

def blocks (d : OpenAiChatEventDecoder) : List String :=
  (if d.reasoningOpen then [reasoningBlockId] else []) ++ (if d.textOpen then [textBlockId] else []) ++ d.toolIds

/-- Before the end of the stream. Room is kept to close every open block. -/
structure Live (room : ℕ) (d : OpenAiChatEventDecoder) : Prop where
  tracks : d.out.Tracks (room + d.blocks.length) d.responseStarted false d.blocks
  running : d.completed = false
  reserved : ∀ id ∈ d.toolIds, id ≠ textBlockId ∧ id ≠ reasoningBlockId
  drained : d.pendingFinish.isSome = true → d.blocks = []

/-- Within a choice: no finish reason was seen, and the table of tool calls is as it should be. -/
structure Choosing (room : ℕ) (p : OrderedMap ℕ String → Prop) (d : OpenAiChatEventDecoder) : Prop extends
    Live room d where
  unfinished : d.pendingFinish = none
  table : p d.tools

theorem Live.mono {less : ℕ} (h : Live room d) (hle : less ≤ room) : Live less d :=
  ⟨h.tracks.mono (by omega), h.running, h.reserved, h.drained⟩

theorem Choosing.mono {less : ℕ} (h : Choosing room p d) (hle : less ≤ room) : Choosing less p d :=
  ⟨h.toLive.mono hle, h.unfinished, h.table⟩

/-! ### Events -/

variable {kind : StreamEventKind}

theorem Live.plain (h : Live (room + 1) d) (hk : kind.blockAction = none)
    (hqui : kind.Inner) : Live room { d with out := d.out.event kind none } :=
  ⟨h.tracks.spare.quiet hk hqui, h.running, h.reserved, h.drained⟩

theorem Choosing.delta {id} (h : Choosing (room + 1) p d) (ho : id ∈ d.blocks)
    (hk : kind.Inner) (hact : kind.Continues (some id) id) :
    Choosing room p { d with out := d.out.event kind (some id) } :=
  ⟨⟨h.tracks.spare.continues hk hact ho, h.running, h.reserved, h.drained⟩, h.unfinished, h.table⟩

theorem textBlockId_not_mem (h : Live room d) (hcl : d.textOpen = false) : textBlockId ∉ d.blocks := by
  intro hm
  simp only [blocks, hcl, Bool.false_eq_true, if_false, append_nil, mem_append] at hm
  rcases hm with hm | hm
  · split at hm
    · exact absurd (mem_singleton.1 hm) (by decide +kernel)
    · cases hm
  · exact (h.reserved _ hm).1 rfl

theorem reasoningBlockId_not_mem (h : Live room d) (hcl : d.reasoningOpen = false) : reasoningBlockId ∉ d.blocks := by
  intro hm
  simp only [blocks, hcl, Bool.false_eq_true, if_false, nil_append, mem_append] at hm
  rcases hm with hm | hm
  · split at hm
    · exact absurd (mem_singleton.1 hm) (by decide +kernel)
    · cases hm
  · exact (h.reserved _ hm).2 rfl

theorem choosing (htrk : d.out.Tracks (room + d.blocks.length) d.responseStarted false d.blocks)
    (hrun : d.completed = false) (hres : ∀ id ∈ d.toolIds, id ≠ textBlockId ∧ id ≠ reasoningBlockId)
    (hunf : d.pendingFinish = none) (htab : p d.tools) : Choosing room p d :=
  ⟨⟨htrk, hrun, hres, fun h => by rw [hunf] at h; cases h⟩, hunf, htab⟩

theorem openReasoning_spec : Triple (Choosing (room + 2) p) openReasoning
    (fun _ d => Choosing room p d ∧ reasoningBlockId ∈ d.blocks) := by
  refine get_bind fun d h => ?_
  split
  next ho => exact pure_at ⟨h.mono (by omega), by simp [blocks, ho]⟩
  next ho =>
    rw [Bool.not_eq_true] at ho
    refine modify_bind_at (modify_at ?_)
    have hblks : blocks { d with out := d.out.event .reasoningStart reasoningBlockId, reasoningOpen := true } =
        reasoningBlockId :: d.blocks := by simp [blocks, toolIds, ho]
    refine ⟨choosing ?_ h.running h.reserved h.unfinished h.table, by rw [hblks]; exact mem_cons_self⟩
    exact h.tracks.opens_spare ⟨rfl, rfl⟩ (fun _ _ => rfl) (by decide +kernel)
      (reasoningBlockId_not_mem h.toLive ho) (List.Perm.of_eq hblks)

theorem openText_spec : Triple (Choosing (room + 2) p) openText (fun _ d => Choosing room p d ∧ textBlockId ∈ d.blocks) := by
  refine get_bind fun d h => ?_
  split
  next ho => exact pure_at ⟨h.mono (by omega), by simp [blocks, ho]⟩
  next ho =>
    rw [Bool.not_eq_true] at ho
    refine modify_bind_at (modify_at ?_)
    have hblks : (textBlockId :: d.blocks).Perm
        (blocks { d with out := d.out.event .textStart textBlockId, textOpen := true }) := by
      simpa [blocks, toolIds, ho] using perm_middle.symm
    refine ⟨choosing ?_ h.running h.reserved h.unfinished h.table, hblks.subset mem_cons_self⟩
    exact h.tracks.opens_spare ⟨rfl, rfl⟩ (fun _ _ => rfl) (by decide +kernel) (textBlockId_not_mem h.toLive ho)
      hblks.symm

theorem closeReasoning_spec : Triple (Choosing room p) closeReasoning
    (fun _ d => Choosing room p d ∧ d.reasoningOpen = false) := by
  refine get_bind fun d h => ?_
  split
  next ho =>
    refine modify_bind_at (modify_at ?_)
    have hp : d.blocks.Perm (reasoningBlockId ::
        blocks { d with out := d.out.event (.reasoningEnd none) reasoningBlockId, reasoningOpen := false }) := by
      simp [blocks, toolIds, ho]
    exact ⟨choosing (h.tracks.closes_spare ⟨rfl, rfl⟩ (fun _ _ => rfl) hp) h.running h.reserved h.unfinished h.table, rfl⟩
  next ho => exact pure_at ⟨h, by simpa using ho⟩

theorem closeText_spec : Triple (fun d => Choosing room p d ∧ d.reasoningOpen = false) closeText
    (fun _ d => Choosing room p d ∧ d.reasoningOpen = false ∧ d.textOpen = false) := by
  refine get_bind fun d ⟨h, hreas⟩ => ?_
  split
  next ho =>
    refine modify_bind_at (modify_at ?_)
    have hp : d.blocks.Perm (textBlockId ::
        blocks { d with out := d.out.event .textEnd textBlockId, textOpen := false }) := by
      simp [blocks, toolIds, ho, hreas]
    exact ⟨choosing (h.tracks.closes_spare ⟨rfl, rfl⟩ (fun _ _ => rfl) hp)
      h.running h.reserved h.unfinished h.table, hreas, rfl⟩
  next ho => exact pure_at ⟨h, hreas, by simpa using ho⟩

theorem delta_spec {pre id} (hpre : ∀ d, pre d → Choosing (room + 1) p d ∧ id ∈ d.blocks) (hk : kind.Inner)
    (hact : kind.Continues (some id) id) : Leads pre (event kind (some id)) (Choosing room p) :=
  Triple.modify fun d h => (hpre d h).1.delta (hpre d h).2 hk hact

/-! ### The parts of a delta -/

variable (delta : Assoc String Json)

theorem decodeRole_spec : Leads (Choosing room p) (decodeRole delta) (Choosing room p) := by
  unfold decodeRole
  split
  · exact Triple.pure fun _ h => h
  · exact lift_bind fun _ _ => Triple.failIf fun _ h => h

theorem decodeReasoning_spec : Leads (Choosing (room + 3) p) (decodeReasoning delta) (Choosing room p) := by
  unfold decodeReasoning
  split
  · exact Triple.pure fun _ h => h.mono (by omega)
  · refine lift_bind fun text _ => eventIfText_spec ?_ fun _ h => h.mono (by omega)
    exact Triple.bind openReasoning_spec fun _ => delta_spec (fun _ h => h) ⟨rfl, rfl⟩ fun _ _ => rfl

theorem decodeContent_spec : Leads (Choosing (room + 3) p) (decodeContent delta) (Choosing room p) := by
  unfold decodeContent
  split
  · exact Triple.pure fun _ h => h.mono (by omega)
  · refine lift_bind fun text _ => eventIfText_spec ?_ fun _ h => h.mono (by omega)
    refine Triple.bind closeReasoning_spec fun _ => Triple.bind (openText_spec.of_pre (fun _ h => h.1))
      fun _ => delta_spec (fun _ h => h) ⟨rfl, rfl⟩ fun _ _ => rfl

theorem decodeRefusal_spec : Leads (Choosing (room + 1) p) (decodeRefusal delta) (Choosing room p) := by
  unfold decodeRefusal
  split
  · exact Triple.pure fun _ h => h.mono (by omega)
  · refine lift_bind fun text _ => eventIfText_spec ?_ fun _ h => h.mono (by omega)
    exact Triple.modify fun d h => ⟨h.toLive.plain rfl ⟨rfl, rfl⟩, h.unfinished, h.table⟩

/-! ### Tool calls -/

/-- The identifier of a tool call that starts is not empty and no open block has it, nor one of the
two blocks that may still open. -/
def freshId (tools : OrderedMap ℕ String) (id : String) : Bool :=
  !id.isEmpty && id ≠ textBlockId && id ≠ reasoningBlockId && !(tools.entries.map (·.2)).contains id

/-- The identifier of each tool call that starts is fresh, the ones before it in the chunk included. -/
def freshIds (tools : OrderedMap ℕ String) : List (Json × ℕ) → Bool
  | [] => true
  | (value, position) :: calls =>
    match value.asObject with
    | none => true
    | some call =>
      match tools.get (toolCallIndex position call), (call.get "id").bind Json.asStr with
      | none, some id => freshId tools id && freshIds (tools.insert (toolCallIndex position call) id) calls
      | _, _ => freshIds tools calls

theorem toolCallDelta_spec {id args} (h : Choosing (room + 1) p d) (ho : id ∈ d.blocks) :
    Leads (fun t => t = d) (toolCallDelta id args) (Choosing room p) := by
  refine eventIfText_spec (modify_at (h.delta ho ⟨rfl, rfl⟩ fun _ _ => rfl)) ?_
  rintro _ rfl
  exact h.mono (by omega)

theorem Choosing.startToolCall {idx : ℕ} {id name p'}
    (h : Choosing (room + 2) p d) (hfree : d.tools.get idx = none) (hfr : freshId d.tools id = true)
    (htab : p' (d.tools.insert idx id)) :
    Choosing room p' { d with tools := d.tools.insert idx id, out := d.out.event (.toolCallStart id name) (some id) } ∧
      id ∈ blocks { d with tools := d.tools.insert idx id, out := d.out.event (.toolCallStart id name) (some id) } := by
  simp only [freshId, Bool.and_eq_true, Bool.not_eq_true', decide_eq_true_eq, String.isEmpty_eq_false_iff] at hfr
  obtain ⟨⟨⟨hne, htext⟩, hreas⟩, hw⟩ := hfr
  have hout : id ∉ d.toolIds := by simpa [toolIds] using hw
  have hids : (toolIds { d with tools := d.tools.insert idx id }).Perm (id :: d.toolIds) :=
    (d.tools.sorted.perm_insert_new id hfree).map _
  have hblks : (id :: d.blocks).Perm (blocks
      { d with tools := d.tools.insert idx id, out := d.out.event (.toolCallStart id name) (some id) }) :=
    perm_middle.symm.trans (hids.symm.append_left _)
  have hnot : id ∉ d.blocks := by
    simp only [blocks, mem_append, not_or]
    refine ⟨⟨?_, ?_⟩, hout⟩
    · split <;> simp [hreas]
    · split <;> simp [htext]
  refine ⟨choosing ?_ h.running ?_ h.unfinished htab, hblks.subset mem_cons_self⟩
  · exact h.tracks.opens_spare ⟨rfl, rfl⟩ (fun _ _ => rfl) hne hnot hblks.symm
  · intro other hoth
    rcases mem_cons.1 (hids.subset hoth) with rfl | hoth
    · exact ⟨htext, hreas⟩
    · exact h.reserved other hoth

/-- The calls still to come have fresh identifiers. -/
def Ready (calls : List (Json × ℕ)) (tools : OrderedMap ℕ String) : Prop := freshIds tools calls = true

theorem decodeToolCall_spec (value : Json) (pos : ℕ) (calls : List (Json × ℕ)) :
    Leads (Choosing (room + 3) (Ready ((value, pos) :: calls))) (decodeToolCall pos value)
      (Choosing room (Ready calls)) := by
  refine lift_bind fun call hcall => lift_bind fun function _ => failIf_bind fun _ =>
    lift_bind fun args _ => get_bind fun d h => ?_
  have hcall := orError_eq_ok.1 hcall
  have hrdy := h.table
  unfold Ready at hrdy
  split
  next hfree =>
    refine lift_bind fun id hid => lift_bind fun name _ => modify_bind_at (modify_bind_at ?_)
    have hid := orError_eq_ok.1 hid
    simp only [freshIds, hcall, hfree, hid, Bool.and_eq_true] at hrdy
    have hr : Ready calls (d.tools.insert (toolCallIndex pos call) id) := hrdy.2
    obtain ⟨hst, hin⟩ := h.startToolCall hfree hrdy.1 hr
    exact toolCallDelta_spec hst hin
  next existing hexis =>
    refine failIf_bind fun _ => ?_
    have hin : existing ∈ d.blocks := by
      simp only [blocks, toolIds, mem_append]
      exact .inr (mem_map.2 ⟨_, Assoc.mem_of_get hexis, rfl⟩)
    have hr : Ready calls d.tools := by simpa [Ready, freshIds, hcall, hexis] using hrdy
    exact toolCallDelta_spec ⟨(h.mono (by omega)).toLive, h.unfinished, hr⟩ hin

def callsOf : List Json := ((delta.get "tool_calls").bind Json.asArray).getD []

theorem decodeToolCallsOf_spec :
    Leads (Choosing (room + 3 * (callsOf delta).length) (Ready (callsOf delta).zipIdx)) (decodeToolCallsOf delta)
      (Choosing room fun _ => True) := by
  unfold decodeToolCallsOf
  split
  · exact Triple.pure fun _ h => ⟨(h.mono (by omega)).toLive, h.unfinished, trivial⟩
  next hval =>
    refine lift_bind fun calls hcal => ?_
    have hs : callsOf delta = calls := by simp [callsOf, hval, orError_eq_ok.1 hcal]
    rw [hs]
    have hloop : Leads (Choosing (room + 3 * calls.zipIdx.length) (Ready calls.zipIdx))
        (calls.zipIdx.forM fun call => decodeToolCall call.2 call.1)
        (Choosing (room + 3 * ([] : List (Json × ℕ)).length) (Ready [])) := by
      refine Triple.forM (fun rest => Choosing (room + 3 * rest.length) (Ready rest)) ?_
      rintro ⟨call, pos⟩ rest -
      have hrm : room + 3 * ((call, pos) :: rest).length = room + 3 * rest.length + 3 := by
        rw [length_cons]; omega
      rw [hrm]
      exact decodeToolCall_spec call pos rest
    rw [length_zipIdx] at hloop
    exact hloop.of_post fun _ _ h => ⟨h.toLive, h.unfinished, trivial⟩

/-! ### The end of a choice -/

/-- While the tool calls are closed, one after the other. -/
structure Closing (room : ℕ) (rest : List (ℕ × String)) (d : OpenAiChatEventDecoder) : Prop where
  tracks : d.out.Tracks (room + rest.length) d.responseStarted false (rest.map (·.2))
  running : d.completed = false
  unfinished : d.pendingFinish = none
  empty : d.blocks = []

theorem closeToolCalls_spec :
    Leads (fun d => Choosing room p d ∧ d.reasoningOpen = false ∧ d.textOpen = false) closeToolCalls
      (Closing room []) := by
  refine get_bind fun d ⟨h, hreas, htext⟩ => modify_bind_at ?_
  have hblks : d.blocks = d.tools.entries.map (·.2) := by simp [blocks, toolIds, hreas, htext]
  have htrk := h.tracks
  rw [hblks, length_map] at htrk
  have hst : Closing room d.tools.entries { d with tools := .empty } :=
    ⟨htrk, h.running, h.unfinished, by simp [blocks, toolIds, hreas, htext, OrderedMap.empty]⟩
  have hloop : Leads (Closing room d.tools.entries)
      (d.tools.entries.forM fun tool => event (.toolCallEnd tool.2) tool.2) (Closing room []) := by
    refine Triple.forM (fun rest => Closing room rest) fun tool rest _ => Triple.modify fun t ht => ?_
    exact ⟨ht.tracks.closes ⟨rfl, rfl⟩ fun _ _ => rfl, ht.running, ht.unfinished, ht.empty⟩
  refine hloop.known ?_
  exact hst

theorem closeBlocks_spec : Leads (Choosing room p) closeBlocks (Closing room []) :=
  Triple.bind closeReasoning_spec fun _ => Triple.bind closeText_spec fun _ => closeToolCalls_spec

variable (object : Assoc String Json)

theorem decodeFinishReason_spec : Leads (Choosing room p) (decodeFinishReason object) (Live room) := by
  unfold decodeFinishReason
  split
  · exact Triple.pure fun _ h => h.toLive
  · refine lift_bind fun reason _ => get_bind fun d h => failIf_bind fun _ => ?_
    refine Triple.bind (closeBlocks_spec.known h) fun _ => Triple.modify ?_
    intro d' h'
    have hids : d'.toolIds = [] := by
      have := h'.empty
      simp only [blocks, append_eq_nil_iff] at this
      exact this.2
    have htrk := h'.tracks
    rw [map_nil, length_nil, Nat.add_zero] at htrk
    refine ⟨?_, h'.running, ?_, fun _ => h'.empty⟩
    · change d'.out.Tracks (room + d'.blocks.length) d'.responseStarted false d'.blocks
      rw [h'.empty]
      exact htrk
    · intro id hid
      change id ∈ d'.toolIds at hid
      rw [hids] at hid
      cases hid

theorem checkChoiceIndex_spec : Leads (Choosing room p) (checkChoiceIndex object) (Choosing room p) := by
  unfold checkChoiceIndex
  split
  · exact Triple.pure fun _ h => h
  · exact lift_bind fun _ _ => Triple.failIf fun _ h => h

def choiceCalls (choice : Json) : List Json :=
  (((choice.asObject.bind (·.get "delta")).bind Json.asObject).map callsOf).getD []

theorem decodeChoice_spec (choice : Json) :
    Leads (Choosing (room + 7 + 3 * (choiceCalls choice).length) (Ready (choiceCalls choice).zipIdx))
      (decodeChoice choice) (Live room) := by
  refine lift_bind fun object hobj => Triple.bind (checkChoiceIndex_spec object) fun _ => lift_bind fun delta hdlt => ?_
  have hcal : choiceCalls choice = callsOf delta := by simp [choiceCalls, orError_eq_ok.1 hobj, orError_eq_ok.1 hdlt]
  rw [hcal]
  have hrm : room + 7 + 3 * (callsOf delta).length = room + 3 * (callsOf delta).length + 1 + 3 + 3 := by omega
  rw [hrm]
  exact Triple.bind (decodeRole_spec delta) fun _ => Triple.bind (decodeReasoning_spec delta) fun _ =>
    Triple.bind (decodeContent_spec delta) fun _ => Triple.bind (decodeRefusal_spec delta) fun _ =>
    Triple.bind (decodeToolCallsOf_spec delta) fun _ => decodeFinishReason_spec object

/-! ### Chunks -/

/-- Between two parts of a chunk. -/
def Between (room : ℕ) (p : OrderedMap ℕ String → Prop) (d : OpenAiChatEventDecoder) : Prop := Live room d ∧ p d.tools

theorem observeIdentity_spec (id model : Option String) :
    Leads (Between room p) (observeIdentity id model) (Between room p) :=
  get_bind fun _ h => failIf_bind fun _ => failIf_bind fun _ => modify_at
    ⟨⟨h.1.tracks, h.1.running, h.1.reserved, h.1.drained⟩, h.2⟩

theorem startResponse_spec : Leads (Between (room + 1) p) startResponse (Between room p) := by
  refine get_bind fun d h => ?_
  split
  · exact pure_at ⟨h.1.mono (by omega), h.2⟩
  next hbeg =>
    rw [Bool.not_eq_true] at hbeg
    refine modify_bind_at (modify_at ⟨⟨?_, h.1.running, h.1.reserved, h.1.drained⟩, h.2⟩)
    have htrk := h.1.tracks.spare
    rw [hbeg] at htrk
    exact htrk.starts d.responseId d.model

theorem systemFingerprint_spec : Leads (Between (room + 1) p) (systemFingerprint object) (Between room p) := by
  unfold systemFingerprint
  split
  · exact Triple.pure fun _ h => ⟨h.1.mono (by omega), h.2⟩
  · exact Triple.modify fun _ h => ⟨h.1.plain rfl ⟨rfl, rfl⟩, h.2⟩

/-- After a chunk: the stream goes on, or it has ended and is valid. -/
def Kept (d : OpenAiChatEventDecoder) : Prop := Live 0 d ∨ (d.completed = true ∧ d.out.Valid)

theorem Live.last (h : Live 1 d) (hact : kind.blockAction = none)
    (hk : kind.isResponseStart = false) (hdrn : kind.isCompletion = true → d.blocks = []) :
    (d.out.event kind none).Valid := by
  have htrk : d.out.Tracks (0 + 1 + d.blocks.length) d.responseStarted false d.blocks := h.tracks
  exact htrk.spare.valid_event hact hk hdrn

theorem completePending_spec : Leads (Live 1) completePending Kept := by
  refine get_bind fun d h => ?_
  split
  · exact pure_at (.inl (h.mono (by omega)))
  next hfin =>
    refine modify_bind_at (modify_at (.inr ⟨rfl, ?_⟩))
    exact h.last rfl rfl fun _ => h.drained (by rw [hfin]; rfl)

theorem reportUsage_spec (usage : Option Usage) : Leads (Live 1) (reportUsage usage) Kept := by
  unfold reportUsage
  split
  · exact Triple.pure fun _ h => .inl (h.mono (by omega))
  next usage =>
    have hset : Leads (Live 1) (modify fun d => { d with pendingUsage := some usage } : Decode Unit)
        (Live 1) :=
      Triple.modify fun _ h => ⟨h.tracks, h.running, h.reserved, h.drained⟩
    refine Triple.bind hset fun _ => get_bind fun d h => ?_
    split
    · exact completePending_spec.known h
    · exact modify_at (.inl (Live.plain h rfl ⟨rfl, rfl⟩))

theorem decodeChoices_spec (choices : List Json) :
    Leads (Between (room + 7 + 3 * ((choices.head?.map choiceCalls).getD []).length)
        (Ready ((choices.head?.map choiceCalls).getD []).zipIdx)) (decodeChoices choices) (Live room) := by
  refine failIf_bind fun _ => get_bind fun d h => failIf_bind fun hunf => ?_
  cases choices with
  | nil => exact pure_at (h.1.mono (by omega))
  | cons choice =>
    have hn : d.pendingFinish = none := by simpa using hunf
    exact (decodeChoice_spec choice).known ⟨h.1, hn, h.2⟩

theorem decodeError_spec (value : Json) : Leads (Live 1) (decodeError value) Kept := by
  refine lift_bind fun object _ => lift_bind fun msg _ => assuming fun d h =>
    modify_bind_at (modify_at (.inr ⟨rfl, h.last rfl rfl nofun⟩))

def chunkCalls : List Json := ((((object.get "choices").bind Json.asArray).bind List.head?).map choiceCalls).getD []

theorem choicesOf_eq_ok {object choices} (h : choicesOf object = .ok choices) :
    chunkCalls object = (choices.head?.map choiceCalls).getD [] := by
  unfold choicesOf at h
  split at h
  next hn => cases h; simp [chunkCalls, hn]
  next hval => simp [chunkCalls, hval, orError_eq_ok.1 h]

theorem decodeFields_spec :
    Leads (Between (10 + 3 * (chunkCalls object).length) (Ready (chunkCalls object).zipIdx)) (decodeFields object)
      Kept := by
  have hrm : 10 + 3 * (chunkCalls object).length = 1 + 7 + 3 * (chunkCalls object).length + 1 + 1 := by omega
  rw [hrm]
  refine lift_bind fun id _ => lift_bind fun model _ => Triple.bind (observeIdentity_spec id model)
    fun _ => Triple.bind startResponse_spec fun _ => Triple.bind (systemFingerprint_spec object) fun _ =>
    lift_bind fun usage _ => lift_bind fun choices hchoic => ?_
  rw [choicesOf_eq_ok hchoic]
  exact Triple.bind (decodeChoices_spec choices) fun _ => reportUsage_spec usage

/-! ### The stream -/

/-- The tool calls of what the decoder is given. -/
def Data.calls : Data → List Json
  | .chunk value => (value.asObject.map chunkCalls).getD []
  | .done => []

/-- The tool calls that start have fresh identifiers, and the counter of the events has room: for every
open block, for the fields of the chunk, and for the start, the arguments and the end of each tool call. -/
def Meets (d : OpenAiChatEventDecoder) (data : Data) : Prop :=
  freshIds d.tools data.calls.zipIdx = true ∧
    d.out.nextSequence + (10 + 3 * data.calls.length + d.blocks.length) ≤ u64Max

instance (d : OpenAiChatEventDecoder) (data : Data) : Decidable (Meets d data) := inferInstanceAs (Decidable (_ ∧ _))

theorem Kept.live {data} (h : Kept d) (hmeet : Meets d data) (hrun : d.completed = false) :
    Between (10 + 3 * data.calls.length) (Ready data.calls.zipIdx) d := by
  rcases h with h | h
  · have htrk : d.out.Tracks 0 d.responseStarted false d.blocks := h.tracks.mono (by omega)
    exact ⟨⟨htrk.raise hmeet.2, h.running, h.reserved, h.drained⟩, hmeet.1⟩
  · rw [hrun] at h
    cases h.1

theorem decodeChunk_spec (value : Json) :
    Leads (fun d => Kept d ∧ Meets d (.chunk value)) (decodeChunk value) Kept := by
  refine get_bind fun d h => failIf_bind fun hrun => lift_bind fun object hobj => ?_
  have hl := h.1.live h.2 hrun
  have hcal : Data.calls (.chunk value) = chunkCalls object := by simp [Data.calls, orError_eq_ok.1 hobj]
  rw [hcal] at hl
  split
  · exact (decodeError_spec _).known (hl.1.mono (by omega))
  · exact (decodeFields_spec object).known hl

theorem finish_spec : Leads (fun d => Kept d ∧ Meets d .done) finish Kept := by
  refine get_bind fun d h => ?_
  split
  · exact pure_at h.1
  next hrun =>
    have hl := h.1.live h.2 (by simpa using hrun)
    refine failIf_bind fun _ => completePending_spec.known ?_
    exact hl.1.mono (by omega)

theorem decodeData_spec (data : Data) : Leads (fun d => Kept d ∧ Meets d data) (decodeData data) Kept := by
  cases data with
  | chunk value => exact decodeChunk_spec value
  | done => exact finish_spec

/-- Every stream that the decoder accepts, and whose tool calls start with fresh identifiers, is a
valid stream of events. -/
theorem decoded_stream_valid (stream : List Data) (hmeets : StepsMeet (after decodeData) Meets default stream)
    (d : OpenAiChatEventDecoder) (haccepted : stream.forM decodeData default = .ok (⟨⟩, d)) : d.out.Valid := by
  have hst : Live 0 default := ⟨Output.tracks_empty (by decide), rfl, nofun, fun _ => rfl⟩
  have hkept := Triple.forM_of_stepsMeet decodeData_spec stream default ⟨⟩ d ⟨.inl hst, hmeets⟩ haccepted
  rcases hkept with hl | ⟨-, hvld⟩
  · exact hl.tracks.valid
  · exact hvld

def choiceChunk (rest : Assoc String Json) : Data :=
  .chunk (.object [("choices", .array [.object (("delta", .object delta) :: rest)])])

/-- A tool call that starts, as a part of a delta. -/
def startedCall (index : UInt64) (id arguments : String) : Json :=
  .object [("function", .object [("arguments", .string arguments), ("name", .string "weather")]), ("id", .string id),
    ("index", .number (.posInt index))]

def weatherStream : List Data :=
  [choiceChunk [("reasoning", .string "A question."), ("role", .string "assistant")] [],
    choiceChunk [("content", .string "Hello")] [],
    choiceChunk [("tool_calls", .array [startedCall 0 "first" "", startedCall 1 "second" "\x7b\x7d"])] [],
    choiceChunk [] [("finish_reason", .string "tool_calls")], .done]

theorem weatherStream_valid : StepsMeet (after decodeData) Meets default weatherStream ∧
    ∃ d, weatherStream.forM decodeData default = .ok (⟨⟩, d) ∧ d.out.events.length = 13 ∧ d.out.Valid := by
  have hmeet : StepsMeet (after decodeData) Meets default weatherStream := by decide +kernel
  have hcnt : ((weatherStream.forM decodeData default).map fun r => r.2.out.events.length) = .ok 13 := by decide +kernel
  obtain ⟨⟨_, d⟩, hacc, hlen⟩ := exists_of_map_eq_ok hcnt
  exact ⟨hmeet, d, hacc, hlen, decoded_stream_valid weatherStream hmeet d hacc⟩

/-- Two tool calls of one delta that have the same identifier. -/
def repeatedIdStream : List Data :=
  [choiceChunk [("tool_calls", .array [startedCall 0 "call" "", startedCall 1 "call" ""])] []]

theorem repeated_tool_call_id_accepted :
    ∃ d, repeatedIdStream.forM decodeData default = .ok (⟨⟩, d) ∧
      StreamValidator.default.acceptAll d.out.events = .error (.duplicateBlock "call") ∧ ¬d.out.Valid := by
  have href : ((repeatedIdStream.forM decodeData default).map
      fun r => StreamValidator.default.acceptAll r.2.out.events) = .ok (.error (.duplicateBlock "call")) := by
    decide +kernel
  obtain ⟨⟨_, d⟩, hacc, herr⟩ := exists_of_map_eq_ok href
  exact ⟨d, hacc, herr, Output.not_valid herr⟩

end Pooler.OpenAiChatEventDecoder
