import Pooler.Sanity.Streams
import Pooler.Spec.Protocol.DevinStream

/-! The events that the Devin decoder returns form a valid stream with one start and one end, as long
as no open tool call has the identifier of a block of text or reasoning that starts, and a trailer
with an error comes once and after a message. -/

namespace Pooler.DevinChatEventDecoder

open Lib Devin Bool List
open Triple (lift_bind failIf_bind get_bind modify_at modify_bind_at pure_at assuming)

/-! ### The state between events -/

variable (d : DevinChatEventDecoder)

/-- The identifiers of the tool calls, which stay open until the end. -/
def toolIds : List String := d.tools.entries.map Prod.fst

def blocks : List String :=
  (if d.reasoningOpen then [reasoningBlockId] else []) ++ (if d.textOpen then [textBlockId] else []) ++ d.toolIds

def Begun (started : Bool) (out : Output) : Prop :=
  if started then ∃ e rest, out.events = e :: rest ∧ e.kind.isResponseStart = true else out.events = []

/-- Before the end of the stream. Room is kept to close every open block. -/
structure Live (room : ℕ) (d : DevinChatEventDecoder) : Prop where
  tracks : d.out.Tracks (room + d.blocks.length) d.started false d.blocks
  begun : Begun d.started d.out
  running : d.terminal = false

/-- The tool calls with the active one. -/
abbrev Calls := OrderedMap String ToolCallState × Option String

def calls : Calls := (d.tools, d.activeToolId)

/-- Within a message: the response has started, and the tool calls are as they should be. -/
structure Going (room : ℕ) (q : Calls → Prop) (d : DevinChatEventDecoder) : Prop extends Live room d where
  started : d.started = true
  table : q d.calls

variable {d d' : DevinChatEventDecoder} {room : ℕ} {q : Calls → Prop}
  {kind : StreamEventKind} {id : String}

theorem Live.mono {less : ℕ} (h : Live room d) (hle : less ≤ room) : Live less d :=
  ⟨h.tracks.mono (by omega), h.begun, h.running⟩

theorem Going.mono {less : ℕ} (h : Going room q d) (hle : less ≤ room) : Going less q d :=
  ⟨h.toLive.mono hle, h.started, h.table⟩

theorem Begun.event {out} (h : Begun true out) (kind : StreamEventKind) (blockId : Option String) :
    Begun true (out.event kind blockId) := by
  obtain ⟨e, rest, hevs, hst⟩ := h
  exact ⟨e, rest ++ [_], by rw [Output.event, hevs]; rfl, hst⟩

/-! ### One event -/

/-- The decoder emitted one event and changed at most its blocks and its table. -/
structure Emits (kind : StreamEventKind) (blockId : Option String) (d d' : DevinChatEventDecoder) : Prop where
  out : d'.out = d.out.event kind blockId
  started : d'.started = d.started
  terminal : d'.terminal = d.terminal

variable {blockId : Option String} {q' : Calls → Prop}

theorem Going.emits {more : ℕ} (h : Going more q d) (hemit : Emits kind blockId d d') (htab : q' d'.calls)
    (htrk : (d.out.event kind blockId).Tracks (room + d'.blocks.length) d.started false d'.blocks) :
    Going room q' d' := by
  have hbeg : d'.started = true := hemit.started.trans h.started
  refine ⟨⟨?_, ?_, hemit.terminal.trans h.running⟩, hbeg, htab⟩
  · rw [hemit.out, hemit.started]
    exact htrk
  · have hbegun := h.begun
    rw [h.started] at hbegun
    rw [hemit.out, hbeg]
    exact hbegun.event kind blockId

theorem Going.plain (h : Going (room + 1) q d) (hemit : Emits kind blockId d d')
    (hsame : d'.blocks = d.blocks ∧ d'.calls = d.calls) (hact : kind.blockAction = none) (hk : kind.Inner) :
    Going room q d' := by
  refine h.emits hemit (hsame.2 ▸ h.table) ?_
  rw [hsame.1]
  exact h.tracks.spare.quiet hact hk

theorem Going.opens
    (h : Going (room + 2) q d) (hemit : Emits kind blockId d d') (hblks : d'.blocks.Perm (id :: d.blocks))
    (htab : q' d'.calls) (hk : kind.Inner) (hact : kind.Opens blockId id) (hne : id ≠ "")
    (hw : id ∉ d.blocks) : Going room q' d' :=
  h.emits hemit htab (h.tracks.opens_spare hk hact hne hw hblks)

theorem Going.continues (h : Going (room + 1) q d) (hemit : Emits kind blockId d d')
    (hsame : d'.blocks = d.blocks ∧ d'.calls = d.calls) (hk : kind.Inner) (hact : kind.Continues blockId id)
    (ho : id ∈ d.blocks) : Going room q d' := by
  refine h.emits hemit (hsame.2 ▸ h.table) ?_
  rw [hsame.1]
  exact h.tracks.spare.continues hk hact ho

theorem Going.closes (h : Going room q d)
    (hemit : Emits kind blockId d d') (hblks : d.blocks.Perm (id :: d'.blocks)) (htab : q' d'.calls)
    (hk : kind.Inner) (hact : kind.Closes blockId id) : Going room q' d' :=
  h.emits hemit htab (h.tracks.closes_spare hk hact hblks)

/-! ### The start, and the blocks of text and reasoning -/

theorem startEvents_spec : Leads (fun d => Live (room + 1) d ∧ q d.calls) startEvents (Going room q) := by
  refine get_bind fun d ⟨h, htab⟩ => ?_
  split
  next hbeg => exact pure_at ⟨h.mono (by omega), hbeg, htab⟩
  next hbeg =>
    rw [not_eq_true] at hbeg
    refine modify_bind_at (modify_at ⟨⟨?_, ?_, h.running⟩, rfl, htab⟩)
    · have htrk := h.tracks.spare
      rw [hbeg] at htrk
      exact htrk.starts _ _
    · have hemp := h.begun
      rw [hbeg] at hemp
      have hevs : d.out.events = [] := hemp
      exact ⟨_, [], by simp only [Output.event, hevs]; rfl, rfl⟩

theorem closeReasoning_spec :
    Triple (Going room q) closeReasoning (fun _ d => Going room q d ∧ d.reasoningOpen = false) := by
  refine get_bind fun d h => ?_
  split
  next ho =>
    refine modify_bind_at (modify_at ⟨?_, rfl⟩)
    exact h.closes ⟨rfl, rfl, rfl⟩ (by simp [blocks, toolIds, ho]) h.table ⟨rfl, rfl⟩ fun _ _ => rfl
  next ho => exact pure_at ⟨h, by simpa using ho⟩

theorem closeText_spec (isOpen : Bool → Prop) :
    Triple (fun d => Going room q d ∧ isOpen d.reasoningOpen) closeText
      (fun _ d => Going room q d ∧ isOpen d.reasoningOpen ∧ d.textOpen = false) := by
  refine get_bind fun d ⟨h, hreas⟩ => ?_
  split
  next ho =>
    refine modify_bind_at (modify_at ⟨?_, hreas, rfl⟩)
    refine h.closes ⟨rfl, rfl, rfl⟩ ?_ h.table ⟨rfl, rfl⟩ fun _ _ => rfl
    simp only [blocks, toolIds, ho, if_true, false_eq_true, if_false, append_nil]
    rw [append_assoc]
    exact perm_middle
  next ho => exact pure_at ⟨h, hreas, by simpa using ho⟩

theorem openReasoning_spec (hfree : ∀ calls, q calls → reasoningBlockId ∉ calls.1.entries.map Prod.fst) :
    Triple (fun d => Going (room + 2) q d ∧ d.textOpen = false) openReasoning
      (fun _ d => Going room q d ∧ reasoningBlockId ∈ d.blocks) := by
  refine get_bind fun d ⟨h, htext⟩ => ?_
  split
  next ho => exact pure_at ⟨h.mono (by omega), by simp [blocks, ho]⟩
  next ho =>
    rw [not_eq_true] at ho
    have hw : reasoningBlockId ∉ d.blocks := by simpa [blocks, toolIds, calls, ho, htext] using hfree d.calls h.table
    refine modify_bind_at (modify_at ⟨?_, by simp [blocks]⟩)
    exact h.opens ⟨rfl, rfl, rfl⟩ (by simp [blocks, toolIds, ho]) h.table ⟨rfl, rfl⟩ (fun _ _ => rfl)
      (by decide +kernel) hw

theorem openText_spec (hfree : ∀ calls, q calls → textBlockId ∉ calls.1.entries.map Prod.fst) :
    Triple (fun d => Going (room + 2) q d ∧ d.reasoningOpen = false) openText
      (fun _ d => Going room q d ∧ textBlockId ∈ d.blocks) := by
  refine get_bind fun d ⟨h, hreas⟩ => ?_
  split
  next ho => exact pure_at ⟨h.mono (by omega), by simp [blocks, ho]⟩
  next ho =>
    rw [not_eq_true] at ho
    have hw : textBlockId ∉ d.blocks := by simpa [blocks, toolIds, calls, ho, hreas] using hfree d.calls h.table
    refine modify_bind_at (modify_at ⟨?_, by simp [blocks]⟩)
    exact h.opens ⟨rfl, rfl, rfl⟩ (by simp [blocks, toolIds, ho, hreas]) h.table ⟨rfl, rfl⟩ (fun _ _ => rfl)
      (by decide +kernel) hw

/-! ### The parts of a message -/

/-- No tool call has the identifier of a block that the message may open, and the active one has an
identifier. -/
structure Ready (message : GetChatMessageResponse) (calls : Calls) : Prop where
  reasoning : (message.deltaThinking.isEmpty && message.deltaSignature.isEmpty) = false →
    reasoningBlockId ∉ calls.1.entries.map Prod.fst
  text : message.deltaText.isEmpty = false → textBlockId ∉ calls.1.entries.map Prod.fst
  named : calls.2 ≠ some ""

variable {message : GetChatMessageResponse}

theorem countReasoning_spec : Leads (Going room q) (countReasoning message) (Going room q) :=
  get_bind fun _ h => failIf_bind fun _ => modify_at ⟨⟨h.tracks, h.begun, h.running⟩, h.started, h.table⟩

theorem decodeReasoning_spec :
    Leads (Going (room + 3) (Ready message)) (decodeReasoning message) (Going room (Ready message)) := by
  unfold decodeReasoning
  split
  · exact Triple.pure fun _ h => h.mono (by omega)
  next hsome =>
    rw [not_eq_true] at hsome
    refine Triple.bind countReasoning_spec fun _ => ?_
    refine Triple.bind ((closeText_spec fun _ => True).of_pre (fun _ h => ⟨h, trivial⟩)) fun _ => ?_
    refine Triple.bind ((openReasoning_spec fun _ hq => hq.reasoning hsome).weaken
      (fun _ h => ⟨h.1, h.2.2⟩) fun _ _ h => h) fun _ => ?_
    have hdlt : Leads (fun d => Going (room + 1) (Ready message) d ∧ reasoningBlockId ∈ d.blocks)
        (eventIfText message.deltaThinking (event (.reasoningDelta message.deltaThinking) reasoningBlockId))
        (Going room (Ready message)) :=
      eventIfText_spec (Triple.modify fun _ h =>
        h.1.continues ⟨rfl, rfl, rfl⟩ ⟨rfl, rfl⟩ ⟨rfl, rfl⟩ (fun _ _ => rfl) h.2) fun _ h => h.1.mono (by omega)
    exact Triple.bind hdlt fun _ => Triple.modify fun _ h => ⟨⟨h.tracks, h.begun, h.running⟩, h.started, h.table⟩

theorem decodeText_spec :
    Leads (Going (room + 3) (Ready message)) (decodeText message) (Going room (Ready message)) := by
  unfold decodeText eventIfText
  split
  · exact Triple.pure fun _ h => h.mono (by omega)
  next hsome =>
    rw [not_eq_true] at hsome
    refine Triple.bind closeReasoning_spec fun _ => Triple.bind (openText_spec fun _ hq => hq.text hsome) fun _ => ?_
    exact Triple.modify fun _ h => h.1.continues ⟨rfl, rfl, rfl⟩ ⟨rfl, rfl⟩ ⟨rfl, rfl⟩ (fun _ _ => rfl) h.2

/-! ### Tool calls -/

/-- The active tool call has an identifier. -/
def Named (calls : Calls) : Prop := calls.2 ≠ some ""

theorem nonempty_ne {value} (h : nonempty value = some id) : id ≠ "" := by
  rintro rfl
  unfold nonempty at h
  split at h
  · cases h
  next hsome =>
    cases h
    exact hsome rfl

variable {tools : OrderedMap String ToolCallState}

theorem keys_insert_known {state old} (h : tools.get id = some old) :
    ((tools.insert id state).entries.map Prod.fst).Perm (tools.entries.map Prod.fst) := by
  have haft := (tools.sorted.perm_insert id state).map Prod.fst
  have hbef := (Assoc.perm_of_get_eq_some tools.sorted h).map Prod.fst
  exact haft.trans hbef.symm

theorem not_mem_keys (h : tools.get id = none) : id ∉ tools.entries.map Prod.fst := by
  intro hm
  obtain ⟨⟨key, state⟩, hent, rfl⟩ := mem_map.1 hm
  rw [OrderedMap.get_of_mem hent] at h
  cases h

/-- The blocks of text and reasoning are closed. -/
structure Calling (room : ℕ) (tools : OrderedMap String ToolCallState) (d : DevinChatEventDecoder) : Prop extends
    Going room Named d where
  reasoning : d.reasoningOpen = false
  text : d.textOpen = false
  tools_eq : d.tools = tools

theorem Calling.blocks_eq (h : Calling room tools d) : d.blocks = tools.entries.map Prod.fst := by
  simp [blocks, toolIds, h.reasoning, h.text, h.tools_eq]

theorem noteUnnamed_spec (id name : String) :
    Leads (Calling room tools) (noteUnnamed id name) (Calling room tools) := by
  unfold noteUnnamed
  split
  · exact Triple.modify fun _ h =>
      ⟨⟨⟨h.tracks, h.begun, h.running⟩, h.started, h.table⟩, h.reasoning, h.text, h.tools_eq⟩
  · exact Triple.pure fun _ h => h

theorem startTool_spec {state} (h : Calling (room + 2) d.tools d) (hid : id ≠ "") (name : String) :
    Triple (fun s => s = { d with tools := d.tools.insert id state, activeToolId := some id })
      (startTool (d.tools.get id) id name) (fun _ s => Going room Named s ∧ id ∈ s.blocks) := by
  have hnmd : Named (d.tools.insert id state, some id) := fun hsome => hid (Option.some.inj hsome)
  have hblks : blocks { d with tools := d.tools.insert id state, activeToolId := some id } =
      (d.tools.insert id state).entries.map Prod.fst := by
    simp [blocks, toolIds, h.reasoning, h.text]
  unfold startTool
  cases hg : d.tools.get id with
  | none =>
    have hp : ((d.tools.insert id state).entries.map Prod.fst).Perm (id :: d.blocks) := by
      rw [h.blocks_eq]
      exact (d.tools.sorted.perm_insert_new _ hg).map Prod.fst
    have hw : id ∉ d.blocks := by
      rw [h.blocks_eq]
      exact not_mem_keys hg
    refine modify_at ⟨?_, ?_⟩
    · refine h.toGoing.opens ⟨rfl, rfl, rfl⟩ ?_ hnmd ⟨rfl, rfl⟩ (fun _ _ => rfl) hid hw
      exact hblks ▸ hp
    · show id ∈ blocks { d with tools := d.tools.insert id state, activeToolId := some id }
      rw [hblks]
      exact hp.symm.subset mem_cons_self
  | some old =>
    have hp : (blocks { d with tools := d.tools.insert id state, activeToolId := some id }).Perm d.blocks := by
      rw [hblks, h.blocks_eq]
      exact keys_insert_known hg
    refine pure_at ⟨⟨⟨?_, h.begun, h.running⟩, h.started, hnmd⟩, ?_⟩
    · rw [hp.length_eq]
      exact (h.tracks.mono (by omega)).perm hp.symm
    · refine hp.symm.subset ?_
      rw [h.blocks_eq]
      exact mem_map.2 ⟨(id, old), OrderedMap.mem_entries.2 hg, rfl⟩

theorem decodeToolCall_spec (hid : id ≠ "") (call : ChatToolCall) :
    Leads (fun d => Calling (room + 3) d.tools d) (decodeToolCall id call) (Going room Named) := by
  refine get_bind fun d h => failIf_bind fun _ => failIf_bind fun _ => ?_
  refine Triple.bind ((noteUnnamed_spec id _).known h) fun _ => ?_
  refine assuming fun s hs => modify_bind_at ?_
  have htls := hs.tools_eq
  rw [← htls] at hs ⊢
  refine Triple.bind (startTool_spec hs hid _) fun _ => ?_
  exact eventIfText_spec (Triple.modify fun _ h => h.1.continues ⟨rfl, rfl, rfl⟩ ⟨rfl, rfl⟩ ⟨rfl, rfl⟩
    (fun _ _ => rfl) h.2) fun _ h => h.1.mono (by omega)

theorem note_spec (issue : Note) : Leads (Going room q) (note issue) (Going room q) :=
  Triple.modify fun _ h => ⟨⟨h.tracks, h.begun, h.running⟩, h.started, h.table⟩

theorem decodeDeltaToolCall_spec (call : ChatToolCall) :
    Leads (Going (room + 3) Named) (decodeDeltaToolCall call) (Going room Named) := by
  refine Triple.bind closeReasoning_spec fun _ => Triple.bind (closeText_spec (· = false)) fun _ =>
    get_bind fun d ⟨h, hreas, htext⟩ => ?_
  cases hcall : nonempty call.id <|> d.activeToolId with
  | none => exact (note_spec _).known (h.mono (by omega))
  | some id =>
    have hid : id ≠ "" := by
      cases hown : nonempty call.id with
      | some =>
        rw [hown] at hcall
        cases hcall
        exact nonempty_ne hown
      | none =>
        rw [hown] at hcall
        rintro rfl
        exact h.table hcall
    exact (decodeToolCall_spec hid call).known ⟨h, hreas, htext, rfl⟩

theorem deltaToolCalls_spec (calls : List ChatToolCall) :
    Leads (Going (room + 3 * calls.length) Named) (calls.forM decodeDeltaToolCall) (Going room Named) := by
  refine (Triple.forM (fun rest => Going (room + 3 * rest.length) Named) fun call rest _ => ?_).weaken
    (fun _ h => h) fun _ _ h => h
  have hrm : room + 3 * (call :: rest).length = room + 3 * rest.length + 3 := by
    rw [length_cons]
    omega
  rw [hrm]
  exact decodeDeltaToolCall_spec call

/-! ### Messages -/

theorem reportUsage_spec (usage : Option ModelUsageStats) :
    Leads (Going (room + 1) q) (reportUsage usage) (Going room q) := by
  cases usage with
  | none => exact Triple.pure fun _ h => h.mono (by omega)
  | some => exact assuming fun _ h => modify_bind_at (modify_at (h.plain ⟨rfl, rfl, rfl⟩ ⟨rfl, rfl⟩ rfl ⟨rfl, rfl⟩))

theorem recordStopReason_spec (number : ℤ) : Leads (Going room q) (recordStopReason number) (Going room q) :=
  Triple.modify fun _ h => ⟨⟨h.tracks, h.begun, h.running⟩, h.started, h.table⟩

/-- The number of events that a message can take, with those that close what it opens. -/
def messageRoom (message : GetChatMessageResponse) : ℕ := 8 + 3 * message.deltaToolCalls.length

theorem decodeFields_spec : Leads (fun d => Live (messageRoom message) d ∧ Ready message d.calls) (decodeFields message)
    (Going 0 Named) := by
  have hrm : messageRoom message = 0 + 1 + 3 * message.deltaToolCalls.length + 3 + 3 + 1 := by
    unfold messageRoom
    omega
  rw [hrm]
  refine Triple.bind startEvents_spec fun _ => Triple.bind decodeReasoning_spec fun _ =>
    Triple.bind decodeText_spec fun _ => ?_
  refine Triple.bind ((deltaToolCalls_spec message.deltaToolCalls).weaken
    (fun _ h => ⟨h.toLive, h.started, h.table.named⟩) fun _ _ h => h) fun _ => ?_
  exact Triple.bind (reportUsage_spec message.usage) fun _ => recordStopReason_spec message.stopReason

/-! ### The end of the stream -/

/-- The events of a whole response: valid, with the start first and one end. -/
structure Finished (out : Output) : Prop where
  valid : out.Valid
  begins : ∃ e rest, out.events = e :: rest ∧ e.kind.isResponseStart = true
  ends : out.events.countP (fun e => e.kind.isTerminal) = 1

theorem Going.ends (h : Going (room + 1) q d) (hact : kind.blockAction = none)
    (hk : kind.isResponseStart = false ∧ kind.isTerminal = true)
    (hdrn : kind.isCompletion = true → d.blocks = []) : Finished (d.out.event kind none) := by
  have htrk := h.tracks.spare
  have hbegun := h.begun
  rw [h.started] at hbegun
  refine ⟨htrk.valid_event hact hk.1 hdrn, hbegun.event kind none, ?_⟩
  have hn : d.out.events.countP (fun e => e.kind.isTerminal) = 0 := by
    rw [countP_eq_zero]
    intro e he
    simp [htrk.not_completed e he]
  simp [Output.event, hn, hk.2]

/-- The stream has ended, and nothing follows. -/
def Ended (d : DevinChatEventDecoder) : Prop := d.terminal = true ∧ Finished d.out

theorem failTrailer_eq (h : d.started = true) (message : String) :
    failTrailer message d = .ok (⟨⟩, { d with
      terminal := true, out := d.out.event (.failure (.new "devin.stream" message)) none }) := by
  cases d
  cases h
  rfl

theorem failTrailer_spec (message : String) :
    Leads (fun d => Live 1 d ∧ d.started = true) (failTrailer message) Ended := by
  intro d _ d' ⟨h, hbeg⟩ hrun
  rw [failTrailer_eq hbeg] at hrun
  cases hrun
  have hgoing : Going 1 (fun _ => True) d := ⟨h, hbeg, trivial⟩
  exact ⟨rfl, hgoing.ends rfl ⟨rfl, rfl⟩ nofun⟩

/-- The tool calls that are still to be ended. -/
structure Closing (room : ℕ) (rest : List (String × ToolCallState)) (d : DevinChatEventDecoder) : Prop where
  tracks : d.out.Tracks (room + rest.length) true false (rest.map Prod.fst)
  begun : Begun true d.out
  started : d.started = true
  running : d.terminal = false
  closed : d.blocks = []

theorem closeTools_spec :
    Triple (fun d => Calling room d.tools d) closeTools (fun _ d => Going room (fun _ => True) d ∧ d.blocks = []) := by
  refine get_bind fun d h => modify_bind_at ?_
  have hbegun := h.begun
  rw [h.started] at hbegun
  have htrk := h.tracks
  rw [h.blocks_eq, length_map, h.started] at htrk
  refine (Triple.forM (Closing room) fun tool rest _ => Triple.modify fun s hs => ?_).weaken ?_ ?_
  · have hnext := hs.tracks
    rw [length_cons] at hnext
    exact ⟨hnext.closes ⟨rfl, rfl⟩ fun _ _ => rfl, hs.begun.event _ _, hs.started, hs.running, hs.closed⟩
  · rintro _ rfl
    exact ⟨htrk, hbegun, h.started, h.running, by simp [blocks, toolIds, h.reasoning, h.text, OrderedMap.empty]⟩
  · intro _ s hs
    refine ⟨⟨⟨?_, hs.started ▸ hs.begun, hs.running⟩, hs.started, trivial⟩, hs.closed⟩
    rw [hs.closed, hs.started]
    exact hs.tracks

theorem complete_spec (hadTools : Bool) :
    Leads (fun d => Going 1 (fun _ => True) d ∧ d.blocks = []) (complete hadTools) Ended :=
  get_bind fun _ ⟨h, hdrn⟩ => modify_bind_at (modify_bind_at (modify_at ⟨rfl, h.ends rfl ⟨rfl, rfl⟩ fun _ => hdrn⟩))

theorem finishBlocks_spec : Leads (fun d => Live 2 d ∧ Named d.calls) finishBlocks Ended := by
  refine Triple.bind startEvents_spec fun _ => Triple.bind closeReasoning_spec fun _ =>
    Triple.bind (closeText_spec (· = false)) fun _ => get_bind fun d ⟨h, hreas, htext⟩ => ?_
  refine Triple.bind (closeTools_spec.known ⟨h, hreas, htext, rfl⟩) fun _ => complete_spec _

/-! ### The stream -/

/-- Either the stream goes on, or its last event has been emitted. -/
def Kept (d : DevinChatEventDecoder) : Prop := (Live 0 d ∧ Named d.calls) ∨ Ended d

section
variable (fromSlice : List UInt8 → Option Json) (decodeProto : List UInt8 → Option GetChatMessageResponse)

/-- A message opens no block of text or reasoning under the identifier of a tool call, an error trailer
comes after a message and not after the end, and the counter of the events has room. -/
def meets (d : DevinChatEventDecoder) : Input → Bool
  | .frame frame =>
    if frame.endStream then
      (readConnectTrailerError fromSlice frame.payload).isNone ||
        (d.started && !d.terminal && d.out.nextSequence + (1 + d.blocks.length) ≤ u64Max)
    else match decodeProto frame.payload with
      | none => true
      | some message =>
        d.terminal ||
          (((message.deltaThinking.isEmpty && message.deltaSignature.isEmpty) || !d.toolIds.contains reasoningBlockId) &&
            (message.deltaText.isEmpty || !d.toolIds.contains textBlockId) &&
            d.out.nextSequence + (messageRoom message + d.blocks.length) ≤ u64Max)
  | .finish => d.terminal || d.out.nextSequence + (2 + d.blocks.length) ≤ u64Max

def Meets (d : DevinChatEventDecoder) (input : Input) : Prop := meets fromSlice decodeProto d input = true

instance (d : DevinChatEventDecoder) (input : Input) : Decidable (Meets fromSlice decodeProto d input) :=
  inferInstanceAs (Decidable (_ = _))

variable {fromSlice : List UInt8 → Option Json} {decodeProto : List UInt8 → Option GetChatMessageResponse}

theorem Live.raise (h : Live 0 d) (hrm : d.out.nextSequence + (room + d.blocks.length) ≤ u64Max) : Live room d :=
  ⟨(h.tracks.mono (Nat.zero_le _)).raise hrm, h.begun, h.running⟩

theorem Kept.live (h : Kept d) (hrunn : d.terminal = false) : Live 0 d ∧ Named d.calls := by
  rcases h with h | h
  · exact h
  · exact absurd (h.1.symm.trans hrunn) nofun

theorem decodeTrailer_spec {frame} (hend : frame.endStream = true) :
    Leads (fun d => Kept d ∧ Meets fromSlice decodeProto d (.frame frame)) (decodeTrailer fromSlice frame.payload)
      Kept := by
  unfold decodeTrailer
  split
  · exact Triple.pure fun _ h => h.1
  next message hmsg =>
    refine (failTrailer_spec message).weaken ?_ fun _ _ h => .inr h
    rintro d ⟨hkept, hmeet⟩
    simp only [Meets, meets, hend, hmsg, if_true, Option.isNone_some, Bool.false_or, Bool.and_eq_true,
      decide_eq_true_eq, Bool.not_eq_true'] at hmeet
    obtain ⟨⟨hbeg, hrunn⟩, hrm⟩ := hmeet
    exact ⟨(hkept.live hrunn).1.raise hrm, hbeg⟩

theorem decodeMessage_spec {frame} (hdata : frame.endStream = false)
    (hproto : decodeProto frame.payload = some message) :
    Leads (fun d => Kept d ∧ Meets fromSlice decodeProto d (.frame frame)) (decodeMessage message)
      Kept := by
  refine get_bind fun d ⟨hkept, hmeet⟩ => ?_
  split
  · exact pure_at hkept
  next hrunn =>
    rw [Bool.not_eq_true] at hrunn
    simp only [Meets, meets, hdata, hproto, hrunn, Bool.false_eq_true, if_false, Bool.false_or, Bool.and_eq_true,
      Bool.or_eq_true, decide_eq_true_eq, Bool.not_eq_true'] at hmeet
    obtain ⟨⟨hreas, htext⟩, hrm⟩ := hmeet
    obtain ⟨hl, hnmd⟩ := hkept.live hrunn
    refine decodeFields_spec.weaken ?_ fun _ _ h => .inl ⟨h.toLive, h.table⟩
    rintro _ rfl
    refine ⟨hl.raise hrm, ?_, ?_, hnmd⟩
    · intro hsome
      rcases hreas with hn | hfree
      · rw [hn.1, hn.2] at hsome
        cases hsome
      · simpa [toolIds, calls] using hfree
    · intro hsome
      rcases htext with hn | hfree
      · rw [hn] at hsome
        cases hsome
      · simpa [toolIds, calls] using hfree

theorem finish_spec : Leads (fun d => Kept d ∧ Meets fromSlice decodeProto d .finish) finish Ended := by
  refine get_bind fun d ⟨hkept, hmeet⟩ => ?_
  split
  next hterm =>
    rcases hkept with hl | hended
    · exact absurd (hterm.symm.trans hl.1.running) nofun
    · exact pure_at hended
  next hrunn =>
    rw [Bool.not_eq_true] at hrunn
    simp only [Meets, meets, hrunn, Bool.false_or, decide_eq_true_eq] at hmeet
    obtain ⟨hl, hnmd⟩ := hkept.live hrunn
    exact finishBlocks_spec.known ⟨hl.raise hmeet, hnmd⟩

theorem decode_spec (input : Input) :
    Leads (fun d => Kept d ∧ Meets fromSlice decodeProto d input) (decode fromSlice decodeProto input)
      Kept := by
  cases input with
  | finish => exact finish_spec.of_post fun _ _ h => .inr h
  | frame frame =>
    change Triple _ (decodeFrame fromSlice decodeProto frame) _
    unfold decodeFrame
    split
    next hend => exact decodeTrailer_spec hend
    next hdata =>
      refine lift_bind fun message hmsg => decodeMessage_spec (by simpa using hdata) ?_
      unfold decodePayload at hmsg
      split at hmsg
      next hfd => cases hmsg; exact hfd
      · cases hmsg

end

def body (frames : List ConnectFrame) : List Input := frames.map .frame ++ [.finish]

/-- Every body that the decoder accepts becomes a valid stream of events that begins with the start of
the response and has one end, if no tool call takes the identifier of a block that starts, and a trailer
with an error comes once and after a message. -/
theorem decoded_devin_stream_valid (fromSlice : List UInt8 → Option Json)
    (decodeProto : List UInt8 → Option GetChatMessageResponse) (model executionId : Option String)
    (limits : DevinChatResponseLimits) (frames : List ConnectFrame)
    (hmeets : StepsMeet (after (decode fromSlice decodeProto)) (Meets fromSlice decodeProto)
      (withLimits model executionId limits) (body frames)) (d : DevinChatEventDecoder)
    (haccepted : (body frames).forM (decode fromSlice decodeProto) (withLimits model executionId limits) =
      .ok (⟨⟩, d)) : Finished d.out := by
  have hst : Kept (withLimits model executionId limits) :=
    .inl ⟨⟨Output.tracks_empty (Nat.zero_le _), rfl, rfl⟩, nofun⟩
  have hended := Triple.forM_concat_of_stepsMeet decode_spec finish_spec (frames.map .frame)
    (withLimits model executionId limits) ⟨⟩ d ⟨hst, hmeets⟩ haccepted
  exact hended.2

/-- Trailers of which one carries an error. -/
def sampleTrailers (payload : List UInt8) : Option Json :=
  if payload = [] then some (.object [])
  else some (.object [("error", .object [("code", .string "unavailable"), ("message", .string "try later")])])

/-- Three messages, numbered. -/
def sampleMessages : List UInt8 → Option GetChatMessageResponse
  | [0] => some { deltaThinking := "A question.", deltaSignature := "signed" }
  | [1] => some { deltaText := "Hello", deltaToolCalls := [⟨"call", "weather", "\x7b"⟩, ⟨"", "", "\x7b\x7d"⟩] }
  | [2] => some { deltaText := "again", usage := some ⟨9, 3, 0, 0⟩, stopReason := 10 }
  | _ => none

def sampleDecoder : DevinChatEventDecoder := withLimits (some "model") (some "execution") .default

def weatherFrames : List ConnectFrame := [⟨false, [0]⟩, ⟨false, [1]⟩, ⟨false, [2]⟩, ⟨true, []⟩]

theorem weatherFrames_valid :
    StepsMeet (after (decode sampleTrailers sampleMessages)) (Meets sampleTrailers sampleMessages) sampleDecoder
      (body weatherFrames) ∧
    ∃ d, (body weatherFrames).forM (decode sampleTrailers sampleMessages) sampleDecoder = .ok (⟨⟩, d) ∧
      d.out.events.length = 16 ∧ Finished d.out := by
  have hmeet : StepsMeet (after (decode sampleTrailers sampleMessages)) (Meets sampleTrailers sampleMessages)
      sampleDecoder (body weatherFrames) := by decide +kernel
  have hcnt : (((body weatherFrames).forM (decode sampleTrailers sampleMessages) sampleDecoder).map
      fun r => r.2.out.events.length) = .ok 16 := by
    decide +kernel
  obtain ⟨⟨_, d⟩, hacc, hlen⟩ := exists_of_map_eq_ok hcnt
  refine ⟨hmeet, d, hacc, hlen, ?_⟩
  exact decoded_devin_stream_valid sampleTrailers sampleMessages (some "model") (some "execution") .default
    weatherFrames hmeet d hacc

/-- A trailer with an error and no message before it: the failure has the smaller number. -/
theorem early_failure_accepted :
    ∃ d, (body [⟨true, [1]⟩]).forM (decode sampleTrailers sampleMessages) sampleDecoder = .ok (⟨⟩, d) ∧
      StreamValidator.default.acceptAll d.out.events = .error (.nonMonotonicSequence 2 1) ∧ ¬Finished d.out := by
  have href : (((body [⟨true, [1]⟩]).forM (decode sampleTrailers sampleMessages) sampleDecoder).map
      fun r => StreamValidator.default.acceptAll r.2.out.events) = .ok (.error (.nonMonotonicSequence 2 1)) := by
    decide +kernel
  obtain ⟨⟨_, d⟩, hacc, herr⟩ := exists_of_map_eq_ok href
  exact ⟨d, hacc, herr, fun hfin => Output.not_valid herr hfin.valid⟩

end Pooler.DevinChatEventDecoder
