import Pooler.Sanity.Fields
import Pooler.Sanity.Streams
import Pooler.Spec.Protocol.GeminiStream

/-! The events that the Gemini decoder returns form a valid stream without open blocks between the
objects, and it merges the parts that the provider marked as one call, as long as the provider's
identifiers are not empty and none of them is one that the decoder generates. -/

namespace Pooler.GeminiEventDecoder

open Lib Gemini List Bool Option OrderedMap Nat
open Triple (lift_bind failIf_bind get_bind modify_at modify_bind_at pure_at assuming)
open OpenAiChat (orError_eq_ok)

/-! ### The table of calls -/

/-- What the decoder knows of the function calls. -/
structure CallTable where
  nextCall : ℕ
  order : List String
  pending : OrderedMap String DecodedToolCall
  merged : OrderedMap String (List (Option String))

def table (d : GeminiEventDecoder) : CallTable := ⟨d.nextCall, d.pendingCallOrder, d.pendingCalls, d.merged⟩

variable (nextCall : ℕ)

/-- The identifiers that have been generated. -/
def generatedIds : List String := (List.range nextCall).map fun n => generatedId (n + 1)

theorem generatedId_ne (n : ℕ) : generatedId n ≠ "" := by
  simp [generatedId]

theorem mem_generatedIds {n : ℕ} (h : 1 ≤ n) : generatedId n ∈ generatedIds n := by
  refine mem_map.2 ⟨n - 1, mem_range.2 (by omega), ?_⟩
  rw [Nat.sub_add_cancel h]

theorem generatedIds_subset {m n : ℕ} (h : m ≤ n) : generatedIds m ⊆ generatedIds n :=
  map_subset _ fun _ hk => mem_range.2 ((mem_range.1 hk).trans_le h)

/-- Two parts belong to one call only if the provider gave both its identifier. -/
def Separate (merged : OrderedMap String (List (Option String))) : Prop :=
  ∀ id parts, merged.get id = some parts → 1 < parts.length → ∀ given ∈ parts, given = some id

/-- Before the calls are emitted. -/
structure CallTable.Ok (t : CallTable) : Prop where
  counted : t.nextCall ≤ u64Max
  named : ∀ id ∈ t.order, id ≠ ""
  listed : ∀ id, id ∈ t.order ↔ (t.pending.get id).isSome = true
  recorded : ∀ id parts, t.merged.get id = some parts → id ∈ t.order
  own : ∀ id parts, t.merged.get id = some parts → ∀ given ∈ parts, given = none ∨ given = some id
  missing : ∀ id parts, t.merged.get id = some parts → none ∈ parts → id ∈ generatedIds t.nextCall
  separate : Separate t.merged

/-- The order with an identifier that may be in it. -/
def listing (order : List String) (id : String) : List String := if id ∈ order then order else order ++ [id]

theorem mem_listing {order id a} : a ∈ listing order id ↔ a ∈ order ∨ a = id := by
  unfold listing
  split
  next h =>
    refine ⟨.inl, ?_⟩
    rintro (ha | rfl)
    · exact ha
    · exact h
  · simp

/-- The identifier of the next part, and the number of the last generated one. -/
def assign : Option String → String × ℕ
  | some id => (id, nextCall)
  | none => (generatedId (satAdd u64Max nextCall 1), satAdd u64Max nextCall 1)

/-- The provider's identifier is not a generated one, or the generated one is not taken. -/
def fits (order : List String) : Option String → Bool
  | some id => id ≠ "" && !(generatedIds nextCall).contains id
  | none => !order.contains (generatedId (satAdd u64Max nextCall 1))

variable {given : Option String}

theorem assign_ne {nextCall : ℕ} {order} (h : fits nextCall order given = true) : (assign nextCall given).1 ≠ "" := by
  cases given with
  | none => exact generatedId_ne _
  | some =>
    simp only [fits, and_eq_true, decide_eq_true_eq] at h
    exact h.1

theorem assign_counted {nextCall : ℕ} (given : Option String) (h : nextCall ≤ u64Max) :
    nextCall ≤ (assign nextCall given).2 ∧ (assign nextCall given).2 ≤ u64Max := by
  cases given with
  | some => exact ⟨le_rfl, h⟩
  | none => exact ⟨le_min h (le_succ _), satAdd_le_cap _ _ _⟩

namespace CallTable

variable {t : CallTable} {given : Option String}

/-- The table after one more part. -/
def record (t : CallTable) (given : Option String) (call : DecodedToolCall) : CallTable :=
  let id := (assign t.nextCall given).1
  ⟨(assign t.nextCall given).2, listing t.order id, t.pending.insert id call,
    t.merged.insert id ((t.merged.get id).getD [] ++ [given])⟩

theorem Ok.parts (h : t.Ok) (hf : fits t.nextCall t.order given = true) :
    (∀ other ∈ (t.merged.get (assign t.nextCall given).1).getD [] ++ [given], other = some (assign t.nextCall given).1) ∨
    ((t.merged.get (assign t.nextCall given).1).getD [] ++ [given] = [none] ∧
      (assign t.nextCall given).1 ∈ generatedIds (assign t.nextCall given).2) := by
  cases given with
  | some id =>
    simp only [fits, and_eq_true, not_eq_true', contains_eq_mem, decide_eq_false_iff_not] at hf
    refine .inl fun other hoth => ?_
    simp only [assign] at hoth ⊢
    rcases mem_append.1 hoth with hoth | hoth
    · cases hpts : t.merged.get id with
      | none => rw [hpts] at hoth; cases hoth
      | some parts =>
        rw [hpts, getD_some] at hoth
        rcases h.own id parts hpts other hoth with rfl | hown
        · exact absurd (h.missing id parts hpts hoth) hf.2
        · exact hown
    · exact mem_singleton.1 hoth
  | none =>
    simp only [fits, not_eq_true', contains_eq_mem, decide_eq_false_iff_not] at hf
    have hone : 1 ≤ satAdd u64Max t.nextCall 1 := le_min (by decide) (le_add_left 1 _)
    refine .inr ⟨?_, mem_generatedIds hone⟩
    simp only [assign]
    cases hpts : t.merged.get (generatedId (satAdd u64Max t.nextCall 1)) with
    | none => rfl
    | some parts => exact absurd (h.recorded _ parts hpts) hf

theorem Ok.record (h : t.Ok) (hf : fits t.nextCall t.order given = true) (call : DecodedToolCall) :
    (t.record given call).Ok := by
  have hcntd := assign_counted given h.counted
  have hne := assign_ne hf
  have hpts := h.parts hf
  unfold CallTable.record
  generalize assign t.nextCall given = next at hcntd hne hpts ⊢
  obtain ⟨id, nextCall⟩ := next
  dsimp only at hcntd hpts ⊢
  generalize (t.merged.get id).getD [] ++ [given] = added at hpts ⊢
  refine ⟨hcntd.2, ?_, ?_, ?_, ?_, ?_, ?_⟩
  · intro a ha
    rcases mem_listing.1 ha with hold | rfl
    · exact h.named a hold
    · exact hne
  · intro a
    change a ∈ listing t.order id ↔ ((t.pending.insert id call).get a).isSome = true
    rw [mem_listing, get_insert, h.listed]
    split
    next heq => simp [heq]
    next hoth => simp [Ne.symm hoth]
  · exact forall_insert (mem_listing.2 (.inr rfl)) fun a parts _ hold => mem_listing.2 (.inl (h.recorded a parts hold))
  · refine forall_insert (fun other hoth => ?_) fun a parts _ hold => h.own a parts hold
    rcases hpts with hall | ⟨rfl, -⟩
    · exact .inr (hall other hoth)
    · exact .inl (mem_singleton.1 hoth)
  · refine forall_insert (fun hn => ?_) fun a parts _ hold hn =>
      generatedIds_subset hcntd.1 (h.missing a parts hold hn)
    rcases hpts with hall | ⟨-, hgen⟩
    · cases hall none hn
    · exact hgen
  · refine forall_insert (fun hlen other hoth => ?_) fun a parts _ hold => h.separate a parts hold
    rcases hpts with hall | ⟨rfl, -⟩
    · exact hall other hoth
    · exact absurd hlen (by decide)

end CallTable

/-- Every part of the calls that still come fits when its turn comes. -/
def separates : ℕ → List String → List (Option String) → Bool
  | _, _, [] => true
  | nextCall, order, given :: rest =>
    fits nextCall order given && separates (assign nextCall given).2 (listing order (assign nextCall given).1) rest

/-- The table is in order, and stays so with the calls that still come. -/
structure Ready (calls : List (Option String)) (t : CallTable) : Prop where
  ok : t.Ok
  separates : separates t.nextCall t.order calls = true

variable {calls : List (Option String)}

theorem Ready.record {t}
    (h : Ready (given :: calls) t) (call : DecodedToolCall) : Ready calls (t.record given call) := by
  have hsep := h.separates
  rw [GeminiEventDecoder.separates, and_eq_true] at hsep
  exact ⟨h.ok.record hsep.1 call, hsep.2⟩

/-! ### The state between events -/

/-- Before the end of the response. Room is kept to emit every pending call. -/
structure Live (room : ℕ) (blocks : List String) (q : CallTable → Prop) (d : GeminiEventDecoder) : Prop where
  tracks : d.out.Tracks (3 * d.pendingCallOrder.length + room) d.responseStarted false blocks
  running : d.completed = false
  table : q d.table

variable {d : GeminiEventDecoder} {room : ℕ} {blocks : List String} {q : CallTable → Prop}
  {kind : StreamEventKind} {id : String}

theorem Live.mono {less : ℕ} (h : Live room blocks q d) (hle : less ≤ room) : Live less blocks q d :=
  ⟨h.tracks.mono (by omega), h.running, h.table⟩

theorem event_plain (hact : kind.blockAction = none) (hkind : kind.Inner) (blockId : Option String) :
    Leads (Live (room + 1) blocks q) (event kind blockId) (Live room blocks q) :=
  Triple.modify fun _ h => ⟨h.tracks.quiet hact hkind, h.running, h.table⟩

theorem event_opens (hkind : kind.Inner) (hact : kind.Opens (some id) id) (hne : id ≠ "") :
    Leads (Live (room + 1) [] q) (event kind id) (Live room [id] q) :=
  Triple.modify fun _ h => ⟨h.tracks.opens hkind hact hne not_mem_nil, h.running, h.table⟩

theorem event_continues (hkind : kind.Inner) (hact : kind.Continues (some id) id) :
    Leads (Live (room + 1) [id] q) (event kind id) (Live room [id] q) :=
  Triple.modify fun _ h => ⟨h.tracks.continues hkind hact mem_cons_self, h.running, h.table⟩

theorem event_closes (hkind : kind.Inner) (hact : kind.Closes (some id) id) :
    Leads (Live (room + 1) [id] q) (event kind id) (Live room [] q) :=
  Triple.modify fun _ h => ⟨h.tracks.closes hkind hact, h.running, h.table⟩

/-! ### Parts of text -/

theorem blockId_spec (kind : String) :
    Triple (Live room [] q) (blockId kind) (fun id d => Live room [] q d ∧ id ≠ "") := by
  refine assuming fun d h => modify_bind_at (Triple.get_bind_at (pure_at ⟨?_, ?_⟩))
  · exact ⟨h.tracks, h.running, h.table⟩
  · simp

theorem wholeBlock_spec {start delta stop text} (hne : id ≠ "")
    (hst : start.Inner ∧ start.Opens (some id) id) (hdlt : delta.Inner ∧ delta.Continues (some id) id)
    (hstop : stop.Inner ∧ stop.Closes (some id) id) :
    Leads (Live (room + 3) [] q)
      (event start id >>= fun _ => eventIfText text (event delta id) >>= fun _ => event stop id)
      (Live room [] q) :=
  Triple.bind (event_opens hst.1 hst.2 hne) fun _ => Triple.bind
    (eventIfText_spec (event_continues hdlt.1 hdlt.2) fun _ h => h.mono (by omega)) fun _ =>
    event_closes hstop.1 hstop.2

theorem decodeThought_spec (text : String) (signature : Option (List UInt8)) :
    Leads (Live (room + 3) [] q) (decodeThought text signature) (Live room [] q) :=
  Triple.bind (blockId_spec "reasoning") fun _ => assuming fun _ ⟨h, hne⟩ =>
    (wholeBlock_spec hne ⟨⟨rfl, rfl⟩, fun _ _ => rfl⟩ ⟨⟨rfl, rfl⟩, fun _ _ => rfl⟩ ⟨⟨rfl, rfl⟩, fun _ _ => rfl⟩).known h

theorem decodeText_spec (text : String) : Leads (Live (room + 3) [] q) (decodeText text) (Live room [] q) :=
  Triple.bind (blockId_spec "text") fun _ => assuming fun _ ⟨h, hne⟩ =>
    (wholeBlock_spec hne ⟨⟨rfl, rfl⟩, fun _ _ => rfl⟩ ⟨⟨rfl, rfl⟩, fun _ _ => rfl⟩ ⟨⟨rfl, rfl⟩, fun _ _ => rfl⟩).known h

theorem decodeTextPart_spec (part : Assoc String Json) (value : Json) (signature : Option (List UInt8)) :
    Leads (Live (room + 3) [] q) (decodeTextPart part value signature) (Live room [] q) := by
  refine lift_bind fun text _ => ?_
  split
  · exact decodeThought_spec text signature
  · exact decodeText_spec text

/-! ### Function calls -/

theorem callId_spec (given : Option String) : Triple (fun s => s = d) (callId given) (fun id s =>
    id = (assign d.nextCall given).1 ∧ s = { d with nextCall := (assign d.nextCall given).2 }) := by
  cases given with
  | some => exact pure_at ⟨rfl, rfl⟩
  | none => exact modify_bind_at (Triple.get_bind_at (pure_at ⟨rfl, rfl⟩))

theorem enterCall_spec (hlis : id ∈ d.pendingCallOrder ↔ (d.pendingCalls.get id).isSome = true) (name : String)
    (args : Assoc String Json) (signature : Option (List UInt8)) :
    Triple (fun s => s = d) (enterCall id name args signature (d.pendingCalls.get id)) (fun _ s => ∃ call,
      s = { d with
        pendingCallOrder := listing d.pendingCallOrder id, pendingCalls := d.pendingCalls.insert id call }) := by
  cases hg : d.pendingCalls.get id with
  | some =>
    rw [hg] at hlis
    have hsame : listing d.pendingCallOrder id = d.pendingCallOrder := if_pos (hlis.2 rfl)
    rw [hsame]
    exact failIf_bind fun _ => failIf_bind fun _ => modify_at ⟨_, rfl⟩
  | none =>
    rw [hg] at hlis
    have hw : listing d.pendingCallOrder id = d.pendingCallOrder ++ [id] :=
      if_neg fun hm => false_ne_true (hlis.1 hm)
    rw [hw]
    exact modify_at ⟨_, rfl⟩

theorem accumulateToolCall_spec (hlis : id ∈ d.pendingCallOrder ↔ (d.pendingCalls.get id).isSome = true)
    (name : String) (args : Assoc String Json) (signature : Option (List UInt8)) :
    Triple (fun s => s = d) (accumulateToolCall id name args signature) (fun _ s => ∃ call, s = { d with
      pendingCallOrder := listing d.pendingCallOrder id, pendingCalls := d.pendingCalls.insert id call
      sawToolCall := true }) := by
  refine Triple.get_bind_at (Triple.bind (enterCall_spec hlis name args signature) fun _ =>
    Triple.modify fun s hs => ?_)
  obtain ⟨call, rfl⟩ := hs
  exact ⟨call, rfl⟩

theorem length_listing_le (order : List String) (id : String) : (listing order id).length ≤ order.length + 1 := by
  unfold listing
  split <;> simp

variable {object : Assoc String Json}

theorem optionalField_eq_none {α : Type} {key}
    {read : Json → Except GeminiError α} (h : optionalField object key read = .ok none) : object.get key = none := by
  unfold optionalField at h
  split at h
  next hg => exact hg
  · obtain ⟨_, _, hsome⟩ := map_eq_ok.1 h
    cases hsome

theorem optionalField_eq_some {α : Type} {key read} {a : α} (h : optionalField object key read = .ok (some a)) :
    ∃ value, object.get key = some value ∧ read value = .ok a := by
  unfold optionalField at h
  split at h
  · cases h
  next value hg =>
    obtain ⟨_, hrd, hsome⟩ := map_eq_ok.1 h
    cases hsome
    exact ⟨value, hg, hrd⟩

/-- What the provider gave as identifier of a function call. -/
def givenId (call : Json) : Option String := (call.asObject.bind (·.get "id")).bind Json.asStr

theorem givenId_eq {value call} (hcall : value.asObject = some call)
    (hgiv : optionalField call "id" (asString · "part.functionCall.id") = .ok given) : givenId value = given := by
  rw [givenId, hcall]
  cases given with
  | none => simp [optionalField_eq_none hgiv]
  | some =>
    obtain ⟨text, hg, hrd⟩ := optionalField_eq_some hgiv
    simp [hg, orError_eq_ok.1 hrd]

theorem decodeFunctionCall_spec (value : Json) (signature : Option (List UInt8)) :
    Leads (Live (room + 3) [] (Ready (givenId value :: calls))) (decodeFunctionCall value signature)
      (Live room [] (Ready calls)) := by
  refine lift_bind fun call hcall => lift_bind fun given hgiv => assuming fun d h => ?_
  rw [givenId_eq (orError_eq_ok.1 hcall) hgiv] at h
  refine Triple.bind (callId_spec given) fun id => lift_bind fun name _ => lift_bind fun args _ =>
    assuming fun numbered hnum => ?_
  obtain ⟨rfl, rfl⟩ := hnum
  refine Triple.bind (accumulateToolCall_spec (d := { d with nextCall := (assign d.nextCall given).2 })
    (h.table.ok.listed _) name args signature) fun _ => assuming fun pending hpend => ?_
  obtain ⟨call, rfl⟩ := hpend
  refine modify_at ⟨h.tracks.mono ?_, h.running, h.table.record call⟩
  have hlen := length_listing_le d.pendingCallOrder (assign d.nextCall given).1
  change 3 * (listing d.pendingCallOrder (assign d.nextCall given).1).length + room ≤ _
  omega

/-! ### Parts -/

section
variable {toText : Json → String} {decodeBase64 : String → Option (List UInt8)}

/-- What the provider gave as identifier, if the part is a function call. -/
def calledId (part : Json) : Option (Option String) :=
  part.asObject.bind fun object => if (object.get "text").isSome then none else (object.get "functionCall").map givenId

theorem mediaEvent_spec (media : String × MediaSource) :
    Leads (Live (room + 1) [] q) (mediaEvent media) (Live room [] q) := event_plain rfl ⟨rfl, rfl⟩ none

theorem decodeResponsePart_spec (idx : ℕ) (value : Json) {parts} :
    Leads (Live (room + 3) [] (Ready ((value :: parts).filterMap calledId)))
      (decodeResponsePart toText decodeBase64 idx value) (Live room [] (Ready (parts.filterMap calledId))) := by
  refine lift_bind fun part hpart => lift_bind fun signature _ => ?_
  have hobj : value.asObject = some part := orError_eq_ok.1 hpart
  have hless : ∀ {prog : Decode Unit} {q : CallTable → Prop},
      Leads (Live (room + 1) [] q) prog (Live room [] q) →
      Leads (Live (room + 3) [] q) prog (Live room [] q) := fun hprog =>
    hprog.of_pre (fun _ h => h.mono (by omega))
  have hcal : calledId value = if (part.get "text").isSome then none else (part.get "functionCall").map givenId := by
    rw [calledId, hobj, bind_some]
  unfold decodePart
  split
  next text htext =>
    rw [htext] at hcal
    rw [filterMap_cons_none hcal]
    exact decodeTextPart_spec part text signature
  next call htext hcall =>
    rw [htext, hcall] at hcal
    rw [filterMap_cons_some hcal]
    exact decodeFunctionCall_spec call signature
  next data htext hcall _ =>
    rw [htext, hcall] at hcal
    rw [filterMap_cons_none hcal]
    exact hless (lift_bind fun media _ => mediaEvent_spec media)
  next htext hcall _ _ =>
    rw [htext, hcall] at hcal
    rw [filterMap_cons_none hcal]
    exact hless (lift_bind fun media _ => mediaEvent_spec media)
  next htext hcall _ _ =>
    rw [htext, hcall] at hcal
    rw [filterMap_cons_none hcal]
    exact hless (event_plain rfl ⟨rfl, rfl⟩ none)

theorem parts_spec (parts : List Json) (start : ℕ) :
    Leads (Live (3 * parts.length + room) [] (Ready (parts.filterMap calledId)))
      ((parts.zipIdx start).forM fun part => decodeResponsePart toText decodeBase64 part.2 part.1)
      (Live room [] CallTable.Ok) := by
  induction parts generalizing start with
  | nil => exact Triple.pure fun _ h => ⟨h.tracks.mono (by omega), h.running, h.table.ok⟩
  | cons part parts ih =>
    rw [zipIdx_cons]
    change Triple _ (decodeResponsePart toText decodeBase64 start part >>= fun _ => _) _
    refine Triple.bind ((decodeResponsePart_spec start part).of_pre (fun _ h => h.mono ?_)) fun _ => ih (start + 1)
    rw [length_cons]
    omega

def arrayAt (object : Assoc String Json) (key : String) : List Json := ((object.get key).bind Json.asArray).getD []

theorem arrayAt_eq {key field items}
    (h : optionalField object key (asArray · field) = .ok items) : arrayAt object key = items.getD [] := by
  cases items with
  | none => rw [arrayAt, optionalField_eq_none h, bind_none]
  | some =>
    obtain ⟨value, hg, hrd⟩ := optionalField_eq_some h
    rw [arrayAt, hg, bind_some, orError_eq_ok.1 hrd]

def candidateParts (candidate : Json) : List Json :=
  ((candidate.asObject.bind (·.get "content")).bind Json.asObject).elim [] (arrayAt · "parts")

theorem decodeContentOf_spec {value candidate} (hobj : value.asObject = some candidate) :
    Leads (Live (3 * (candidateParts value).length + room) [] (Ready ((candidateParts value).filterMap calledId)))
      (decodeContentOf toText decodeBase64 candidate) (Live room [] CallTable.Ok) := by
  unfold candidateParts decodeContentOf
  rw [hobj, bind_some]
  cases candidate.get "content" with
  | none => exact Triple.pure fun _ h => ⟨h.tracks.mono (by simp), h.running, h.table.ok⟩
  | some =>
    refine lift_bind fun object hcont => lift_bind fun _ _ => lift_bind fun parts hpts => ?_
    rw [bind_some, orError_eq_ok.1 hcont, elim_some, arrayAt_eq hpts]
    exact parts_spec (parts.getD []) 0

/-! ### The end of the response -/

/-- One validator accepts the events, no block is open, and parts are merged only as the provider
says. -/
structure Sound (d : GeminiEventDecoder) : Prop where
  closed : ∃ v, StreamValidator.default.acceptAll d.out.events = .ok v ∧ v.openBlocks = []
  separate : Separate d.merged

/-- Either the response goes on, or it has ended. -/
def Kept (d : GeminiEventDecoder) : Prop := Live 0 [] CallTable.Ok d ∨ (d.completed = true ∧ Sound d)

theorem closed_of_tracks {out : Output} {started completed} (h : out.Tracks room started completed []) :
    ∃ v, StreamValidator.default.acceptAll out.events = .ok v ∧ v.openBlocks = [] := by
  obtain ⟨v, hacpt, -, -, hp, -⟩ := h
  exact ⟨v, hacpt, hp.eq_nil⟩

theorem Live.ends (h : Live (room + 1) [] q d) (hact : kind.blockAction = none) (hst : kind.isResponseStart = false) :
    ∃ v, StreamValidator.default.acceptAll (d.out.event kind none).events = .ok v ∧ v.openBlocks = [] :=
  closed_of_tracks (h.tracks.plain hact (by simp [hst]))

theorem decodeError_spec (value : Json) : Leads (Live 1 [] CallTable.Ok) (decodeError value) Kept :=
  lift_bind fun _ _ => lift_bind fun _ _ => assuming fun _ h =>
    modify_bind_at (modify_at (.inr ⟨rfl, h.ends rfl rfl, h.table.separate⟩))

theorem finishToolCall_spec (hne : id ≠ "") (call : DecodedToolCall) :
    Leads (Live (room + 3) [] q) (finishToolCall toText id call) (Live room [] q) :=
  Triple.bind (event_opens ⟨rfl, rfl⟩ (fun _ _ => rfl) hne) fun _ =>
    Triple.bind (event_continues ⟨rfl, rfl⟩ fun _ _ => rfl) fun _ => event_closes ⟨rfl, rfl⟩ fun _ _ => rfl

theorem finishCalls_spec (order : List String) (hnmd : ∀ id ∈ order, id ≠ "") :
    ∀ calls, Leads (Live (3 * order.length + room) [] q) (finishCalls toText order calls) (Live room [] q) := by
  induction order with
  | nil => exact fun _ => Triple.pure fun _ h => h.mono (by omega)
  | cons id order ih =>
    intro calls
    refine lift_bind fun call _ => Triple.bind
      ((finishToolCall_spec (hnmd id mem_cons_self) call).of_pre (fun _ h => h.mono ?_))
      fun _ => ih (fun other hoth => hnmd other (mem_cons_of_mem id hoth)) (calls.erase id)
    rw [length_cons]
    omega

theorem finishToolCalls_spec : Leads (Live room [] CallTable.Ok) (finishToolCalls toText)
    (Live room [] (fun t => Separate t.merged)) := by
  refine get_bind fun d h => modify_bind_at ?_
  refine (finishCalls_spec d.pendingCallOrder h.table.named d.pendingCalls).known ?_
  exact ⟨h.tracks.mono (by simp), h.running, h.table.separate⟩

theorem usageIfAny_spec (usage : Option Usage) : Leads (Live (room + 1) [] q) (usageIfAny usage) (Live room [] q) := by
  cases usage with
  | none => exact Triple.pure fun _ h => h.mono (by omega)
  | some => exact event_plain rfl ⟨rfl, rfl⟩ none

variable (candidate : Assoc String Json)

theorem metadataIfAny_spec : Leads (Live (room + 1) [] q) (metadataIfAny candidate) (Live room [] q) := by
  unfold metadataIfAny
  split
  · exact event_plain rfl ⟨rfl, rfl⟩ none
  · exact Triple.pure fun _ h => h.mono (by omega)

theorem finishCandidate_spec (usage : Option Usage) :
    Leads (Live 2 [] CallTable.Ok) (finishCandidate toText candidate usage) Kept := by
  unfold finishCandidate
  split
  · exact (Triple.bind (metadataIfAny_spec candidate) fun _ => usageIfAny_spec usage).of_post fun _ _ h => .inl h
  next =>
    split
    · exact assuming fun _ h => modify_bind_at (modify_at (.inr ⟨rfl, h.ends rfl rfl, h.table.separate⟩))
    · exact Triple.bind finishToolCalls_spec fun _ => assuming fun _ h => modify_bind_at
        (Triple.get_bind_at (modify_at (.inr ⟨rfl, h.ends rfl rfl, h.table⟩)))

theorem decodeCandidate_spec (value : Json) (usage : Option Usage) :
    Leads (Live (3 * (candidateParts value).length + 2) [] (Ready ((candidateParts value).filterMap calledId)))
      (decodeCandidate toText decodeBase64 value usage) Kept :=
  lift_bind fun candidate hcand => lift_bind fun _ _ =>
    Triple.bind (decodeContentOf_spec (orError_eq_ok.1 hcand)) fun _ => finishCandidate_spec candidate usage

theorem decodeWithoutCandidate_spec (object : Assoc String Json) (usage : Option Usage) :
    Leads (Live 2 [] CallTable.Ok) (decodeWithoutCandidate object usage) Kept := by
  unfold decodeWithoutCandidate
  split
  · exact assuming fun _ h => modify_bind_at (lift_bind fun _ _ =>
      modify_at (.inr ⟨rfl, h.ends rfl rfl, h.table.separate⟩))
  · exact (usageIfAny_spec usage).of_post fun _ _ h => .inl (h.mono (by omega))

/-! ### Objects -/

theorem updateIdentity_spec (object : Assoc String Json) :
    Leads (Live room [] q) (updateIdentity object) (Live room [] q) :=
  get_bind fun _ h => lift_bind fun _ _ => lift_bind fun _ _ => modify_at ⟨h.tracks, h.running, h.table⟩

theorem ensureStarted_spec : Leads (Live (room + 1) [] q) ensureStarted (Live room [] q) := by
  refine get_bind fun d h => ?_
  split
  · exact pure_at (h.mono (by omega))
  next hfst =>
    refine modify_bind_at (modify_at ⟨?_, h.running, h.table⟩)
    have htrk := h.tracks
    rw [not_eq_true _ |>.mp hfst] at htrk
    exact htrk.starts _ _

/-- The parts of a response, which an error leaves out. -/
def responseParts (object : Assoc String Json) : List Json :=
  if (object.get "error").isSome then [] else (arrayAt object "candidates").head?.elim [] candidateParts

theorem decodeFields_spec (herr : object.get "error" = none) :
    Leads (Live (3 * (responseParts object).length + 3) [] (Ready ((responseParts object).filterMap calledId)))
      (decodeFields toText decodeBase64 object) Kept := by
  refine Triple.bind (updateIdentity_spec object) fun _ => Triple.bind ensureStarted_spec fun _ =>
    lift_bind fun usage _ => lift_bind fun candidates hcan => failIf_bind fun _ => ?_
  have hpts : responseParts object = (candidates.getD []).head?.elim [] candidateParts := by
    rw [responseParts, herr, arrayAt_eq hcan]
    rfl
  rw [hpts]
  cases (candidates.getD []).head? with
  | none =>
    exact (decodeWithoutCandidate_spec object usage).weaken (fun _ h => ⟨h.tracks, h.running, h.table.ok⟩)
      fun _ _ h => h
  | some candidate => exact decodeCandidate_spec candidate usage

def objectParts (value : Json) : List Json := value.asObject.elim [] responseParts

/-- The provider's identifiers are not empty and none of them is one that the decoder generates, and
the events of the object can be numbered. -/
def Meets (d : GeminiEventDecoder) (value : Json) : Prop :=
  separates d.nextCall d.pendingCallOrder ((objectParts value).filterMap calledId) = true ∧
    d.out.nextSequence + (3 * d.pendingCallOrder.length + (3 * (objectParts value).length + 3)) ≤ u64Max

instance (d : GeminiEventDecoder) (value : Json) : Decidable (Meets d value) := inferInstanceAs (Decidable (_ ∧ _))

theorem decodeChunk_spec (toText : Json → String) (decodeBase64 : String → Option (List UInt8)) (value : Json) :
    Leads (fun d => Kept d ∧ Meets d value) (decodeChunk toText decodeBase64 value) Kept := by
  refine get_bind fun d ⟨hkept, hsep, hrm⟩ => failIf_bind fun hrunn => lift_bind fun object hobj => ?_
  have hpts : objectParts value = responseParts object := by rw [objectParts, orError_eq_ok.1 hobj]; rfl
  rw [hpts] at hsep hrm
  rcases hkept with hl | ⟨hdone, -⟩
  · have hrdy : Live (3 * (responseParts object).length + 3) []
        (Ready ((responseParts object).filterMap calledId)) d :=
      ⟨(hl.tracks.mono (zero_le _)).raise hrm, hl.running, hl.table, hsep⟩
    cases herr : object.get "error" with
    | some error =>
      refine (decodeError_spec error).known ?_
      exact ⟨hrdy.tracks.mono (by omega), hrdy.running, hl.table⟩
    | none => exact (decodeFields_spec herr).known hrdy
  · rw [hrunn] at hdone
    cases hdone

end

theorem ok_default : default.table.Ok where
  counted := zero_le _
  named := nofun
  listed := fun id => by simp [table, default]
  recorded := nofun
  own := nofun
  missing := nofun
  separate := nofun

/-- Every stream of objects that the decoder accepts is sound, and so are its beginnings, which are
accepted as well. -/
theorem decoded_objects_sound (toText : Json → String) (decodeBase64 : String → Option (List UInt8))
    (stream : List Json) (hmeets : StepsMeet (after (decodeChunk toText decodeBase64)) Meets default stream)
    (d : GeminiEventDecoder) (haccepted : stream.forM (decodeChunk toText decodeBase64) default = .ok (⟨⟩, d)) :
    d.Sound := by
  have hst : Live 0 [] CallTable.Ok default := ⟨Output.tracks_empty (by decide), rfl, ok_default⟩
  have hkept := Triple.forM_of_stepsMeet (decodeChunk_spec toText decodeBase64) stream default ⟨⟩ d
    ⟨.inl hst, hmeets⟩ haccepted
  rcases hkept with hl | ⟨-, hsd⟩
  · exact ⟨closed_of_tracks hl.tracks, hl.table.separate⟩
  · exact hsd

def response (parts : List Json) (fields : Assoc String Json) : Json :=
  .object [("candidates", .array [.object (("content", .object [("parts", .array parts)]) :: fields)])]

def calling (call : Assoc String Json) : Json := .object [("functionCall", .object call)]

def weatherCall : Json := calling [("args", .object [("city", .string "Bern")]), ("name", .string "weather")]

/-- A call in two parts that the provider names, and two that it does not. -/
def weatherResponse : List Json :=
  [response [.object [("text", .string "A question."), ("thought", .bool true)], .object [("text", .string "Hello")],
      calling [("id", .string "call"), ("name", .string "weather")], weatherCall] [],
    response [calling [("args", .object [("city", .string "Bern")]), ("id", .string "call"),
      ("name", .string "weather")], weatherCall] [("finishReason", .string "STOP")]]

def noText : Json → String := fun _ => ""

def noBytes : String → Option (List UInt8) := fun _ => none

theorem weatherResponse_sound :
    StepsMeet (after (decodeChunk noText noBytes)) Meets default weatherResponse ∧
      ∃ d, weatherResponse.forM (decodeChunk noText noBytes) default = .ok (⟨⟩, d) ∧
        d.out.events.length = 17 ∧ d.Sound := by
  have hmeet : StepsMeet (after (decodeChunk noText noBytes)) Meets default weatherResponse := by decide +kernel
  have hcnt : ((weatherResponse.forM (decodeChunk noText noBytes) default).map fun r => r.2.out.events.length) =
      .ok 17 := by
    decide +kernel
  obtain ⟨⟨_, d⟩, hacc, hlen⟩ := exists_of_map_eq_ok hcnt
  exact ⟨hmeet, d, hacc, hlen, decoded_objects_sound noText noBytes weatherResponse hmeet d hacc⟩

/-- A call without an identifier, and one whose identifier is the one that the first call gets. -/
def namedLikeGenerated : List Json :=
  [response [weatherCall, calling [("args", .object [("city", .string "Thun")]), ("id", .string "gemini-call-1"),
    ("name", .string "weather")]] [("finishReason", .string "STOP")]]

theorem unnamed_call_is_merged :
    ∃ d, namedLikeGenerated.forM (decodeChunk noText noBytes) default = .ok (⟨⟩, d) ∧
      d.out.events.countP (fun e => e.kind = .toolCallStart "gemini-call-1" "weather") = 1 ∧
      d.merged.get "gemini-call-1" = some [none, some "gemini-call-1"] ∧ ¬d.Sound := by
  have hrun : ((namedLikeGenerated.forM (decodeChunk noText noBytes) default).map fun r =>
      (r.2.out.events.countP (fun e => e.kind = .toolCallStart "gemini-call-1" "weather"),
        r.2.merged.get "gemini-call-1")) = .ok (1, some [none, some "gemini-call-1"]) := by
    decide +kernel
  obtain ⟨⟨_, d⟩, hacc, hres⟩ := exists_of_map_eq_ok hrun
  obtain ⟨hcnt, hmgd⟩ := Prod.mk.inj hres
  refine ⟨d, hacc, hcnt, hmgd, fun hsd => ?_⟩
  exact some_ne_none _ (hsd.separate _ _ hmgd (by decide) none mem_cons_self).symm

end Pooler.GeminiEventDecoder
