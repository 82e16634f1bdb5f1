import Pooler.Spec.Protocol.Events

/-! What it takes for a validator to accept the events of a decoder: the decoder knows which blocks
are open, and its counter has room for the numbers it still gives out. -/

namespace Pooler

open Lib List

variable {events : List StreamEvent} {e : StreamEvent}

namespace StreamValidator

theorem acceptAll_append {validator v : StreamValidator} (e : StreamEvent)
    (h : validator.acceptAll events = .ok v) : validator.acceptAll (events ++ [e]) = v.accept e := by
  rw [acceptAll, foldlM_append]
  rw [acceptAll] at h
  rw [h]
  change (v.accept e >>= fun v' => pure v') = _
  cases v.accept e with
  | error | ok => rfl

theorem accept_eq_ok {v : StreamValidator} {blocks} (hterm : v.terminal = false)
    (hseq : ∀ n ∈ v.lastSequence, n < e.sequence) (hst : e.kind.isResponseStart = true → v.responseStarted = false)
    (hblks : acceptBlock v.openBlocks e = .ok blocks) :
    v.accept e = .ok ⟨some e.sequence, v.responseStarted || e.kind.isResponseStart, e.kind.isTerminal, blocks⟩ := by
  have hfil : v.lastSequence.filter (e.sequence ≤ ·) = none := by
    rw [Option.filter_eq_none_iff]
    intro n hn
    simpa using hseq n hn
  have hfst : (e.kind.isResponseStart && v.responseStarted) = false := by
    by_cases h : e.kind.isResponseStart = true
    · simp [hst h]
    · simp [h]
  simp only [accept, hterm, Bool.false_eq_true, if_false, hfil, hfst, hblks]
  rfl

/-- An accepted event before the end of the stream is not a final one. -/
theorem accept_terminal {v v' : StreamValidator} (h : v.accept e = .ok v') :
    v.terminal = false ∧ v'.terminal = e.kind.isTerminal := by
  unfold accept at h
  split at h
  · cases h
  next hterm =>
    split at h
    · cases h
    · split at h
      · cases h
      · obtain ⟨blocks, -, h⟩ := bind_eq_ok.1 h
        cases h
        exact ⟨by simpa using hterm, rfl⟩

theorem isTerminal_of_acceptAll : ∀ {validator v : StreamValidator},
    validator.acceptAll events = .ok v → v.terminal = false → ∀ e ∈ events, e.kind.isTerminal = false := by
  induction events with
  | nil => intro _ _ _ _ e he; cases he
  | cons first events ih =>
    intro validator v h hv e he
    rw [acceptAll, foldlM_cons] at h
    obtain ⟨mid, hfst, hr⟩ := bind_eq_ok.1 h
    have hmid : mid.terminal = false := by
      cases events with
      | nil => cases hr; exact hv
      | cons =>
        rw [foldlM_cons] at hr
        obtain ⟨_, hsec, -⟩ := bind_eq_ok.1 hr
        exact (accept_terminal hsec).1
    rcases mem_cons.1 he with rfl | he
    · rw [← (accept_terminal hfst).2, hmid]
    · exact ih hr hv e he

end StreamValidator

open StreamValidator

namespace StreamEventKind

/-- Neither the first nor the last event of a response. -/
abbrev Inner (kind : StreamEventKind) : Prop := kind.isResponseStart = false ∧ kind.isTerminal = false

variable (kind : StreamEventKind) (blockId : Option String) (id : String)

/-! What the event does to the block. -/

abbrev Opens : Prop := ∀ current n, acceptBlock current ⟨n, blockId, kind⟩ = startBlock current id

abbrev Continues : Prop := ∀ current n, acceptBlock current ⟨n, blockId, kind⟩ = continueBlock current id

abbrev Closes : Prop := ∀ current n, acceptBlock current ⟨n, blockId, kind⟩ = endBlock current id

end StreamEventKind

/-- One validator accepts all events, in the state in which the response has started, has completed
and the blocks are open; `room` more events can be numbered. -/
def Output.Tracks (out : Output) (room : ℕ) (started completed : Bool) (blocks : List String) : Prop :=
  ∃ v, StreamValidator.default.acceptAll out.events = .ok v ∧ v.responseStarted = started ∧
    v.terminal = completed ∧ v.openBlocks.Perm blocks ∧ (∀ n ∈ v.lastSequence, n ≤ out.nextSequence) ∧
    out.nextSequence + room ≤ u64Max

namespace Output.Tracks

variable {out : Output} {room : ℕ} {started completed : Bool} {blocks blocks' : List String}
  {kind : StreamEventKind} {blockId : Option String}

theorem perm (h : out.Tracks room started completed blocks) (hp : blocks.Perm blocks') :
    out.Tracks room started completed blocks' := by
  obtain ⟨v, hacpt, hs, hc, hperm, hr⟩ := h
  exact ⟨v, hacpt, hs, hc, hperm.trans hp, hr⟩

theorem mono (h : out.Tracks room started completed blocks) {less : ℕ} (hle : less ≤ room) :
    out.Tracks less started completed blocks := by
  obtain ⟨v, hacpt, hs, hc, hperm, hlast, hrm⟩ := h
  exact ⟨v, hacpt, hs, hc, hperm, hlast, by omega⟩

section

variable (h : out.Tracks (room + 1) started false blocks)
include h

/-- One more event, given what it does to the open blocks. -/
theorem event (hst : kind.isResponseStart = true → started = false)
    (hblks : ∀ cur, cur.Perm blocks → ∀ n,
      ∃ next, acceptBlock cur ⟨n, blockId, kind⟩ = .ok next ∧ next.Perm blocks') :
    (out.event kind blockId).Tracks room (started || kind.isResponseStart) kind.isTerminal blocks' := by
  obtain ⟨v, hacpt, hs, hc, hperm, hlast, hrm⟩ := h
  have hseq : satAdd u64Max out.nextSequence 1 = out.nextSequence + 1 := satAdd_eq_add (by omega)
  obtain ⟨next, hnext, hnextPerm⟩ := hblks v.openBlocks hperm (satAdd u64Max out.nextSequence 1)
  have hok := accept_eq_ok (e := ⟨satAdd u64Max out.nextSequence 1, blockId, kind⟩) hc
    (fun n hn => by have := hlast n hn; simp only [hseq]; omega) (fun hk => hs ▸ hst hk) hnext
  refine ⟨_, (acceptAll_append _ hacpt).trans hok, by rw [hs], rfl, hnextPerm, ?_, ?_⟩
  · intro n hn
    cases hn
    exact le_rfl
  · change satAdd u64Max out.nextSequence 1 + room ≤ u64Max
    omega

/-- An event outside the blocks. -/
theorem plain (hkind : kind.blockAction = none) (hst : kind.isResponseStart = true → started = false) :
    (out.event kind blockId).Tracks room (started || kind.isResponseStart) kind.isTerminal blocks :=
  h.event hst fun cur hperm n => ⟨cur, by simp [acceptBlock, hkind], hperm⟩

/-- An event within the response, given what it does to the open blocks. -/
theorem inner (hkind : kind.Inner)
    (hblks : ∀ cur, cur.Perm blocks → ∀ n,
      ∃ next, acceptBlock cur ⟨n, blockId, kind⟩ = .ok next ∧ next.Perm blocks') :
    (out.event kind blockId).Tracks room started false blocks' := by
  have htrk : (out.event kind blockId).Tracks room (started || kind.isResponseStart) kind.isTerminal blocks' :=
    h.event (by simp [hkind.1]) hblks
  rwa [hkind.1, hkind.2, Bool.or_false] at htrk

theorem quiet (hact : kind.blockAction = none)
    (hkind : kind.Inner) : (out.event kind blockId).Tracks room started false blocks :=
  h.inner hkind fun cur hperm n => ⟨cur, by simp [acceptBlock, hact], hperm⟩

end

theorem starts (h : out.Tracks (room + 1) false false blocks) (responseId model : Option String) :
    (out.event (.responseStart responseId model) blockId).Tracks room true false blocks :=
  h.plain rfl fun _ => rfl

variable {id : String}

theorem opens (h : out.Tracks (room + 1) started false blocks) (hkind : kind.Inner)
    (hact : kind.Opens blockId id) (hne : id ≠ "") (hnew : id ∉ blocks) :
    (out.event kind blockId).Tracks room started false (id :: blocks) := by
  refine h.inner hkind fun cur hperm n => ?_
  have hout : id ∉ cur := fun hm => hnew (hperm.subset hm)
  refine ⟨cur ++ [id], ?_, (perm_append_singleton id cur).trans (hperm.cons id)⟩
  rw [hact, startBlock, if_neg (by simpa using hne), if_neg (by simpa using hout)]

/-- An event of a block that is open. -/
theorem continues (h : out.Tracks (room + 1) started false blocks) (hkind : kind.Inner)
    (hact : kind.Continues blockId id) (ho : id ∈ blocks) :
    (out.event kind blockId).Tracks room started false blocks := by
  refine h.inner hkind fun cur hperm n => ?_
  have hin : id ∈ cur := hperm.symm.subset ho
  exact ⟨cur, by rw [hact, continueBlock, if_pos (by simpa using hin)], hperm⟩

theorem closes (h : out.Tracks (room + 1) started false (id :: blocks)) (hkind : kind.Inner)
    (hact : kind.Closes blockId id) : (out.event kind blockId).Tracks room started false blocks := by
  refine h.inner hkind fun cur hperm n => ?_
  have hin : id ∈ cur := hperm.symm.subset mem_cons_self
  refine ⟨cur.erase id, by rw [hact, endBlock, if_pos (by simpa using hin)], ?_⟩
  have := hperm.erase id
  rwa [erase_cons_head] at this

/-! Room that is kept to close every open block. -/

theorem spare (h : out.Tracks (room + 1 + blocks.length) started completed blocks) :
    out.Tracks (room + blocks.length + 1) started completed blocks := h.mono (by omega)

theorem opens_spare (h : out.Tracks (room + 2 + blocks.length) started false blocks)
    (hkind : kind.Inner) (hact : kind.Opens blockId id) (hne : id ≠ "") (hnew : id ∉ blocks)
    (hperm : blocks'.Perm (id :: blocks)) :
    (out.event kind blockId).Tracks (room + blocks'.length) started false blocks' := by
  have hrm : out.Tracks (room + blocks'.length + 1) started false blocks := by
    rw [hperm.length_eq, length_cons]
    exact h.mono (by omega)
  exact (hrm.opens hkind hact hne hnew).perm hperm.symm

theorem closes_spare (h : out.Tracks (room + blocks.length) started false blocks) (hkind : kind.Inner)
    (hact : kind.Closes blockId id) (hperm : blocks.Perm (id :: blocks')) :
    (out.event kind blockId).Tracks (room + blocks'.length) started false blocks' := by
  have htrk := h.perm hperm
  rw [hperm.length_eq, length_cons] at htrk
  exact htrk.closes hkind hact

theorem raise (h : out.Tracks 0 started completed blocks) (hrm : out.nextSequence + room ≤ u64Max) :
    out.Tracks room started completed blocks := by
  obtain ⟨v, hacpt, hs, hc, hperm, hlast, -⟩ := h
  exact ⟨v, hacpt, hs, hc, hperm, hlast, hrm⟩

theorem not_completed (h : out.Tracks room started false blocks) : ∀ e ∈ out.events, e.kind.isTerminal = false := by
  obtain ⟨v, hacpt, -, hc, -⟩ := h
  exact isTerminal_of_acceptAll hacpt hc

end Output.Tracks

/-- One validator accepts all events, and once one of them is a completion no block is open. -/
def Output.Valid (out : Output) : Prop :=
  ∃ v, StreamValidator.default.acceptAll out.events = .ok v ∧
    ((∃ e ∈ out.events, e.kind.isCompletion = true) → v.openBlocks = [])

namespace Output.Tracks

variable {out : Output} {room : ℕ} {started : Bool} {blocks : List String} {kind : StreamEventKind}

theorem isCompletion_eq_false (h : out.Tracks room started false blocks) :
    ∀ e ∈ out.events, e.kind.isCompletion = false := by
  intro e he
  have hterm := h.not_completed e he
  cases hkind : e.kind <;> rw [hkind] at hterm <;> first | rfl | cases hterm

theorem valid (h : out.Tracks room started false blocks) : out.Valid := by
  obtain ⟨v, hacpt, hr⟩ := h
  refine ⟨v, hacpt, ?_⟩
  rintro ⟨e, he, hcompl⟩
  rw [isCompletion_eq_false ⟨v, hacpt, hr⟩ e he] at hcompl
  cases hcompl

/-- The last event: a failure, or the completion of a response without open blocks. -/
theorem valid_event {blockId} (h : out.Tracks (room + 1) started false blocks)
    (hkind : kind.blockAction = none) (hst : kind.isResponseStart = false)
    (hdrn : kind.isCompletion = true → blocks = []) : (out.event kind blockId).Valid := by
  have hlast : (out.event kind blockId).Tracks room (started || kind.isResponseStart) kind.isTerminal blocks :=
    h.plain hkind (by simp [hst])
  obtain ⟨v, hacpt, -, -, hperm, -⟩ := hlast
  refine ⟨v, hacpt, ?_⟩
  rintro ⟨e, he, hcompl⟩
  rcases mem_append.1 he with he | he
  · rw [h.isCompletion_eq_false e he] at hcompl
    cases hcompl
  · rw [mem_singleton.1 he] at hcompl
    rw [hdrn hcompl] at hperm
    exact hperm.eq_nil

end Output.Tracks

theorem Output.not_valid {out : Output} {error}
    (h : StreamValidator.default.acceptAll out.events = .error error) : ¬out.Valid := by
  rintro ⟨v, hacpt, -⟩
  rw [h] at hacpt
  cases hacpt

/-! ### Numbers from zero on -/

def StreamEvent.later (e : StreamEvent) : StreamEvent := { e with sequence := e.sequence + 1 }

namespace StreamValidator

def later (v : StreamValidator) : StreamValidator := { v with lastSequence := v.lastSequence.map (· + 1) }

/-- A validator does not mind where the numbers begin. -/
theorem accept_of_later {v v' : StreamValidator} (h : v.later.accept e.later = .ok v') :
    ∃ u, v.accept e = .ok u ∧ u.later = v' := by
  have hlast : ∀ {n}, v.lastSequence = some n → n < e.sequence := by
    intro n hn
    by_contra hle
    have hle : e.sequence ≤ n := Nat.le_of_not_lt hle
    cases hterm : v.terminal <;> simp [accept, later, StreamEvent.later, hterm, hn, hle, Option.filter] at h
  have hnone : v.lastSequence.filter (e.sequence ≤ ·) = none ∧
      v.later.lastSequence.filter (e.later.sequence ≤ ·) = none := by
    cases hn : v.lastSequence with
    | none => simp [later, hn]
    | some => simp [later, hn, StreamEvent.later, hlast hn]
  rw [accept] at h ⊢
  simp only [hnone.2] at h
  simp only [hnone.1]
  change (if v.terminal = true then _ else if (e.kind.isResponseStart && v.responseStarted) = true then _ else _) = _ at h
  split_ifs at h ⊢
  obtain ⟨blocks, hblks, hv⟩ := bind_eq_ok.1 h
  cases hv
  exact ⟨_, bind_eq_ok.2 ⟨blocks, hblks, rfl⟩, rfl⟩

theorem acceptAll_of_later : ∀ {v v' : StreamValidator},
    v.later.acceptAll (events.map StreamEvent.later) = .ok v' → ∃ u, v.acceptAll events = .ok u ∧ u.later = v' := by
  induction events with
  | nil =>
    intro v v' h
    cases h
    exact ⟨v, rfl, rfl⟩
  | cons e events ih =>
    intro v v' h
    rw [map_cons, acceptAll, foldlM_cons] at h
    obtain ⟨mid, hmid, hr⟩ := bind_eq_ok.1 h
    obtain ⟨u, hu, rfl⟩ := accept_of_later hmid
    obtain ⟨w, hw, rfl⟩ := ih hr
    refine ⟨w, ?_, rfl⟩
    rw [acceptAll, foldlM_cons, hu]
    exact hw

end StreamValidator

/-- The output of a decoder that counts before it numbers. -/
def Output.ahead (out : Output) : Output := ⟨out.nextSequence, out.events.map StreamEvent.later⟩

theorem Output.valid_of_ahead {out : Output} (h : out.ahead.Valid) : out.Valid := by
  obtain ⟨v', hacpt, hdrn⟩ := h
  obtain ⟨v, hv, rfl⟩ := acceptAll_of_later (v := .default) hacpt
  refine ⟨v, hv, ?_⟩
  rintro ⟨e, he, hcompl⟩
  exact hdrn ⟨e.later, mem_map_of_mem he, hcompl⟩

theorem Output.Tracks.ahead_numbered {out : Output} {room : ℕ} {started completed blocks}
    (h : out.ahead.Tracks (room + 1) started completed blocks) (kind : StreamEventKind) (blockId : Option String) :
    (out.numbered kind blockId).ahead = out.ahead.event kind blockId := by
  obtain ⟨-, -, -, -, -, -, hrm⟩ := h
  have hseq : satAdd u64Max out.nextSequence 1 = out.nextSequence + 1 :=
    satAdd_eq_add (by change out.nextSequence + (room + 1) ≤ u64Max at hrm; omega)
  simp [Output.ahead, Output.numbered, Output.event, StreamEvent.later, hseq]

theorem Output.tracks_empty {room : ℕ} (h : room ≤ u64Max) : Output.empty.Tracks room false false [] :=
  ⟨.default, rfl, rfl, rfl, Perm.refl _, nofun, by simpa [Output.empty] using h⟩

theorem eventIfText_spec {σ ε : Type} {pre post text}
    {emit : StateT σ (Except ε) Unit} (hemit : Triple pre emit post) (hemp : ∀ s, pre s → post () s) :
    Triple pre (eventIfText text emit) post := by
  unfold eventIfText
  split
  · exact Triple.pure hemp
  · exact hemit

end Pooler
