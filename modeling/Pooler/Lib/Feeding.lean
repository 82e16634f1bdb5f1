import Mathlib

/-! Consumers that are fed piece by piece. A call gives its outputs or an error, and leaves a state
either way. A consumer that can be cut anywhere gives the same for a stream in pieces as for the
stream in one piece. -/

namespace Pooler.Lib

open List

variable {σ β ω ε : Type}

/-- What one call gives. -/
structure Fed (ε ω σ : Type) where
  result : Except ε (List ω)
  state : σ

namespace Fed

variable (first : Fed ε ω σ)

/-- Goes on unless the call has failed; a failure leaves out the outputs that stand before it. -/
def andThen (next : σ → Fed ε ω σ) : Fed ε ω σ :=
  match first.result with
  | .error _ => first
  | .ok outputs => ⟨(next first.state).result.map (outputs ++ ·), (next first.state).state⟩

@[simp] theorem andThen_error (e : ε) (s : σ) (next : σ → Fed ε ω σ) :
    (⟨.error e, s⟩ : Fed ε ω σ).andThen next = ⟨.error e, s⟩ := rfl

@[simp] theorem andThen_ok (outputs : List ω) (s : σ) (next : σ → Fed ε ω σ) :
    (⟨.ok outputs, s⟩ : Fed ε ω σ).andThen next = ⟨(next s).result.map (outputs ++ ·), (next s).state⟩ := rfl

theorem andThen_nothing (s : σ) (next : σ → Fed ε ω σ) : (⟨.ok [], s⟩ : Fed ε ω σ).andThen next = next s := by
  rw [andThen_ok]
  cases h : next s with
  | mk result => cases result <;> rfl

theorem andThen_done : first.andThen (fun s => ⟨.ok [], s⟩) = first := by
  obtain ⟨result, s⟩ := first
  cases result with
  | error => rfl
  | ok outputs =>
    change Fed.mk (.ok (outputs ++ [])) s = _
    rw [append_nil]

theorem andThen_assoc (next last : σ → Fed ε ω σ) :
    (first.andThen next).andThen last = first.andThen fun s => (next s).andThen last := by
  obtain ⟨result, s⟩ := first
  cases result with
  | error => rfl
  | ok outputs =>
    rw [andThen_ok, andThen_ok]
    obtain ⟨result, s⟩ := next s
    cases result with
    | error => rfl
    | ok more =>
      change Fed.mk ((last s).result.map (outputs ++ more ++ ·)) (last s).state = _
      rw [andThen_ok]
      cases (last s).result with
      | error => rfl
      | ok => rw [Except.map, Except.map, Except.map, append_assoc]

/-- A call that goes on alike from every state of interest. -/
theorem andThen_congr {first : Fed ε ω σ} {next next'} (h : next first.state = next' first.state) :
    first.andThen next = first.andThen next' := by
  obtain ⟨result, s⟩ := first
  cases result with
  | error => rfl
  | ok => rw [andThen_ok, andThen_ok, show next s = next' s from h]

end Fed

/-- Feeds item by item, and stops at the first error. -/
def feedEach (step : σ → β → Fed ε ω σ) : σ → List β → Fed ε ω σ
  | s, [] => ⟨.ok [], s⟩
  | s, b :: bs => (step s b).andThen fun s => feedEach step s bs

/-- A consumer that keeps a property of its state and can be cut after the first item of any piece,
so anywhere. -/
structure Cuttable (inv : σ → Prop) (feed : σ → List β → Fed ε ω σ) : Prop where
  keeps : ∀ s piece, inv s → inv (feed s piece).state
  nothing : ∀ s, inv s → feed s [] = ⟨.ok [], s⟩
  item : ∀ s b rest, inv s → feed s (b :: rest) = (feed s [b]).andThen fun s => feed s rest

section Each

variable {step : σ → β → Fed ε ω σ} {inv : σ → Prop}

theorem Fed.andThen_state {p : σ → Prop} {first : Fed ε ω σ} {next} (hfst : p first.state)
    (hnext : p (next first.state).state) : p (first.andThen next).state := by
  obtain ⟨result, s⟩ := first
  cases result with
  | error => exact hfst
  | ok => exact hnext

/-- A relation that composes holds across a call that succeeds when it holds across its steps. -/
theorem feedEach_ok {rel : σ → List ω → σ → Prop} (hnil : ∀ s, rel s [] s)
    (hcomp : ∀ {s t u first second}, rel s first t → rel t second u → rel s (first ++ second) u)
    (hkeep : ∀ s b, inv s → inv (step s b).state)
    (hstep : ∀ s b outputs, inv s → (step s b).result = .ok outputs → rel s outputs (step s b).state) (bs : List β) :
    ∀ {s outputs}, inv s → (feedEach step s bs).result = .ok outputs → rel s outputs (feedEach step s bs).state := by
  induction bs with
  | nil => intro s outputs _ h; cases h; exact hnil s
  | cons b bs ih =>
    intro s outputs hs h
    rw [feedEach, Fed.andThen] at h ⊢
    cases hres : (step s b).result with
    | error => rw [hres] at h; cases (hres.symm.trans h)
    | ok first =>
      rw [hres] at h
      cases hr : (feedEach step (step s b).state bs).result with
      | error => rw [hr] at h; cases h
      | ok =>
        rw [hr] at h
        cases h
        exact hcomp (hstep s b first hs hres) (ih (hkeep s b hs) hr)

section

variable (hstep : ∀ s b, inv s → inv (step s b).state)
include hstep

theorem feedEach_keeps (bs : List β) : ∀ s, inv s → inv (feedEach step s bs).state := by
  induction bs with
  | nil => intro s hs; exact hs
  | cons b bs ih => intro s hs; exact Fed.andThen_state (hstep s b hs) (ih _ (hstep s b hs))

/-- What the failing step leaves is what the failing call leaves. -/
theorem feedEach_error {q : ε → σ → Prop}
    (herr : ∀ s b e, inv s → (step s b).result = .error e → q e (step s b).state) (bs : List β) :
    ∀ {s e}, inv s → (feedEach step s bs).result = .error e → q e (feedEach step s bs).state := by
  induction bs with
  | nil => intro s e _ h; cases h
  | cons b bs ih =>
    intro s e hs h
    rw [feedEach, Fed.andThen] at h ⊢
    cases hres : (step s b).result with
    | error =>
      rw [hres] at h
      cases (hres.symm.trans h)
      exact herr s b e hs hres
    | ok =>
      rw [hres] at h
      refine ih (hstep s b hs) (e := e) ?_
      cases hr : (feedEach step (step s b).state bs).result with
      | error =>
        rw [hr] at h
        cases h
        rfl
      | ok =>
        rw [hr] at h
        cases h

/-- A consumer that comes to the same as one fed item by item. -/
theorem Cuttable.of_feedEach {feed}
    (h : ∀ s piece, inv s → feed s piece = feedEach step s piece) : Cuttable inv feed where
  keeps s piece hs := by rw [h s piece hs]; exact feedEach_keeps hstep piece s hs
  nothing s hs := by rw [h s [] hs]; rfl
  item s b rest hs := by
    rw [h s _ hs, h s _ hs]
    change (step s b).andThen _ = ((step s b).andThen fun s => feedEach step s []).andThen _
    rw [Fed.andThen_assoc]
    refine Fed.andThen_congr ?_
    rw [← h _ rest (hstep s b hs)]
    exact (Fed.andThen_nothing (step s b).state fun s => feed s rest).symm

end

end Each

/-- What a stream in pieces gives, up to the first error. -/
structure Delivery (ε ω σ : Type) where
  outputs : List ω
  error : Option ε
  state : σ

/-- The outcome as that of one call. -/
def Delivery.result (d : Delivery ε ω σ) : Except ε (List ω) :=
  match d.error with
  | none => .ok d.outputs
  | some e => .error e

/-- Feeds the pieces one call each, and stops at the first error. -/
def deliver (feed : σ → List β → Fed ε ω σ) : σ → List (List β) → Delivery ε ω σ
  | s, [] => ⟨[], none, s⟩
  | s, piece :: pieces =>
    match (feed s piece).result with
    | .error e => ⟨[], some e, (feed s piece).state⟩
    | .ok outputs =>
      ⟨outputs ++ (deliver feed (feed s piece).state pieces).outputs,
        (deliver feed (feed s piece).state pieces).error, (deliver feed (feed s piece).state pieces).state⟩

/-- The outputs of all calls, going on after those that fail. -/
def produced (feed : σ → List β → Fed ε ω σ) : σ → List (List β) → List ω
  | _, [] => []
  | s, piece :: pieces => (feed s piece).result.toOption.getD [] ++ produced feed (feed s piece).state pieces

section Pieces

variable {feed : σ → List β → Fed ε ω σ} {s : σ}

theorem deliver_cons_error {piece} {e : ε} (h : (feed s piece).result = .error e) (pieces : List (List β)) :
    deliver feed s (piece :: pieces) = ⟨[], some e, (feed s piece).state⟩ := by
  rw [deliver, h]

theorem deliver_cons_ok {piece outputs} (h : (feed s piece).result = .ok outputs) (pieces : List (List β)) :
    deliver feed s (piece :: pieces) = ⟨outputs ++ (deliver feed (feed s piece).state pieces).outputs,
      (deliver feed (feed s piece).state pieces).error, (deliver feed (feed s piece).state pieces).state⟩ := by
  rw [deliver, h]

end Pieces

section Withheld

variable (step : σ → β → Fed ε ω σ) (cut : σ → β → List ω)

/-- The outputs that stand before the first error; a step that fails may have come to some of them. -/
def completed : σ → List β → List ω
  | _, [] => []
  | s, b :: bs =>
    match (step s b).result with
    | .ok outputs => outputs ++ completed (step s b).state bs
    | .error _ => cut s b

/-- The outputs that stand before the first error in the piece that fails. -/
def withheld : σ → List (List β) → List ω
  | _, [] => []
  | s, piece :: pieces =>
    match (feedEach step s piece).result with
    | .ok _ => withheld (feedEach step s piece).state pieces
    | .error _ => completed step cut s piece

theorem completed_append (bs : List β) : ∀ as s, completed step cut s (as ++ bs) =
    match (feedEach step s as).result with
    | .ok outputs => outputs ++ completed step cut (feedEach step s as).state bs
    | .error _ => completed step cut s as := by
  intro as
  induction as with
  | nil => intro s; rfl
  | cons a as ih =>
    intro s
    simp only [cons_append, completed, feedEach, Fed.andThen]
    cases hstep : (step s a).result with
    | error => simp [hstep]
    | ok =>
      dsimp only
      rw [ih]
      cases (feedEach step (step s a).state as).result with
      | error => rfl
      | ok => exact (append_assoc ..).symm

/-- What a stream in pieces lacks is what the piece that fails withholds. -/
theorem completed_flatten (pieces : List (List β)) : ∀ s,
    completed step cut s pieces.flatten = (deliver (feedEach step) s pieces).outputs ++ withheld step cut s pieces := by
  induction pieces with
  | nil => intro s; rfl
  | cons piece pieces ih =>
    intro s
    rw [flatten_cons, completed_append, deliver, withheld]
    cases (feedEach step s piece).result with
    | error => rfl
    | ok =>
      dsimp only
      rw [ih, append_assoc]

end Withheld

namespace Cuttable

variable {inv : σ → Prop} {feed : σ → List β → Fed ε ω σ}

theorem append (h : Cuttable inv feed) (a b : List β) :
    ∀ s, inv s → feed s (a ++ b) = (feed s a).andThen fun s => feed s b := by
  induction a with
  | nil =>
    intro s hs
    rw [h.nothing s hs, Fed.andThen_nothing]
    rfl
  | cons x a ih =>
    intro s hs
    rw [cons_append, h.item s x (a ++ b) hs, h.item s x a hs, Fed.andThen_assoc]
    exact Fed.andThen_congr (ih _ (h.keeps s [x] hs))

/-- A stream in pieces and in one piece come to the same. -/
theorem feed_flatten (h : Cuttable inv feed) (pieces : List (List β)) :
    ∀ s, inv s → feed s pieces.flatten = ⟨(deliver feed s pieces).result, (deliver feed s pieces).state⟩ := by
  induction pieces with
  | nil => intro s hs; exact h.nothing s hs
  | cons piece pieces ih =>
    intro s hs
    rw [flatten_cons, h.append _ _ s hs, Fed.andThen]
    cases hres : (feed s piece).result with
    | error =>
      rw [deliver_cons_error hres]
      exact congrArg (Fed.mk · (feed s piece).state) hres
    | ok =>
      rw [deliver_cons_ok hres]
      simp only [ih _ (h.keeps s piece hs)]
      refine congrArg (Fed.mk · _) ?_
      simp only [Delivery.result]
      cases (deliver feed (feed s piece).state pieces).error <;> rfl

/-- The outputs are those of the pieces before the one that fails. -/
theorem outputs_of_start (h : Cuttable inv feed) (pieces : List (List β)) :
    ∀ s, inv s → ∃ n, (feed s (pieces.take n).flatten).result = .ok (deliver feed s pieces).outputs ∧
      ((deliver feed s pieces).error = none → n = pieces.length) ∧
      (∀ e, (deliver feed s pieces).error = some e → (feed s (pieces.take (n + 1)).flatten).result = .error e) := by
  induction pieces with
  | nil =>
    intro s hs
    exact ⟨0, by rw [take_nil, flatten_nil, h.nothing s hs]; rfl, fun _ => rfl, nofun⟩
  | cons piece pieces ih =>
    intro s hs
    cases hres : (feed s piece).result with
    | error =>
      rw [deliver_cons_error hres]
      refine ⟨0, by rw [take_zero, flatten_nil, h.nothing s hs], nofun, fun e' he' => ?_⟩
      cases he'
      rwa [take_succ_cons, take_zero, flatten_singleton]
    | ok outputs =>
      rw [deliver_cons_ok hres]
      obtain ⟨n, hn, hall, hsome⟩ := ih _ (h.keeps s piece hs)
      have hst : ∀ k, (feed s ((piece :: pieces).take (k + 1)).flatten).result =
          (feed (feed s piece).state (pieces.take k).flatten).result.map (outputs ++ ·) := by
        intro k
        rw [take_succ_cons, flatten_cons, h.append _ _ s hs, Fed.andThen, hres]
      refine ⟨n + 1, ?_, fun herr => by rw [hall herr]; rfl, fun e herr => ?_⟩
      · rw [hst, hn]
        rfl
      · rw [hst, hsome e herr]
        rfl

/-- The state an error leaves. -/
theorem deliver_error (h : Cuttable inv feed) {q : ε → σ → Prop}
    (herr : ∀ {s piece e}, inv s → (feed s piece).result = .error e → q e (feed s piece).state)
    (pieces : List (List β)) {s : σ} {e : ε} (hs : inv s) (he : (deliver feed s pieces).error = some e) :
    q e (deliver feed s pieces).state := by
  have hwhole := h.feed_flatten pieces s hs
  have hres : (feed s pieces.flatten).result = .error e := by rw [hwhole, Delivery.result, he]
  have := herr hs hres
  rwa [hwhole] at this

end Cuttable

end Pooler.Lib
