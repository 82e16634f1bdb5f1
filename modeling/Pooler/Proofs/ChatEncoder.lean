import Pooler.Lib.Trace
import Pooler.Sanity.Wire
import Pooler.Spec.Protocol.ChatEncoder

/-! Whether the Chat encoder takes another event after the one that ends a stream. -/

namespace Pooler.OpenAiChatEventEncoder

open Lib

section Encoder

variable [Platform] {s : OpenAiChatEventEncoder}

/-- The encoder after one call, whether the call succeeded or not. -/
def step (s : OpenAiChatEventEncoder) (call : LossPolicy × StreamEvent) : OpenAiChatEventEncoder :=
  (s.encodeEvent call.1 call.2).2

/-- The call is refused and writes nothing. -/
def Refuses (s : OpenAiChatEventEncoder) (call : LossPolicy × StreamEvent) : Prop :=
  ∃ error, (s.encodeEvent call.1 call.2).1 = .error error

theorem refuses_of_completed (h : s.completed = true) (call : LossPolicy × StreamEvent) : s.Refuses call := by
  simp [Refuses, encodeEvent, h]

theorem completed_step (call : LossPolicy × StreamEvent) (h : s.completed = true) : (s.step call).completed = true := by
  simp [step, encodeEvent, h]

/-- An encoder that is open writes every text. -/
theorem not_refuses_text (h : s.completed = false) (policy : LossPolicy) (sequence : ℕ) (text : String) :
    ¬s.Refuses (policy, ⟨sequence, some "text", .textDelta text⟩) := by
  cases policy with
  | reject | preserve | degrade =>
    simp [Refuses, encodeEvent, h, draft, delta, ConversionReport.ofNotes, ConversionReport.default,
      ConversionReport.validate]

variable {chunk : Option EncodedChatChunk} {policy : LossPolicy} {event : StreamEvent}

theorem of_encodeEvent_ok (h : (s.encodeEvent policy event).1 = .ok chunk) :
    s.completed = false ∧ ∃ draft, s.draft event.kind = .ok (draft, s.step (policy, event)) := by
  unfold step
  unfold encodeEvent at h ⊢
  cases hdone : s.completed with
  | true => simp [hdone] at h
  | false =>
    cases hdraft : s.draft event.kind with
    | error => simp [hdone, hdraft] at h
    | ok drafted =>
      refine ⟨rfl, drafted.1, ?_⟩
      simp only [Bool.false_eq_true, if_false]
      cases (ConversionReport.ofNotes drafted.1.notes).validate policy with
      | error | ok => rfl

/-- A terminal event that is encoded closes the encoder only when it is a completion. -/
theorem completed_of_terminal (hterm : event.kind.isTerminal = true) (h : (s.encodeEvent policy event).1 = .ok chunk) :
    (s.step (policy, event)).completed = event.kind.isCompletion := by
  obtain ⟨ho, written, hdraft⟩ := of_encodeEvent_ok h
  cases hk : event.kind with
  | completion | failure =>
    simp only [hk, draft, Except.ok.injEq, Prod.mk.injEq] at hdraft
    simp [← hdraft.2, ho, StreamEventKind.isCompletion]
  | _ => simp [hk, StreamEventKind.isTerminal] at hterm

/-- In every run, after a terminal event that was encoded all further calls are refused exactly when
it was a completion. -/
theorem refuses_after_terminal_iff (before : List (LossPolicy × StreamEvent)) {policy : LossPolicy}
    {event : StreamEvent} {chunk : Option EncodedChatChunk} (hterminal : event.kind.isTerminal = true)
    (h : ((run step new before).encodeEvent policy event).1 = .ok chunk) :
    (∀ after call, (run step new (before ++ (policy, event) :: after)).Refuses call) ↔
      event.kind.isCompletion = true := by
  have hdone := completed_of_terminal hterminal h
  simp only [run_append, run_cons]
  constructor
  · intro href
    by_contra hfail
    rw [Bool.not_eq_true] at hfail
    exact not_refuses_text (hdone.trans hfail) policy 0 "" (href [] _)
  · intro hcompl after call
    have hcl := @run_invariant _ _ step (fun s => s.completed = true) (fun _ call h => completed_step call h) after _
      (hdone.trans hcompl)
    exact refuses_of_completed hcl call

end Encoder

noncomputable local instance : Platform := unaryPlatform

def overloaded : StreamEvent := ⟨1, none, .failure (.new "overloaded" "try again")⟩

def finished : StreamEvent := ⟨1, none, .completion .stop none⟩

theorem completion_closes_the_encoder :
    (∃ chunk, (new.encodeEvent .reject finished).1 = .ok chunk) ∧
      ∀ after call, (run step new ([] ++ (LossPolicy.reject, finished) :: after)).Refuses call := by
  have h : (new.encodeEvent .reject finished).1 = .ok _ := rfl
  exact ⟨⟨_, h⟩, (refuses_after_terminal_iff [] rfl h).2 rfl⟩

/-- After a failure the encoder writes further text. -/
theorem text_is_written_after_a_failure :
    (∃ chunk, (new.encodeEvent .reject overloaded).1 = .ok (some chunk)) ∧
      ∃ chunk, ((new.step (.reject, overloaded)).encodeEvent .reject ⟨2, some "text", .textDelta "more"⟩).1 =
        .ok (some chunk) := by
  simp [overloaded, step, encodeEvent, new, draft, Draft.value, delta, ConversionReport.ofNotes,
    ConversionReport.default, ConversionReport.validate, ConversionReport.record]

end Pooler.OpenAiChatEventEncoder
