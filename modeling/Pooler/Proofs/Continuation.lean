import Pooler.Lib.Trace
import Pooler.Spec.Http.Continuation

/-! What a message to the provider means, and when the rewriting keeps it. `past` gives the items
behind a response id. A message stands for the items behind its `previous_response_id`, followed by
its input. -/

namespace Pooler.Continuation

open Lib List Option

variable {past : String → List Json} {full request : Json} {s : Conversation}

/-- The items behind the message's own `previous_response_id`. -/
def pastOf (past : String → List Json) (message : Json) : List Json :=
  match (field message "previous_response_id").bind Json.asStr with
  | some id => past id
  | none => []

def inputItems (message : Json) : List Json :=
  match field message "input" with
  | some (.array items) => items
  | some other => [other]
  | none => []

def conversation (past : String → List Json) (message : Json) : List Json := pastOf past message ++ inputItems message

/-- The same items up to status and the ids of function calls. -/
def Same (items items' : List Json) : Prop := items.map normalized = items'.map normalized

/-- The provider answers with the conversation it was sent and the items it added. -/
def Answers (past : String → List Json) (s : Conversation) : Prop :=
  ∀ turn ∈ s.turns, ∀ id, turn.responseId = some id → past id = conversation past turn.sent ++ turn.responseItems

/-- When a request is rewritten, its `previous_response_id` stands for the same items as that of the
request it continues. -/
def SamePast (past : String → List Json) (s : Conversation) (full : Json) : Prop :=
  ∀ continuation, s.continuation = some continuation → continuationDelta full continuation ≠ none →
    Same (pastOf past full) (pastOf past continuation.request)

/-- The message sent means what the client's request means, and only the fields that carry the
conversation differ. -/
structure Preserves (past : String → List Json) (s : Conversation) (full : Json) : Prop where
  conversation : Same (conversation past (requestForConnection full s.continuation)) (conversation past full)
  parameters : ∀ key, key ≠ "input" → key ≠ "previous_response_id" → key ≠ "type" →
    field (requestForConnection full s.continuation) key = field full key

theorem Same.append {a b c d} (h : Same a b) (h' : Same c d) : Same (a ++ c) (b ++ d) := by
  simp only [Same, map_append] at *
  rw [h, h']

theorem Same.append_right_iff {a b c d} (h : Same c d) : Same (a ++ c) (b ++ d) ↔ Same a b := by
  simp only [Same, map_append] at *
  rw [h]
  exact append_left_inj _

theorem field_withField_self {value key entry} (h : value.asObject ≠ none) :
    field (withField value key entry) key = some entry := by
  cases value with
  | object flds => exact Assoc.get_insert_self flds key entry
  | _ => exact absurd rfl h

theorem field_withField_of_ne {value key key' entry} (h : key ≠ key') :
    field (withField value key entry) key' = field value key' := by
  cases value with
  | object flds =>
    have := Assoc.get_insert flds key key' entry
    rw [if_neg h] at this
    exact this
  | _ => rfl

theorem asObject_withField {value key entry} (h : value.asObject ≠ none) :
    (withField value key entry).asObject ≠ none := by
  cases value with
  | object => exact nofun
  | _ => exact absurd rfl h

theorem same_of_zip_all {items responseItems} (hlen : items.length = responseItems.length)
    (h : ((items.zip responseItems).all fun pair => continuationItemEq pair.1 pair.2) = true) :
    Same items responseItems := by
  induction items generalizing responseItems with
  | nil =>
    cases responseItems with
    | nil => rfl
    | cons => cases hlen
  | cons item items ih =>
    cases responseItems with
    | nil => cases hlen
    | cons response responseItems =>
      simp only [zip_cons_cons, all_cons, Bool.and_eq_true] at h
      have hhead : normalized item = normalized response := of_decide_eq_true h.1
      have htail : items.map normalized = responseItems.map normalized := ih (Nat.succ.inj hlen) h.2
      simp [Same, hhead, htail]

/-- The items of the current input: the earlier input, items that match the output, the rest. -/
theorem deltaOf_eq_some {cur previous responseItems delta}
    (h : deltaOf cur previous responseItems = some delta) : Same cur (previous ++ responseItems ++ delta) := by
  unfold deltaOf at h
  split_ifs at h with hlen hprev hitems
  rw [not_not] at hprev
  obtain rfl := some.inj h
  have hmid : Same ((cur.drop previous.length).take responseItems.length) responseItems := by
    refine same_of_zip_all ?_ hitems
    rw [length_take, length_drop]
    omega
  have hspl : cur = cur.take previous.length ++
      ((cur.drop previous.length).take responseItems.length ++
        cur.drop (previous.length + responseItems.length)) := by
    rw [← drop_drop, take_append_drop, take_append_drop]
  rw [hprev] at hspl
  conv_lhs => rw [hspl]
  rw [append_assoc]
  exact Same.append rfl (Same.append hmid rfl)

theorem continuationDelta_eq_some {cont delta} (h : continuationDelta full cont = some delta) :
    full.asObject ≠ none ∧
      Same (inputItems full) (inputItems cont.request ++ cont.responseItems ++ delta) := by
  unfold continuationDelta at h
  split_ifs at h
  split at h
  next cur previous hcur hprev =>
    obtain ⟨value, hval, harr⟩ := bind_eq_some_iff.1 hcur
    obtain ⟨value', hval', harr'⟩ := bind_eq_some_iff.1 hprev
    have hfull : inputItems full = cur := by
      unfold inputItems
      rw [hval]
      cases value with
      | array => exact some.inj harr
      | _ => cases harr
    have hreq : inputItems cont.request = previous := by
      unfold inputItems
      rw [hval']
      cases value' with
      | array => exact some.inj harr'
      | _ => cases harr'
    refine ⟨fun hn => ?_, ?_⟩
    · unfold field at hval
      rw [hn] at hval
      cases hval
    · rw [hfull, hreq]
      exact deltaOf_eq_some h
  · cases h

theorem requestForConnection_cases (full : Json) (cont : Option Continuation) :
    (requestForConnection full cont = withField full "type" (.string "response.create") ∧
        ∀ c, cont = some c → continuationDelta full c = none) ∨
      ∃ c delta, cont = some c ∧ continuationDelta full c = some delta ∧
        requestForConnection full cont =
          withField (rewritten full c delta) "type" (.string "response.create") := by
  cases cont with
  | none => exact .inl ⟨rfl, nofun⟩
  | some c =>
    cases hdlt : continuationDelta full c with
    | none =>
      refine .inl ⟨by simp [requestForConnection, hdlt], ?_⟩
      rintro _ ⟨⟩
      exact hdlt
    | some delta => exact .inr ⟨c, delta, rfl, hdlt, by simp [requestForConnection, hdlt]⟩

theorem conversation_withType (value entry : Json) :
    conversation past (withField value "type" entry) = conversation past value := by
  unfold conversation pastOf inputItems
  rw [field_withField_of_ne (by decide), field_withField_of_ne (by decide)]

theorem conversation_rewritten {cont delta} (h : full.asObject ≠ none) :
    conversation past (rewritten full cont delta) = past cont.responseId ++ delta := by
  have hpast : field (rewritten full cont delta) "previous_response_id" =
      some (.string cont.responseId) := by
    unfold rewritten
    rw [field_withField_of_ne (by decide), field_withField_self h]
  have hinp : field (rewritten full cont delta) "input" = some (.array delta) :=
    field_withField_self (asObject_withField h)
  unfold conversation pastOf inputItems
  rw [hpast, hinp]
  rfl

theorem field_requestForConnection (full : Json) (cont : Option Continuation) (key : String)
    (hinp : key ≠ "input") (hprev : key ≠ "previous_response_id") (htype : key ≠ "type") :
    field (requestForConnection full cont) key = field full key := by
  rcases requestForConnection_cases full cont with ⟨hsent, -⟩ | ⟨c, delta, -, -, hsent⟩
  · rw [hsent, field_withField_of_ne htype.symm]
  · rw [hsent, field_withField_of_ne htype.symm, rewritten, field_withField_of_ne hinp.symm,
      field_withField_of_ne hprev.symm]

/-- What the connection remembers is known to the provider under its response id. -/
def Remembers (past : String → List Json) (s : Conversation) : Prop :=
  ∀ c, s.continuation = some c → Same (past c.responseId) (conversation past c.request ++ c.responseItems)

theorem preserves_iff (hrem : Remembers past s) (full : Json) : Preserves past s full ↔ SamePast past s full := by
  have hpars := field_requestForConnection full s.continuation
  rcases requestForConnection_cases full s.continuation with ⟨hsent, hn⟩ | ⟨c, delta, hc, hdlt, hsent⟩
  · refine iff_of_true ⟨?_, hpars⟩ fun c hc hsome => absurd (hn c hc) hsome
    rw [hsent, conversation_withType]
    rfl
  · obtain ⟨hobj, hinp⟩ := continuationDelta_eq_some hdlt
    -- both sides end in the input and output that the request repeats, and the new items
    have hs : Same (conversation past (requestForConnection full s.continuation))
        (conversation past full) ↔ Same (pastOf past full) (pastOf past c.request) := by
      have hpast := hrem c hc
      have hleft : Same (conversation past (requestForConnection full s.continuation))
          (pastOf past c.request ++ (inputItems c.request ++ c.responseItems ++ delta)) := by
        rw [hsent, conversation_withType, conversation_rewritten hobj]
        have := hpast.append (rfl : Same delta delta)
        simpa [conversation] using this
      have hrig : Same (conversation past full)
          (pastOf past full ++ (inputItems c.request ++ c.responseItems ++ delta)) :=
        Same.append rfl hinp
      unfold Same at hleft hrig ⊢
      rw [hleft, hrig]
      have := Same.append_right_iff (a := pastOf past c.request) (b := pastOf past full)
        (rfl : Same (inputItems c.request ++ c.responseItems ++ delta) _)
      exact this.trans eq_comm
    constructor
    · rintro ⟨hcon, -⟩ c' hc' -
      cases hc.symm.trans hc'
      exact hs.1 hcon
    · intro hpast
      exact ⟨hs.2 (hpast c hc (by rw [hdlt]; exact nofun)), hpars⟩

theorem step_remembers (event : TurnEvent) (hans : Answers past (s.step event))
    (hrem : Remembers past s) (hpast : SamePast past s event.full) : Remembers past (s.step event) := by
  rintro c hc
  obtain ⟨id, hid, rfl⟩ := map_eq_some_iff.1 hc
  have hsent := ((preserves_iff hrem event.full).2 hpast).conversation
  have hansw := hans _ (mem_append_right _ mem_cons_self) id hid
  dsimp only at hansw ⊢
  rw [hansw]
  exact hsent.append rfl

theorem answers_of_run (evs : List TurnEvent) :
    ∀ s, Answers past (run Conversation.step s evs) → Answers past s := by
  induction evs with
  | nil => intro s h; exact h
  | cons event evs ih => intro s h; exact fun turn hturn => ih _ h turn (mem_append_left _ hturn)

theorem run_remembers (evs : List TurnEvent) :
    ∀ s, Answers past (run Conversation.step s evs) → Remembers past s →
      StepsMeet Conversation.step (fun s event => SamePast past s event.full) s evs →
      Remembers past (run Conversation.step s evs) := by
  induction evs with
  | nil => intro s _ h _; exact h
  | cons event evs ih =>
    intro s hans hrem hmeet
    exact ih _ hans (step_remembers event (answers_of_run evs _ hans) hrem hmeet.1) hmeet.2

/-- After any completed turns of a connection that were themselves sent faithfully, the next request
is sent with its meaning and its other parameters exactly when the response id it names, if it is
rewritten, stands for the same items as the one named by the request it continues. -/
theorem continuation_preserves_iff (past : String → List Json) (events : List TurnEvent)
    (h : StepsMeet Conversation.step (fun s event => SamePast past s event.full) .start events)
    (hanswers : Answers past (run Conversation.step .start events)) (full : Json) :
    Preserves past (run Conversation.step .start events) full ↔
      SamePast past (run Conversation.step .start events) full :=
  preserves_iff (run_remembers events _ hanswers nofun h) full

variable (previous : List (String × Json))

/-- A request for the items, with the response it names. -/
def requestOf (items : List Json) : Json := .object (("input", .array items) :: previous)

/-- The items behind the responses `x` and `r1`. -/
def samplePast (before : List Json) : String → List Json
  | "x" => before
  | "r1" => before ++ [.string "question", .string "answer"]
  | _ => []

def firstTurn : TurnEvent := ⟨requestOf previous [.string "question"], some "r1", [.string "answer"]⟩

def nextRequest : Json := requestOf [] [.string "question", .string "answer", .string "more"]

theorem firstTurn_answers :
    Answers (samplePast []) (run Conversation.step .start [firstTurn []]) ∧
      Answers (samplePast [.string "earlier"])
        (run Conversation.step .start [firstTurn [("previous_response_id", .string "x")]]) := by
  constructor
  · intro turn hturn id hid
    obtain rfl := mem_singleton.1 hturn
    cases hid
    decide +kernel
  · intro turn hturn id hid
    obtain rfl := mem_singleton.1 hturn
    cases hid
    decide +kernel

theorem repeated_conversation_is_continued :
    requestForConnection nextRequest (run Conversation.step .start [firstTurn []]).continuation =
        .object [("input", .array [.string "more"]), ("previous_response_id", .string "r1"),
          ("type", .string "response.create")] ∧
      Preserves (samplePast []) (run Conversation.step .start [firstTurn []]) nextRequest := by
  refine ⟨by decide +kernel, (continuation_preserves_iff (samplePast []) [firstTurn []] ⟨nofun, trivial⟩
    firstTurn_answers.1 nextRequest).2 ?_⟩
  rintro c ⟨⟩ -
  rfl

/-- The first request names the response `x`, the next one repeats its items without it: the message
sent brings the conversation behind `x` back. -/
theorem dropped_past_comes_back :
    Answers (samplePast [.string "earlier"])
        (run Conversation.step .start [firstTurn [("previous_response_id", .string "x")]]) ∧
      ¬ Preserves (samplePast [.string "earlier"])
        (run Conversation.step .start [firstTurn [("previous_response_id", .string "x")]]) nextRequest := by
  refine ⟨firstTurn_answers.2, fun h => ?_⟩
  have hs := h.conversation
  unfold Same at hs
  exact absurd hs (by decide +kernel)

end Pooler.Continuation
