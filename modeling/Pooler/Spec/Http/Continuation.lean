import Pooler.Spec.Protocol.Json

/-! # Continuation of a Responses conversation (`pooler-http/src/openai_websocket.rs`)

A connection remembers its last completed turn. A request that repeats that turn's input and output
is sent as its new items, with the turn's response as its past. -/

namespace Pooler

open Lib

inductive ResponsesWebSocketFlavor where
  | openAi
  | xai
  deriving DecidableEq, Repr

structure Continuation where
  request : Json
  responseId : String
  responseItems : List Json
  deriving DecidableEq

namespace Continuation

variable (value : Json)

def field (key : String) : Option Json := value.asObject.bind fun object => object.get key

def prepareFullRequest (flavor : ResponsesWebSocketFlavor) : Option Json :=
  match value with
  | .object fields =>
    let object := Assoc.erase fields "type"
    match flavor with
    | .openAi => some (.object ((object.insert "store" (.bool false)).insert "stream" (.bool true)))
    | .xai => some (.object ((object.erase "stream").erase "background"))
  | _ => none

def requestParameters : Option (Assoc String Json) :=
  value.asObject.map fun object => ((object.erase "input").erase "previous_response_id").erase "type"

/-- An item without what a provider may change in it. -/
def normalized : Json :=
  match value with
  | .object fields =>
    let object := Assoc.erase fields "status"
    if (object.get "type").bind Json.asStr = some "function_call" then .object (object.erase "id")
    else .object object
  | other => other

def continuationItemEq (current response : Json) : Bool := normalized current = normalized response

/-- The items of `current` beyond the earlier input and output, if it starts with them. -/
def deltaOf (current previous responseItems : List Json) : Option (List Json) :=
  if current.length < previous.length + responseItems.length then none
  else if current.take previous.length ≠ previous then none
  else if (((current.drop previous.length).take responseItems.length).zip responseItems).all
      fun pair => continuationItemEq pair.1 pair.2 then
    some (current.drop (previous.length + responseItems.length))
  else none

def continuationDelta (full : Json) (continuation : Continuation) : Option (List Json) :=
  if requestParameters full ≠ requestParameters continuation.request then none
  else
    match (field full "input").bind Json.asArray, (field continuation.request "input").bind Json.asArray with
    | some current, some previous => deltaOf current previous continuation.responseItems
    | _, _ => none

/-- `as_object_mut` followed by an insert. -/
def withField (key : String) (entry : Json) : Json :=
  match value with
  | .object fields => .object (Assoc.insert fields key entry)
  | other => other

def rewritten (full : Json) (continuation : Continuation) (delta : List Json) : Json :=
  withField (withField full "previous_response_id" (.string continuation.responseId)) "input" (.array delta)

def requestForConnection (full : Json) (continuation : Option Continuation) : Json :=
  let request :=
    match continuation with
    | none => full
    | some continuation =>
      match continuationDelta full continuation with
      | some delta => rewritten full continuation delta
      | none => full
  withField request "type" (.string "response.create")

/-- A completed turn of the connection: the prepared request, the message sent for it, the id of
the response and the items of its output. -/
structure CompletedTurn where
  (full sent : Json)
  responseId : Option String
  responseItems : List Json

/-- One connection: what it remembers, and the turns so far. -/
structure Conversation where
  continuation : Option Continuation
  turns : List CompletedTurn

/-- A turn that completes: its prepared request and what the provider answered. -/
structure TurnEvent where
  full : Json
  responseId : Option String
  responseItems : List Json

def Conversation.start : Conversation := ⟨none, []⟩

def continuationAfterTerminal (event : TurnEvent) : Option Continuation :=
  event.responseId.map fun responseId => ⟨event.full, responseId, event.responseItems⟩

def Conversation.step (s : Conversation) (event : TurnEvent) : Conversation :=
  { continuation := continuationAfterTerminal event
    turns := s.turns ++ [⟨event.full, requestForConnection event.full s.continuation, event.responseId,
      event.responseItems⟩] }

end Continuation

end Pooler
