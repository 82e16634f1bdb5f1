import Pooler.Lib.Guards
import Pooler.Lib.Triple
import Pooler.Spec.Protocol.Extensions
import Pooler.Spec.Time

/-! Semantic response events, and the validator that checks the order of one stream of them. -/

namespace Pooler

open Lib

structure Usage where
  (inputTokens outputTokens : UInt64)
  (reasoningTokens cachedInputTokens totalTokens : Option UInt64)
  details : List (String × UInt64)
  deriving DecidableEq

inductive FinishReason where
  | stop
  | length
  | toolCall
  | contentFilter
  | error
  | other (value : String)
  deriving DecidableEq

structure StreamError where
  (code message : String)
  retryable : Bool
  deriving DecidableEq

def StreamError.new (code message : String) : StreamError := ⟨code, message, false⟩

inductive WarningSeverity where
  | info
  | warning
  deriving DecidableEq

structure ConversionWarning where
  (code message : String)
  field : Option String
  severity : WarningSeverity
  deriving DecidableEq

inductive StreamEventKind where
  | responseStart (responseId model : Option String)
  | metadata (values : List (String × String))
  | textStart
  | textDelta (text : String)
  | textEnd
  | reasoningStart
  | reasoningDelta (text : String)
  | reasoningEnd (reasoning : Option ReasoningBlock)
  | toolCallStart (id name : String)
  | toolCallDelta (id arguments : String)
  | toolCallEnd (id : String)
  | media (mediaType : String) (source : MediaSource)
  | usage (usage : Usage)
  | refusal (text : String)
  | warning (warning : ConversionWarning)
  | completion (finishReason : FinishReason) (usage : Option Usage)
  | failure (error : StreamError)
  | opaqueEvent (mediaType : String) (data : List UInt8)
  deriving DecidableEq

namespace StreamEventKind

def isTerminal : StreamEventKind → Bool
  | .completion _ _ | .failure _ => true
  | _ => false

def isResponseStart : StreamEventKind → Bool
  | .responseStart _ _ => true
  | _ => false

def isCompletion : StreamEventKind → Bool
  | .completion _ _ => true
  | _ => false

/-- What an event does to a block, with the identifier that a tool event carries itself. -/
inductive BlockAction where
  | start
  | continue
  | stop
  | startWithId (id : String)
  | continueWithId (id : String)
  | endWithId (id : String)

def blockAction : StreamEventKind → Option BlockAction
  | .textStart => some .start
  | .textDelta _ => some .continue
  | .textEnd => some .stop
  | .reasoningStart => some .start
  | .reasoningDelta _ => some .continue
  | .reasoningEnd _ => some .stop
  | .toolCallStart id _ => some (.startWithId id)
  | .toolCallDelta id _ => some (.continueWithId id)
  | .toolCallEnd id => some (.endWithId id)
  | .responseStart _ _ | .metadata _ | .media _ _ | .usage _ | .refusal _ | .warning _ | .completion _ _
  | .failure _ | .opaqueEvent _ _ => none

/-- The identifier that a tool event carries. -/
def toolCallId : StreamEventKind → Option String
  | .toolCallStart id _ | .toolCallDelta id _ | .toolCallEnd id => some id
  | _ => none

def eventName : StreamEventKind → String
  | .textStart => "text_start"
  | .textDelta _ => "text_delta"
  | .textEnd => "text_end"
  | .reasoningStart => "reasoning_start"
  | .reasoningDelta _ => "reasoning_delta"
  | .reasoningEnd _ => "reasoning_end"
  | .toolCallStart _ _ => "tool_call_start"
  | .toolCallDelta _ _ => "tool_call_delta"
  | .toolCallEnd _ => "tool_call_end"
  | .responseStart _ _ | .metadata _ | .media _ _ | .usage _ | .refusal _ | .warning _ | .completion _ _
  | .failure _ | .opaqueEvent _ _ => "event"

end StreamEventKind

structure StreamEvent where
  sequence : ℕ
  blockId : Option String
  kind : StreamEventKind
  deriving DecidableEq

def StreamEvent.effectiveBlockId (event : StreamEvent) : Option String := event.blockId <|> event.kind.toolCallId

/-! ### The validator -/

inductive StreamValidationError where
  | nonMonotonicSequence (previous actual : ℕ)
  | missingBlockId (event : String)
  | duplicateBlock (id : String)
  | unknownBlock (id : String)
  | afterTerminal
  | duplicateResponseStart
  deriving DecidableEq

structure StreamValidator where
  lastSequence : Option ℕ
  (responseStarted terminal : Bool)
  openBlocks : List String
  deriving DecidableEq

namespace StreamValidator

def default : StreamValidator := ⟨none, false, false, []⟩

variable (openBlocks : List String)

def startBlock (id : String) : Except StreamValidationError (List String) :=
  if id.isEmpty then .error (.missingBlockId "block")
  else if openBlocks.contains id then .error (.duplicateBlock id)
  else .ok (openBlocks ++ [id])

def continueBlock (id : String) : Except StreamValidationError (List String) :=
  if openBlocks.contains id then .ok openBlocks else .error (.unknownBlock id)

def endBlock (id : String) : Except StreamValidationError (List String) :=
  if openBlocks.contains id then .ok (openBlocks.erase id) else .error (.unknownBlock id)

/-- What the event does to the open blocks. -/
def acceptBlock (event : StreamEvent) : Except StreamValidationError (List String) :=
  let required : Except StreamValidationError String :=
    match event.effectiveBlockId with
    | some id => .ok id
    | none => .error (.missingBlockId event.kind.eventName)
  match event.kind.blockAction with
  | none => .ok openBlocks
  | some .start => required >>= startBlock openBlocks
  | some .continue => required >>= continueBlock openBlocks
  | some .stop => required >>= endBlock openBlocks
  | some (.startWithId id) => startBlock openBlocks id
  | some (.continueWithId id) => continueBlock openBlocks id
  | some (.endWithId id) => endBlock openBlocks id

variable (validator : StreamValidator)

def accept (event : StreamEvent) : Except StreamValidationError StreamValidator := do
  if validator.terminal then .error .afterTerminal
  else match validator.lastSequence.filter (event.sequence ≤ ·) with
  | some previous => .error (.nonMonotonicSequence previous event.sequence)
  | none =>
    if event.kind.isResponseStart && validator.responseStarted then .error .duplicateResponseStart
    else
      let openBlocks ← acceptBlock validator.openBlocks event
      .ok ⟨some event.sequence, validator.responseStarted || event.kind.isResponseStart, event.kind.isTerminal,
        openBlocks⟩

/-- Accepts the events of a stream, the first one first. -/
def acceptAll (events : List StreamEvent) :
    Except StreamValidationError StreamValidator := events.foldlM accept validator

end StreamValidator

/-! ### What a decoder emits -/

/-- The number of the last event of a decoder, and the events of all its calls. -/
structure Output where
  nextSequence : ℕ
  events : List StreamEvent

namespace Output

def empty : Output := ⟨0, []⟩

def event (out : Output) (kind : StreamEventKind) (blockId : Option String) : Output :=
  let sequence := satAdd u64Max out.nextSequence 1
  ⟨sequence, out.events ++ [⟨sequence, blockId, kind⟩]⟩

/-- The event of a decoder that counts after it has numbered, from zero on. -/
def numbered (out : Output) (kind : StreamEventKind) (blockId : Option String) : Output :=
  ⟨satAdd u64Max out.nextSequence 1, out.events ++ [⟨out.nextSequence, blockId, kind⟩]⟩

end Output

/-- An identity of the response that was seen before must not change. -/
def sameIdentity (previous current : Option String) : Bool :=
  match previous, current with
  | some previous, some current => previous = current
  | _, _ => true

/-- An event unless the text is empty. -/
def eventIfText {σ ε : Type} (text : String) (emit : StateT σ (Except ε) Unit) : StateT σ (Except ε) Unit :=
  if text.isEmpty then pure () else emit

end Pooler
