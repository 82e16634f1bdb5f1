import Pooler.Lib.Feeding
import Pooler.Spec.Text
import Pooler.Spec.Time

/-! Server-sent events: the incremental parser of a byte stream. -/

namespace Pooler

open Lib

/-- `str::from_utf8`. -/
def fromUtf8 (bytes : List UInt8) : Option Text := (String.fromUTF8? ⟨bytes.toArray⟩).map String.toList

structure SseLimits where
  (maxLineBytes maxEventBytes : ℕ)
deriving DecidableEq, Repr

structure SseEvent where
  event : Option Text
  data : Text
  id : Option Text
deriving DecidableEq, Repr

inductive SseError
  | lineTooLarge (limit observed : ℕ)
  | eventTooLarge (limit observed : ℕ)
  | invalidUtf8
  | incomplete (bytes : ℕ)
  | invalidField (field : String)
deriving DecidableEq, Repr

structure SseParser where
  limits : SseLimits
  line : List UInt8
  pendingCr : Bool
  eventName : Option Text
  data : Text
  hasData : Bool
  lastEventId : Option Text
  eventBytes : ℕ
deriving DecidableEq, Repr

namespace SseParser

def withLimits (limits : SseLimits) : SseParser where
  limits := limits
  line := []
  pendingCr := false
  eventName := none
  data := []
  hasData := false
  lastEventId := none
  eventBytes := 0

variable (parser : SseParser) (byte : UInt8)

def pushLineByte : Fed SseError SseEvent SseParser :=
  let observed := satAdd usizeMax parser.line.length 1
  if observed > parser.limits.maxLineBytes then
    ⟨.error (.lineTooLarge parser.limits.maxLineBytes observed), parser⟩
  else ⟨.ok [], { parser with line := parser.line ++ [byte] }⟩

/-- The end of a record: the event it dispatches, if it has data. -/
def dispatch : List SseEvent × SseParser :=
  let cleared := { parser with eventName := none, data := [], hasData := false, eventBytes := 0 }
  if parser.hasData then
    ([{ event := parser.eventName.filter (· ≠ [])
        data := (stripSuffix ['\n'] parser.data).getD []
        id := parser.lastEventId }], cleared)
  else ([], cleared)

def processField (field value : Text) : SseParser :=
  if field = "event".toList then { parser with eventName := some value }
  else if field = "data".toList then { parser with data := parser.data ++ value ++ ['\n'], hasData := true }
  else if field = "id".toList then
    if '\x00' ∈ value then parser else { parser with lastEventId := some value }
  else parser

def processLine (line : Text) : List SseEvent × SseParser :=
  if line = [] then parser.dispatch
  else if line.head? = some ':' then ([], parser)
  else
    let (field, value) := (splitOnce ':' line).getD (line, [])
    ([], parser.processField field ((stripPrefix [' '] value).getD value))

/-- The line's text goes through; what it takes of the event's bound has been counted. -/
def endLine (line : Text) : Fed SseError SseEvent SseParser :=
  ⟨.ok (parser.processLine line).1, { (parser.processLine line).2 with line := [] }⟩

def finishLine (lineEndingBytes : ℕ) : Fed SseError SseEvent SseParser :=
  match fromUtf8 parser.line with
  | none => ⟨.error .invalidUtf8, parser⟩
  | some line =>
    if line.head? = some ':' then parser.endLine line
    else
      let lineBytes := satAdd usizeMax parser.line.length lineEndingBytes
      let counted := { parser with eventBytes := satAdd usizeMax parser.eventBytes lineBytes }
      if counted.eventBytes > parser.limits.maxEventBytes then
        ⟨.error (.eventTooLarge parser.limits.maxEventBytes counted.eventBytes), counted⟩
      else counted.endLine line

/-- A byte that no carriage return stands before. -/
def feedPlain : Fed SseError SseEvent SseParser :=
  if byte = '\r'.toUInt8 then ⟨.ok [], { parser with pendingCr := true }⟩
  else if byte = '\n'.toUInt8 then parser.finishLine 1
  else parser.pushLineByte byte

def feedByte : Fed SseError SseEvent SseParser :=
  if parser.pendingCr then
    let parser := { parser with pendingCr := false }
    if byte = '\n'.toUInt8 then parser.finishLine 2
    else (parser.finishLine 1).andThen fun parser => parser.feedPlain byte
  else parser.feedPlain byte

def feed : SseParser → List UInt8 → Fed SseError SseEvent SseParser := feedEach feedByte

def pendingBytes : ℕ :=
  satAdd usizeMax (satAdd usizeMax parser.line.length (String.utf8Len parser.data)) parser.eventBytes

/-- The end of the stream: an unfinished line or record is an error. -/
def finish : Fed SseError SseEvent SseParser :=
  let closed : Fed SseError SseEvent SseParser :=
    if parser.pendingCr then { parser with pendingCr := false }.finishLine 1 else ⟨.ok [], parser⟩
  closed.andThen fun parser =>
    if parser.line ≠ [] ∨ parser.hasData ∨ parser.eventName.isSome ∨ parser.eventBytes ≠ 0 then
      ⟨.error (.incomplete parser.pendingBytes), parser⟩
    else ⟨.ok [], parser⟩

end SseParser

end Pooler
