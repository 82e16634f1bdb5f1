import Pooler.Lib.Scan
import Pooler.Lib.Spans
import Pooler.Spec.Protocol.Json
import Pooler.Spec.Text

/-! The redaction policy: which parts of a text and which fields of a document are replaced before
they are recorded. Positions count characters; every test of the scanner is about an ASCII
character, so its spans end where a character ends. -/

namespace Pooler

open Lib

/-! ### Texts -/

/-- Names that stand for a secret when they are followed by a value. -/
def sensitiveMarkers : List Text :=
  ["access_token", "access-token", "api_key", "api-key", "apikey", "authorization", "bearer", "basic",
    "client_secret", "client-secret", "connection_string", "connection-string", "cookie", "credential",
    "credentials", "id_token", "id-token", "password", "passphrase", "private_key", "private-key",
    "proxy_authorization", "proxy-authorization", "refresh_token", "refresh-token", "refresh", "secret",
    "session_token", "session-token", "set_cookie", "set-cookie", "signing_key", "signing-key", "token",
    "webhook_secret", "webhook-secret", "x_api_key", "x-api-key"].map String.toList

def knownTokenPrefixes : List Text :=
  ["AKIA", "ASIA", "AIza", "gho_", "ghp_", "github_pat_", "glpat-", "hf_", "npm_", "pypi-", "r8_",
    "sk-", "xapp-", "xoxb-", "xoxp-"].map String.toList

variable (c : Char)

def isIdentifier : Bool := c.isAlphanum || c = '_' || c = '-'

def isToken : Bool := c.isAlphanum || ['.', '_', '-', '/', '+', '=', '~', ':'].contains c

def isAsciiWhitespace : Bool := [' ', '\t', '\n', '\x0c', '\r'].contains c

def isSeparator : Bool := c = ':' || c = '='

def isQuote : Bool := c = '\'' || c = '"'

/-- What ends a value without quotes. -/
def endsValue : Bool := isAsciiWhitespace c || [',', ';', '}', ']', '&'].contains c

def markerIsAuthScheme (marker : Text) : Bool := marker = "bearer".toList || marker = "basic".toList

variable (text : Text) (cursor : ℕ)

/-- The first position from the cursor on that is not whitespace. -/
def skipWhitespace : ℕ := cursor + ((text.drop cursor).takeWhile isAsciiWhitespace).length

def valueSeparator : Option Char := text[skipWhitespace text cursor]?

/-- How many characters stand before the closing quote. A quote behind a backslash does not close. -/
def quotedLength (quote : Char) : Option Char → Text → ℕ
  | _, [] => 0
  | previous, c :: rest => if c = quote && previous ≠ some '\\' then 0 else 1 + quotedLength quote (some c) rest

/-- The value that starts at the cursor, without its quotes. -/
def valueSpan : Option Span :=
  match text[cursor]? with
  | none => none
  | some c =>
    let span : Span :=
      if isQuote c then (cursor + 1, cursor + 1 + quotedLength c none (text.drop (cursor + 1)))
      else (cursor, cursor + ((text.drop cursor).takeWhile (fun c => !endsValue c)).length)
    if span.1 < span.2 then some span else none

/-- The value that belongs to a marker found at `markerStart`. -/
def markedValue (lower marker : Text) (markerStart : ℕ) : Option Span :=
  let markerEnd := markerStart + marker.length
  let followsAssignment := (valueSeparator lower markerEnd).any isSeparator
  if 0 < markerStart && lower[markerStart - 1]?.any isIdentifier && !followsAssignment then none
  else if lower[markerEnd]?.any isIdentifier then none
  else
    let cursor := skipWhitespace lower markerEnd
    match lower[cursor]? with
    | none => none
    | some c =>
      if isSeparator c then valueSpan lower (skipWhitespace lower (cursor + 1))
      else if markerIsAuthScheme marker then valueSpan lower cursor
      else none

def markedValueRanges : List Span :=
  let lower := lowercase text
  sensitiveMarkers.flatMap fun marker => (occurrences marker lower lower.length 0).filterMap (markedValue lower marker)

/-- How many token characters stand from `start` on. -/
def tokenLength (start : ℕ) : ℕ := ((text.drop start).takeWhile isToken).length

def startsToken (start : ℕ) : Bool := !(0 < start && text[start - 1]?.any isIdentifier)

def knownPrefixRanges : List Span :=
  knownTokenPrefixes.flatMap fun known =>
    (occurrences known text text.length 0).filterMap fun start =>
      let stop := start + known.length + tokenLength text (start + known.length)
      if startsToken text start && known.length + 6 ≤ stop - start then some (start, stop) else none

/-- The loop of the source asks for three more characters before it searches; a search among fewer
finds nothing. -/
def jwtRanges : List Span :=
  (occurrences "eyJ".toList text text.length 0).filterMap fun start =>
    let stop := start + tokenLength text start
    let dots := ((text.drop start).takeWhile isToken).count '.'
    if startsToken text start && 2 ≤ dots && 20 ≤ stop - start then some (start, stop) else none

def sensitiveRanges : List Span := mergeSpans (markedValueRanges text ++ knownPrefixRanges text ++ jwtRanges text)

structure RedactionPolicy where
  sensitiveKeys : KeySet String
  placeholder : String
  (maxStringLength maxDepth : ℕ)

def truncated : Text := "…[TRUNCATED]".toList

def depthLimit : String := "[REDACTED:DEPTH_LIMIT]"

namespace RedactionPolicy

variable (policy : RedactionPolicy)

def sanitizeText (text : Text) : Text :=
  truncate policy.maxStringLength truncated (replaceSpans text (sensitiveRanges text) policy.placeholder.toList)

/-! ### Documents -/

/-- A key as it was read so far, and whether its last character was a lower-case letter or digit. -/
structure KeyReader where
  normalized : Text
  previousWasLowerOrDigit : Bool

def KeyReader.read (reader : KeyReader) (c : Char) : KeyReader :=
  if c.isAlphanum then
    ⟨(if c.isUpper && reader.previousWasLowerOrDigit then reader.normalized ++ ['_'] else reader.normalized) ++
      [c.toLower], c.isLower || c.isDigit⟩
  else
    ⟨if reader.normalized.getLast? = some '_' then reader.normalized else reader.normalized ++ ['_'], false⟩

/-- Words in lower case with one `_` between them. -/
def normalizeKey (key : Text) : Text := trimBy (· = '_') ((trim key).foldl KeyReader.read ⟨[], false⟩).normalized

def dashesToUnderscores (text : Text) : Text := text.map (fun c => if c = '-' then '_' else c)

def matchesSensitiveKey (normalized : Text) : Bool :=
  sensitiveMarkers.any fun marker =>
    dashesToUnderscores normalized = dashesToUnderscores marker ||
      ('_' :: dashesToUnderscores marker).isSuffixOf (dashesToUnderscores normalized)

def isSensitiveKey (key : String) : Bool :=
  let normalized := normalizeKey key.toList
  policy.sensitiveKeys.contains (String.ofList normalized) || matchesSensitiveKey normalized

def sanitizeString (text : String) : String := String.ofList (policy.sanitizeText text.toList)

mutual

def sanitizeJsonAtDepth (policy : RedactionPolicy) (depth : ℕ) (value : Json) : Json :=
  if policy.maxDepth < depth then .string depthLimit
  else match value with
    | .null => .null
    | .bool b => .bool b
    | .number n => .number n
    | .string text => .string (policy.sanitizeString text)
    | .array values => .array (sanitizeItems policy (depth + 1) values)
    | .object fields => .object (sanitizeFields policy (depth + 1) [] fields)

def sanitizeItems (policy : RedactionPolicy) (depth : ℕ) : List Json → List Json
  | [] => []
  | value :: values => sanitizeJsonAtDepth policy depth value :: sanitizeItems policy depth values

/-- Keys are texts too, and may become equal: the last one keeps its value. -/
def sanitizeFields (policy : RedactionPolicy) (depth : ℕ) (sanitized : Assoc String Json) :
    List (String × Json) → Assoc String Json
  | [] => sanitized
  | (key, value) :: fields =>
    let value := if policy.isSensitiveKey key then .string policy.placeholder
      else sanitizeJsonAtDepth policy depth value
    sanitizeFields policy depth (sanitized.insert (policy.sanitizeString key) value) fields

end

def sanitizeJson (value : Json) : Json := policy.sanitizeJsonAtDepth 0 value

/-- The built-in policy. Its keys leave out the two schemes. -/
def strict : RedactionPolicy where
  sensitiveKeys := Std.ExtTreeSet.ofList (((sensitiveMarkers.filter (fun marker => !markerIsAuthScheme marker)).map
    dashesToUnderscores).map String.ofList) StringKeyed.cmp
  placeholder := "[REDACTED]"
  maxStringLength := 16 * 1024
  maxDepth := 64

end RedactionPolicy

/-! ### The writer -/

/-- Bytes that wait for the end of their line, and what went out. -/
structure RedactingWriter where
  pending : List UInt8
  written : Text
  deriving DecidableEq

namespace RedactingWriter

-- `String::from_utf8_lossy` reads the bytes of a line
variable (fromUtf8Lossy : List UInt8 → Text) (policy : RedactionPolicy)

def newline : UInt8 := 10

variable (writer : RedactingWriter)

def emit (bytes : List UInt8) : RedactingWriter :=
  { writer with written := writer.written ++ policy.sanitizeText (fromUtf8Lossy bytes) }

/-- Sends out the lines that are complete. The fuel bounds their number. -/
def drain : ℕ → RedactingWriter → RedactingWriter
  | 0, writer => writer
  | fuel + 1, writer =>
    match writer.pending.findIdx? (· = newline) with
    | none => writer
    | some n =>
      drain fuel (emit fromUtf8Lossy policy { writer with pending := writer.pending.drop (n + 1) }
        (writer.pending.take (n + 1)))

def write (buffer : List UInt8) : RedactingWriter :=
  drain fromUtf8Lossy policy (writer.pending ++ buffer).length { writer with pending := writer.pending ++ buffer }

def flush : RedactingWriter :=
  if writer.pending.isEmpty then writer
  else { emit fromUtf8Lossy policy writer writer.pending with pending := [] }

end RedactingWriter

end Pooler
