import Pooler.Spec.Protocol.ChatRequest
import Pooler.Spec.Protocol.ResponsesFields

/-! The parts of Responses messages that hold a file. -/

namespace Pooler.OpenAiResponses

open Lib
open Journal (noteIf)
open OpenAiChat (orError startsWith)

abbrev Convert := Journal Note OpenAiResponsesError

variable (field : String) (object : Assoc String Json)

def reportUnknownFields (known : List String) : Convert Unit :=
  object.forM fun entry => noteIf (!known.contains entry.1)
    (.dropOptional s!"{field}.{entry.1}" "Responses item field is not represented by the semantic model")

/-- The `input_file` part of `parse_content_part`. -/
def parseFile [Platform] : Convert ContentPart := do
  reportUnknownFields field object ["type", "file_id", "file_url", "file_data", "filename"]
  let source ← orError (OpenAiResponsesError.missingField s!"{field}.file_id, file_url, or file_data")
    ((object.get "file_id" <|> object.get "file_url" <|> object.get "file_data").bind Json.asStr)
  let filename ← optionalString object "filename" s!"{field}.filename"
  pure (.file filename "application/octet-stream" (.uri source))

/-- The member for a file, guessed from how its source starts. -/
def fileMember : MediaSource → String
  | .uri uri =>
    if startsWith "file-" uri then "file_id"
    else if startsWith "http://" uri || startsWith "https://" uri then "file_url"
    else "file_data"
  | .inline _ => "file_data"

/-- A file in `encode_content_part`. -/
def encodeFile (name : Option String) (mediaType : String) (source : MediaSource) : Convert Json :=
  pure (.object ((Assoc.ofList [("type", .string "input_file"),
    (fileMember source, .string (encodeMediaSource mediaType source))]).insertSome "filename" (name.map .string)))

end Pooler.OpenAiResponses
