import Pooler.Lib.Journal
import Pooler.Spec.Protocol.ChatFields
import Pooler.Spec.Protocol.Events

/-! Loss accounting of a conversion: the calls a codec makes on its report, and the report they leave. -/

namespace Pooler

open Lib

structure ConversionReport where
  (preservedCapabilities degradedFields droppedOptionalFields unsupportedRequiredFields : List String)
  preservedExtensions : List ExtensionKey
  rulesApplied : List String
  warnings : List ConversionWarning

/-- A call on the report. -/
inductive Note where
  | preserveCapability (capability : String)
  | dropOptional (field reason : String)
  | unsupportedRequired (field reason : String)
  | preserveExtension (extension : ExtensionKey)
  | applyRule (rule : String)

/-- The field is lost. -/
def Note.isLoss : Note → Bool
  | .dropOptional _ _ | .unsupportedRequired _ _ => true
  | .preserveCapability _ | .preserveExtension _ | .applyRule _ => false

def pushUnique {α : Type} [DecidableEq α] (values : List α) (value : α) : List α :=
  if values.contains value then values else values ++ [value]

namespace ConversionReport

def default : ConversionReport := ⟨[], [], [], [], [], [], []⟩

def warning (code field reason : String) : ConversionWarning := ⟨code, reason, some field, .warning⟩

def record (report : ConversionReport) : Note → ConversionReport
  | .preserveCapability capability =>
    { report with preservedCapabilities := pushUnique report.preservedCapabilities capability }
  | .dropOptional field reason =>
    { report with
      droppedOptionalFields := pushUnique report.droppedOptionalFields field
      warnings := report.warnings ++ [warning "dropped_optional_field" field reason] }
  | .unsupportedRequired field reason =>
    { report with
      unsupportedRequiredFields := pushUnique report.unsupportedRequiredFields field
      warnings := report.warnings ++ [warning "unsupported_required_field" field reason] }
  | .preserveExtension extension =>
    { report with
      preservedExtensions := pushUnique report.preservedExtensions extension
      preservedCapabilities := pushUnique report.preservedCapabilities extension.asStr }
  | .applyRule rule => { report with rulesApplied := pushUnique report.rulesApplied rule }

def ofNotes (notes : List Note) : ConversionReport := notes.foldl record default

def validate (report : ConversionReport) (policy : LossPolicy) : Except ConversionError Unit :=
  let disallowedLosses :=
    match policy with
    | .reject | .preserve => report.degradedFields ++ report.droppedOptionalFields
    | .degrade => []
  if report.unsupportedRequiredFields.isEmpty && disallowedLosses.isEmpty then .ok ()
  else .error ⟨policy, report.unsupportedRequiredFields, disallowedLosses⟩

end ConversionReport

end Pooler
