import Tenancy.Verdict.Decide

/-!
# Findings

One line of a report: the verdict on an access, or a handler or a document that could not be
analyzed.
-/

set_option autoImplicit false

namespace Tenancy

open Wire

/-- The steps of loading a document that can fail. -/
inductive LoadStep where
  | fileRead
  | fileParse
  | directoryAccess
  deriving DecidableEq, Repr, Inhabited

namespace LoadStep

/-- All steps. -/
def all : List LoadStep := [fileRead, fileParse, directoryAccess]

/-- The written form of a step. -/
def key : LoadStep → String
  | fileRead => "file_read"
  | fileParse => "file_parse"
  | directoryAccess => "directory_access"

/-- The words for a step. -/
def label : LoadStep → String
  | fileRead => "File read"
  | fileParse => "File parse"
  | directoryAccess => "Directory access"

/-- The code of a failure in a step. -/
def code : LoadStep → String
  | fileRead => "E001"
  | fileParse => "E002"
  | directoryAccess => "E001"

end LoadStep

/-- A document that could not be loaded. Failures are made in one way for each step, and with the
code of that step, so the code is not a part of its own. -/
structure LoadFailure where
  path : String
  step : LoadStep
  error : String
  deriving DecidableEq, Repr, Inhabited

namespace LoadFailure

/-- The code of a failure, which is that of the step it was made in. -/
def code (f : LoadFailure) : String := f.step.code

/-- A failure as a value. -/
def toValue (f : LoadFailure) : Value :=
  .record [("path", .text f.path), ("operation", .text f.step.key), ("code", .text f.code),
    ("error", .text f.error)]

end LoadFailure

/-- One line of a report. -/
structure Finding where
  accessPoint : Option String
  location : Location
  classification : Classification
  kind : Option ViolationKind
  ruleId : Option String
  severity : Option Severity
  entities : List String
  operation : Option OperationKind
  rationale : String
  suggestedFix : Option String
  errorCode : Option String
  suppressed : Bool
  suppressionReason : Option String
  deriving DecidableEq, Repr, Inhabited

namespace Finding

/-- The finding of a verdict. -/
def ofVerdict (p : AccessPoint) (v : Verdict) : Finding where
  accessPoint := some v.accessPoint
  location := p.location
  classification := v.classification
  kind := v.kind
  ruleId := v.kind.map ViolationKind.ruleId
  severity := v.severity
  entities := p.targets.toList
  operation := some p.kind
  rationale := v.rationale
  suggestedFix := v.suggestedFix
  errorCode := none
  suppressed := false
  suppressionReason := none

/-- The finding of something that could not be analyzed. -/
def unknown (location : Location) (rationale code : String) : Finding where
  accessPoint := none
  location
  classification := .unknown
  kind := none
  ruleId := none
  severity := none
  entities := []
  operation := none
  rationale
  suggestedFix := none
  errorCode := some code
  suppressed := false
  suppressionReason := none

/-- The finding of a handler that could not be analyzed. -/
def ofHandlerError (e : HandlerError) : Finding :=
  unknown e.location s!"could not analyze handler: {e.error.message}" e.error.code

/-- The finding of a document that could not be loaded. -/
def ofLoadFailure (f : LoadFailure) : Finding :=
  unknown (.ofFile f.path) s!"{f.step.label} failed: {f.error}" f.code

/-- Whether an access breaks a rule. -/
def isViolation (f : Finding) : Bool := f.classification = .violation

/-- Whether an access breaks a rule and nobody has accepted that. -/
def isBlocking (f : Finding) : Bool := f.isViolation && !f.suppressed

/-- How findings are written. -/
def codec : Codec Finding :=
  (Codec.record false
    (.cons (.sparse "access_point_id" .text)
    (.cons (.required "location" Location.codec)
    (.cons (.required "classification" Classification.codec)
    (.cons (.sparse "violation_kind" ViolationKind.codec)
    (.cons (.sparse "rule_id" .text)
    (.cons (.sparse "severity" Severity.codec)
    (.cons (.required "entities" Codec.text.list)
    (.cons (.sparse "operation" OperationKind.codec)
    (.cons (.required "rationale" .text)
    (.cons (.sparse "suggested_fix" .text)
    (.cons (.sparse "error_code" .text)
    (.cons (.fallingBack "suppressed" .flag false)
    (.cons (.sparse "suppression_reason" .text) .nil)))))))))))))).imap
    (fun (accessPoint, location, classification, kind, ruleId, severity, entities, operation,
        rationale, suggestedFix, errorCode, suppressed, suppressionReason, _) =>
      ⟨accessPoint, location, classification, kind, ruleId, severity, entities, operation,
        rationale, suggestedFix, errorCode, suppressed, suppressionReason⟩)
    (fun f => (f.accessPoint, f.location, f.classification, f.kind, f.ruleId, f.severity,
      f.entities, f.operation, f.rationale, f.suggestedFix, f.errorCode, f.suppressed,
      f.suppressionReason, ()))

end Finding

end Tenancy
