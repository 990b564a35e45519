import Tenancy.Facts.Document
import Tenancy.Report.Assemble
import Tenancy.Schema.Classify

/-!
# The analysis of an application

The declarations of all units make up one schema; the handlers of every unit are judged against it,
unit by unit in the order of their paths. What cannot be analyzed is listed as unknown, or ends the
run if the settings are strict.
-/

set_option autoImplicit false

namespace Tenancy

/-- A facts document and the path it was loaded from. -/
structure SourceUnit where
  origin : String
  facts : Facts
  deriving Repr, Inhabited

/-- Why an analysis ends without a report. -/
inductive AnalysisError where
  | schema (error : SchemaError)
  | extraction (location : String) (error : ExtractionError)
  | evaluation (error : EvaluationError)
  | load (failure : LoadFailure)
  deriving DecidableEq, Repr, Inhabited

namespace AnalysisError

/-- The code of an error. -/
def code : AnalysisError → String
  | schema e => e.code
  | extraction _ e => e.code
  | evaluation e => e.code
  | load f => f.code

/-- The part of the analysis that an error comes from. -/
def category : AnalysisError → String
  | schema _ => "Schema"
  | extraction _ _ => "Extraction"
  | evaluation _ => "Evaluation"
  | load _ => "Load"

/-- The text of an error. -/
def message : AnalysisError → String
  | schema e => s!"schema error: {e.message}"
  | extraction location e => s!"extraction failed in {location}: {e.message}"
  | evaluation e => s!"internal evaluation error: {e.message}"
  | load f => s!"failed to load facts from {f.path}: {f.error}"

end AnalysisError

namespace Analysis

/-- The schema of all units. -/
def classify (s : Settings) (units : List SourceUnit) : Except SchemaError Schema :=
  Schema.classify s.schema (units.flatMap fun u => u.facts.declarations)

/-- The findings of access points, one for each that is executed. -/
def judgePoints (schema : Schema) : List AccessPoint → Except EvaluationError (List Finding)
  | [] => .ok []
  | p :: rest => do
    let verdict ← p.evaluate schema
    let others ← judgePoints schema rest
    return (verdict.map (Finding.ofVerdict p)).toList ++ others

/-- The findings of a handler. A handler without access points is listed as unknown, or ends the run
if the settings are strict. -/
def judgeHandler (strict : Bool) (x : Extractor) (h : Handler) :
    Except AnalysisError (List Finding) :=
  match x.extract h with
  | .ok points =>
    match judgePoints x.schema points with
    | .ok findings => .ok findings
    | .error e => .error (.evaluation e)
  | .error e =>
    if strict then .error (.extraction e.location.toText e.error)
    else .ok [.ofHandlerError e]

/-- The handlers of all units that are not left out, unit by unit in the order of their paths. -/
def handlers (x : Extractor) (units : List SourceUnit) : List Handler :=
  let ordered := units.mergeSort fun a b => Path.atMost a.origin b.origin
  (ordered.flatMap fun u => u.facts.handlers).filter fun h => !x.isIgnored h.location

/-- The findings of all units. -/
def findings (s : Settings) (schema : Schema) (units : List SourceUnit) :
    Except AnalysisError (List Finding) := do
  let x := Extractor.ofSettings schema s
  let found ← (handlers x units).mapM (judgeHandler s.analysis.strict x)
  return found.flatten

/-- Analyzes units. `failures` are the documents that could not be loaded. -/
def run (s : Settings) (units : List SourceUnit) (failures : List LoadFailure) :
    Except AnalysisError Report :=
  match s.analysis.strict, failures with
  -- Strict settings do not even classify the schema after a failure.
  | true, failure :: _ => .error (.load failure)
  | _, _ =>
    match classify s units with
    | .error e => .error (.schema e)
    | .ok schema => do
      let found ← findings s schema units
      return .assemble s.analysis.includeSafe s.suppressions
        (failures.map Finding.ofLoadFailure ++ found)

end Analysis

end Tenancy
