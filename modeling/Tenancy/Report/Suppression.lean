import Tenancy.Path
import Tenancy.Report.Finding

/-!
# Suppressions

A suppression names a place and a rule. The place is a line of a file, a handler in a file, a
handler in any file, or a pattern of files; a file is also named by the last parts of its path. Only
violations can be suppressed.
-/

set_option autoImplicit false

namespace Tenancy

/-- The place that a suppression names. -/
inductive SuppressionTarget where
  | fileLine (file : String) (line : UInt32)
  | fileHandler (file handler : String)
  | anyFile (handler : String)
  | files (pattern : Glob) (text : String)
  deriving DecidableEq, Repr, Inhabited

/-- Reads a line number: digits, with or without a plus sign in front. -/
def lineNumber? (text : String) : Option UInt32 :=
  let digits := match text.toList with
    | '+' :: rest => rest
    | cs => cs
  match Wire.Node.digits? 10 digits with
  | some n => if n < UInt32.size then some (UInt32.ofNat n) else none
  | none => none

/-- Whether two texts name the same file: they are equal, or the path ends in the parts wanted. -/
def isSameFile (wanted path : String) : Bool := wanted = path || Path.endsWith path wanted

namespace SuppressionTarget

/-- The line of a file that a text names. -/
def ofFileLine? (text : String) : Option SuppressionTarget := do
  let (file, line) ← Text.splitLast? ':' text
  let line ← lineNumber? line
  return .fileLine file line

/-- Whether a text looks like a path or a pattern. -/
def looksLikePath (text : String) : Bool :=
  text.toList.any fun c => c == '/' || c == '.' || Glob.isPatternChar c

/-- The pattern of files that a text names. -/
def ofPath? (text : String) : Option SuppressionTarget :=
  if looksLikePath text then (Glob.compile? text).map fun pattern => .files pattern text else none

/-- The place that a text names. -/
def ofText (text : String) : SuppressionTarget :=
  let place := Text.trim text
  match Text.splitPair? ':' ':' place.toList with
  | some (file, handler) => .fileHandler (String.ofList file) (String.ofList handler)
  | none =>
    -- A line counts more than a pattern, and a handler is what nothing else fits.
    match ofFileLine? place, ofPath? place with
    | some target, _ => target
    | none, some target => target
    | none, none => .anyFile place

/-- Whether a finding stands at the place. -/
def covers (t : SuppressionTarget) (f : Finding) : Bool :=
  match t with
  | .fileLine file line => isSameFile file f.location.file && f.location.line = some line
  | .fileHandler file handler => isSameFile file f.location.file && handler = f.location.handler
  | .anyFile handler => handler = f.location.handler
  | .files pattern text => pattern.accepts f.location.file || isSameFile text f.location.file

end SuppressionTarget

namespace SuppressionEntry

/-- The place that an entry names. -/
def target (e : SuppressionEntry) : SuppressionTarget := .ofText e.location

/-- The rule that an entry names, if it does not name all. -/
def rule? (e : SuppressionEntry) : Option String := if e.rule = "*" then none else some e.rule

/-- Whether an entry is about the rule that a finding breaks. -/
def coversRule (e : SuppressionEntry) (f : Finding) : Bool :=
  match e.rule? with
  | none => true
  | some rule => f.ruleId = some rule

/-- Whether an entry suppresses a finding. -/
def appliesTo (e : SuppressionEntry) (f : Finding) : Bool :=
  f.isViolation && e.coversRule f && e.target.covers f

/-- The warning that an entry was of no use. -/
def unusedWarning (e : SuppressionEntry) : String :=
  let rule := e.rule?.getD "*"
  s!"suppression `{e.location}` for rule `{rule}` matched no finding"

end SuppressionEntry

end Tenancy
