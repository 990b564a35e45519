import Tenancy.Report.Basic
import Tenancy.Report.Suppression

/-!
# Assembling a report

Findings may come in any order. For each access point the most severe is kept, violations that an
entry covers are marked as suppressed, entries that were of no use give a warning, and what is left
is sorted.
-/

set_option autoImplicit false

namespace Tenancy

namespace Finding

/-- The order of severities in which a missing one comes first. -/
def severityRank (f : Finding) : Nat :=
  match f.severity with
  | none => 0
  | some s => s.rank + 1

/-- Whether a finding takes the place of another for the same access point. -/
def isMoreSevere (a b : Finding) : Bool :=
  a.classification.rank < b.classification.rank
    || (a.classification.rank = b.classification.rank && b.severityRank < a.severityRank)

/-- The more severe of two findings; of equally severe ones the first. -/
def keep (current candidate : Finding) : Finding :=
  if candidate.isMoreSevere current then candidate else current

/-- The first of the most severe findings of an access point. -/
def mostSevere? (fs : List Finding) (id : String) : Option Finding :=
  match fs.filter fun f => f.accessPoint = some id with
  | [] => none
  | first :: rest => some (rest.foldl keep first)

/-- One finding per access point, in the order of their names, and then the other findings, each
once. -/
def dedup (fs : List Finding) : List Finding :=
  let ids := Ordered.ofList (fs.filterMap accessPoint)
  ids.filterMap (mostSevere? fs) ++ (fs.filter fun f => f.accessPoint.isNone).eraseDups

/-- The order of findings in a report: by location, then what needs attention first, then by access
point and text. -/
def order : Finding → Finding → Ordering :=
  compareLex (compareOn location) (compareLex (compareOn fun f => f.classification.rank)
    (compareLex (compareOn accessPoint) (compareOn rationale)))

/-- Marks a finding that an entry covers; the first such entry gives the reason. -/
def suppressBy (entries : List SuppressionEntry) (f : Finding) : Finding :=
  match entries.find? fun e => e.appliesTo f with
  | some e => { f with suppressed := true, suppressionReason := e.reason }
  | none => f

end Finding

namespace Report

/-- The places of entries that are the first to cover some finding. -/
def usedEntries (entries : List SuppressionEntry) (fs : List Finding) : List Nat :=
  fs.filterMap fun f => entries.findIdx? fun e => e.appliesTo f

/-- The warnings for entries that are not used. -/
def unusedWarnings (entries : List SuppressionEntry) (fs : List Finding) : List String :=
  let used := usedEntries entries fs
  let unused := entries.zipIdx.filter fun (_, index) => !used.contains index
  Ordered.ofList (unused.map fun (e, _) => e.unusedWarning)

/-- Assembles a report. -/
def assemble (includeSafe : Bool) (entries : List SuppressionEntry) (fs : List Finding) : Report :=
  let kept := Finding.dedup fs
  let marked := kept.map (Finding.suppressBy entries)
  -- Safe accesses are counted below even if they are not listed here.
  let listed := if includeSafe then marked else marked.filter fun f => f.classification ≠ .safe
  { tool := toolName
    version := toolVersion
    findings := listed.mergeSort fun a b => (a.order b).isLE
    summary := .ofFindings marked
    warnings := unusedWarnings entries kept }

end Report

end Tenancy
