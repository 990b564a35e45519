import Tenancy.Analysis
import Tenancy.Facts.Parse
import Tenancy.Files.Walk
import Tenancy.Report.Batch

/-!
# Loading documents

All documents at or below a root are read. What cannot be read or makes no sense is kept as a
failure beside the rest, and both lists are in the order of their paths.
-/

set_option autoImplicit false

namespace Tenancy

namespace FileTree

/-- The words for a problem of a document. -/
def problemText (problem : Wire.Problem) : String :=
  problem.message?.getD "the text is no facts document"

/-- Loads one document. -/
def loadDocument (t : FileTree) (path : String) : Except LoadFailure SourceUnit :=
  match t.readText path with
  | .error fault => .error ⟨path, .fileRead, fault.message⟩
  | .ok text =>
    match Facts.parse path text with
    | .ok facts => .ok ⟨path, facts⟩
    | .error problem => .error ⟨path, .fileParse, problemText problem⟩

/-- The paths of the documents at or below a root, and what could not be searched. A root that is a
file is a document, whatever its name. -/
def documents (t : FileTree) (root : String) (ignore : List String) : Walk :=
  if t.isFile root then ⟨[root], []⟩ else t.walk root Walk.factExtensions ignore

/-- Loads all documents at or below a root. -/
def loadUnits (t : FileTree) (root : String) (ignore : List String) : Batch SourceUnit :=
  let found := t.documents root ignore
  let loaded := Batch.ofResults (found.files.map t.loadDocument)
  let unsearched := found.faults.map fun (path, fault) =>
    LoadFailure.mk path .directoryAccess s!"{path}: {fault.message}"
  { successes := loaded.successes.mergeSort fun a b => Path.atMost a.origin b.origin
    failures := (loaded.failures ++ unsearched).mergeSort fun a b => Path.atMost a.path b.path }

/-- Loads and analyzes all documents at or below a root. -/
def analyze (t : FileTree) (root : String) (s : Settings) : Except AnalysisError Report :=
  let loaded := t.loadUnits root s.analysis.ignore
  Analysis.run s loaded.successes loaded.failures

end FileTree

end Tenancy
