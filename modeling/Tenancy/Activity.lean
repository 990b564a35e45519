/-!
# What a run is doing

While a run goes on, it keeps track of the phase it is in and of the document and the handler it is
working on, so that a crash can be explained. Each mark that is set remembers what was current
before it; releasing the mark brings that back.
-/

set_option autoImplicit false

namespace Tenancy

/-- The stages of a run. -/
inductive Phase where
  /-- Documents are found and read. -/
  | loading
  /-- Declarations are merged and classified. -/
  | schemaClassification
  /-- Access points are found and judged. -/
  | handlerAnalysis
  /-- Findings are sorted, listed once and suppressed. -/
  | aggregation
  /-- The report is written. -/
  | outputGeneration
  deriving DecidableEq, Repr, Inhabited

namespace Phase

/-- All stages, in the order in which a run goes through them. -/
def all : List Phase :=
  [loading, schemaClassification, handlerAnalysis, aggregation, outputGeneration]

/-- The word for a stage. -/
def label : Phase → String
  | loading => "loading"
  | schemaClassification => "schema_classification"
  | handlerAnalysis => "handler_analysis"
  | aggregation => "aggregation"
  | outputGeneration => "output_generation"

/-- The stage that a word names. -/
def ofLabel? (text : String) : Option Phase := all.find? fun p => p.label = text

end Phase

/-- What a run is working on. -/
structure Activity where
  phase : Option Phase
  unit : Option String
  handler : Option String
  deriving DecidableEq, Repr, Inhabited

namespace Activity

/-- Nothing is being worked on. -/
def idle : Activity := ⟨none, none, none⟩

/-- One thing that can be said about what a run is working on. -/
inductive Mark where
  | phase (phase : Phase)
  | unit (path : String)
  | handler (name : String)
  deriving DecidableEq, Repr, Inhabited

/-- Sets what a mark says and leaves the rest. -/
def set (a : Activity) : Mark → Activity
  | .phase phase => { a with phase := some phase }
  | .unit path => { a with unit := some path }
  | .handler name => { a with handler := some name }

end Activity

/-- What is current, what each mark brings back when it is released, and how far the run is. -/
structure Tracker where
  current : Activity
  /-- What was current before each mark, in the order in which they were set; nothing once the mark
  is released. -/
  saved : List (Option Activity)
  processed : UInt64
  total : UInt64
  deriving DecidableEq, Repr, Inhabited

namespace Tracker

/-- A run that has not started. -/
def start : Tracker := ⟨.idle, [], 0, 0⟩

/-- Sets a mark. -/
def mark (t : Tracker) (m : Activity.Mark) : Tracker :=
  { t with current := t.current.set m, saved := t.saved ++ [some t.current] }

/-- Releases the mark with a given number, counted from 0, unless it is released already. -/
def release (t : Tracker) (index : Nat) : Tracker :=
  match t.saved[index]? with
  | some (some before) => { t with current := before, saved := t.saved.set index none }
  | _ => t

/-- Forgets what is current; marks that are set stay. -/
def reset (t : Tracker) : Tracker := { t with current := .idle }

/-- Says how far the run is. -/
def setProgress (t : Tracker) (processed total : UInt64) : Tracker := { t with processed, total }

/-- One more document is done. -/
def advance (t : Tracker) : Tracker := { t with processed := t.processed + 1 }

end Tracker

/-- How much of what a run does is logged, by how often more was asked for. -/
def logLevel (verbosity : Nat) : String :=
  match verbosity with
  | 0 => "warn"
  | 1 => "info"
  | 2 => "debug"
  | _ => "trace"

end Tenancy
