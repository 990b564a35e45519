import Tenancy.Access.Coverage
import Tenancy.Access.Error
import Tenancy.Access.Filter
import Tenancy.Access.Operand
import Tenancy.Access.Point
import Tenancy.Access.Provider
import Tenancy.Activity
import Tenancy.Analysis
import Tenancy.Command.Check
import Tenancy.Command.Init
import Tenancy.Command.Line
import Tenancy.Command.Options
import Tenancy.Command.Outcome
import Tenancy.Command.Reads
import Tenancy.Command.ShowSchema
import Tenancy.Facts.Build
import Tenancy.Facts.Declaration
import Tenancy.Facts.Document
import Tenancy.Facts.Handler
import Tenancy.Facts.Location
import Tenancy.Facts.Parse
import Tenancy.Files.Fault
import Tenancy.Files.Load
import Tenancy.Files.SettingsFile
import Tenancy.Files.Tree
import Tenancy.Files.Walk
import Tenancy.Glob
import Tenancy.Main
import Tenancy.Ordered
import Tenancy.Path
import Tenancy.Render.Format
import Tenancy.Render.Markdown
import Tenancy.Render.Output
import Tenancy.Render.SchemaTable
import Tenancy.Render.Style
import Tenancy.Render.Table
import Tenancy.Render.Terminal
import Tenancy.Report.Assemble
import Tenancy.Report.Basic
import Tenancy.Report.Batch
import Tenancy.Report.Finding
import Tenancy.Report.Suppression
import Tenancy.Sample
import Tenancy.Schema.Basic
import Tenancy.Schema.Classify
import Tenancy.Schema.Convention
import Tenancy.Schema.Error
import Tenancy.Schema.Label
import Tenancy.Schema.Merge
import Tenancy.Schema.Propagation
import Tenancy.Settings.Basic
import Tenancy.Settings.Check
import Tenancy.Settings.Parse
import Tenancy.Text.Blank
import Tenancy.Text.Keyword
import Tenancy.Text.Split
import Tenancy.Text.Width
import Tenancy.Text.Word
import Tenancy.Verdict.Basic
import Tenancy.Verdict.Decide
import Tenancy.Wire.Codec
import Tenancy.Wire.Json
import Tenancy.Wire.Node
import Tenancy.Wire.Problem
import Tenancy.Wire.Record
import Tenancy.Wire.Toml.Reader
import Tenancy.Wire.Toml.Table
import Tenancy.Wire.Value
import Tenancy.Wire.Variant
import Tenancy.Wire.Yaml.Reader
import Tenancy.Wire.Yaml.Scalar
import Tenancy.Proofs.Access.Address
import Tenancy.Proofs.Access.AllOrNothing
import Tenancy.Proofs.Access.Binding
import Tenancy.Proofs.Access.Column
import Tenancy.Proofs.Access.Extraction
import Tenancy.Proofs.Access.Identity
import Tenancy.Proofs.Access.Lookup
import Tenancy.Proofs.Access.Precedence
import Tenancy.Proofs.Access.Trace
import Tenancy.Proofs.Access.Unnamed
import Tenancy.Proofs.Activity.Nesting
import Tenancy.Proofs.Analysis.Balance
import Tenancy.Proofs.Analysis.Completeness
import Tenancy.Proofs.Analysis.Folding
import Tenancy.Proofs.Analysis.Insertion
import Tenancy.Proofs.Analysis.Layout
import Tenancy.Proofs.Analysis.Listing
import Tenancy.Proofs.Analysis.Strictness
import Tenancy.Proofs.Analysis.Totality
import Tenancy.Proofs.Facts.RoundTrip
import Tenancy.Proofs.Report.Arrival
import Tenancy.Proofs.Report.Assemble
import Tenancy.Proofs.Report.Counts
import Tenancy.Proofs.Report.Naming
import Tenancy.Proofs.Report.Omission
import Tenancy.Proofs.Report.Place
import Tenancy.Proofs.Report.Reassembly
import Tenancy.Proofs.Report.Reduction
import Tenancy.Proofs.Report.RoundTrip
import Tenancy.Proofs.Report.Suppression
import Tenancy.Proofs.Report.Ties
import Tenancy.Proofs.Report.Unused
import Tenancy.Proofs.Schema.Closure
import Tenancy.Proofs.Schema.Contents
import Tenancy.Proofs.Schema.Conventions
import Tenancy.Proofs.Schema.DeclarationOrder
import Tenancy.Proofs.Schema.Faults
import Tenancy.Proofs.Schema.Leftovers
import Tenancy.Proofs.Schema.Merge
import Tenancy.Proofs.Schema.Plan
import Tenancy.Proofs.Schema.Reachability
import Tenancy.Proofs.Schema.Remerge
import Tenancy.Proofs.Schema.RootInference
import Tenancy.Proofs.Schema.ScopingColumn
import Tenancy.Proofs.Schema.SupplyOrder
import Tenancy.Proofs.Schema.WellFormed
import Tenancy.Proofs.Settings.AsWritten
import Tenancy.Proofs.Settings.RoundTrip
import Tenancy.Proofs.Support.FirstMet
import Tenancy.Proofs.Support.Lists
import Tenancy.Proofs.Support.Ordered
import Tenancy.Proofs.Support.Outcomes
import Tenancy.Proofs.Support.Patterns
import Tenancy.Proofs.Support.Texts
import Tenancy.Proofs.Verdict.DecisionTable
import Tenancy.Proofs.Verdict.Dependencies
import Tenancy.Proofs.Verdict.Exemption
import Tenancy.Proofs.Verdict.Isolation
import Tenancy.Proofs.Verdict.ListingOrder
import Tenancy.Proofs.Verdict.Meaning
import Tenancy.Proofs.Verdict.Monotone
import Tenancy.Proofs.Wire.JsonText
import Tenancy.Proofs.Wire.Records
import Tenancy.Proofs.Wire.RoundTrip
import Tenancy.Proofs.Wire.Scalar
