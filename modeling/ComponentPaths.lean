import ComponentPaths.Analysis
import ComponentPaths.Arena.Basic
import ComponentPaths.Arena.Kind
import ComponentPaths.Arena.Walk
import ComponentPaths.Batch
import ComponentPaths.Category
import ComponentPaths.Command.Basic
import ComponentPaths.Command.Cat
import ComponentPaths.Command.Condition
import ComponentPaths.Command.Filter
import ComponentPaths.Command.Format
import ComponentPaths.Command.Operand
import ComponentPaths.Command.Shell.Argument
import ComponentPaths.Command.Shell.Arithmetic
import ComponentPaths.Command.Shell.Builtin
import ComponentPaths.Command.Shell.Expansion
import ComponentPaths.Command.Shell.Interpreter
import ComponentPaths.Command.Shell.Lookup
import ComponentPaths.Command.Shell.Pattern
import ComponentPaths.Command.Shell.Reader
import ComponentPaths.Command.Shell.Script
import ComponentPaths.Command.Shell.Setting
import ComponentPaths.Command.Shell.Signal
import ComponentPaths.Command.Shell.State
import ComponentPaths.Command.Shell.Syntax
import ComponentPaths.Command.Standard
import ComponentPaths.Command.System
import ComponentPaths.Component
import ComponentPaths.Csv
import ComponentPaths.Decimal.Floating
import ComponentPaths.Decimal.Shortest
import ComponentPaths.Decimal.Written
import ComponentPaths.Decision.Basic
import ComponentPaths.Decision.Call
import ComponentPaths.Decision.Relative
import ComponentPaths.Discovery
import ComponentPaths.Disk.Basic
import ComponentPaths.Disk.Path
import ComponentPaths.Disk.Work
import ComponentPaths.Dump
import ComponentPaths.Edit
import ComponentPaths.Extract
import ComponentPaths.Fault
import ComponentPaths.Finding
import ComponentPaths.Json.Document
import ComponentPaths.Json.Number
import ComponentPaths.Json.Value
import ComponentPaths.Log
import ComponentPaths.Main
import ComponentPaths.Manifest
import ComponentPaths.PathExpression.Basic
import ComponentPaths.PathExpression.Contribution
import ComponentPaths.PathExpression.Find
import ComponentPaths.PathExpression.Mark
import ComponentPaths.Proofs.Arena.Bracketing
import ComponentPaths.Proofs.Arena.Growth
import ComponentPaths.Proofs.Arena.Links
import ComponentPaths.Proofs.Arena.Walks
import ComponentPaths.Proofs.Batch.Atomic
import ComponentPaths.Proofs.Category.Ownership
import ComponentPaths.Proofs.Category.Separators
import ComponentPaths.Proofs.Command.Frame
import ComponentPaths.Proofs.Component.Identity
import ComponentPaths.Proofs.Decision.Faultless
import ComponentPaths.Proofs.Decision.Glued
import ComponentPaths.Proofs.Decision.Inputs
import ComponentPaths.Proofs.Decision.Literals
import ComponentPaths.Proofs.Decision.Rewrites
import ComponentPaths.Proofs.Decision.SameFile
import ComponentPaths.Proofs.Decision.Shortest
import ComponentPaths.Proofs.Decision.Warrants
import ComponentPaths.Proofs.Disk.Growing
import ComponentPaths.Proofs.Disk.Replacing
import ComponentPaths.Proofs.Dump.Children
import ComponentPaths.Proofs.Dump.Lowering
import ComponentPaths.Proofs.Dump.Printed
import ComponentPaths.Proofs.Edit.Disjoint
import ComponentPaths.Proofs.Edit.Splice
import ComponentPaths.Proofs.Extract.Accepted
import ComponentPaths.Proofs.Extract.Complete
import ComponentPaths.Proofs.Extract.Inward
import ComponentPaths.Proofs.Json.Members
import ComponentPaths.Proofs.Manifest.Shapes
import ComponentPaths.Proofs.PathExpression.Counted
import ComponentPaths.Proofs.PathExpression.Discovery
import ComponentPaths.Proofs.PathExpression.Inputs
import ComponentPaths.Proofs.PathExpression.Levels
import ComponentPaths.Proofs.PathExpression.Opaque
import ComponentPaths.Proofs.PathExpression.Rendered
import ComponentPaths.Proofs.PathExpression.Reports
import ComponentPaths.Proofs.PathExpression.Rules
import ComponentPaths.Proofs.PathExpression.Spelling
import ComponentPaths.Proofs.PathExpression.Structural
import ComponentPaths.Proofs.PathExpression.Surroundings
import ComponentPaths.Proofs.Report.Reading
import ComponentPaths.Proofs.Symbolic.Above
import ComponentPaths.Proofs.Symbolic.Anchoring
import ComponentPaths.Proofs.Symbolic.Collapse
import ComponentPaths.Proofs.Symbolic.Denotation
import ComponentPaths.Proofs.Symbolic.Grammar
import ComponentPaths.Proofs.Symbolic.Placeholders
import ComponentPaths.Proofs.Symbolic.Segments
import ComponentPaths.Proofs.Symbolic.Walking
import ComponentPaths.Proofs.Text.Encoding
import ComponentPaths.Proofs.Tree.Exhaustion
import ComponentPaths.Proofs.Tree.Grafting
import ComponentPaths.Proofs.Tree.Independent
import ComponentPaths.Proofs.Tree.Insertions
import ComponentPaths.Proofs.Tree.Markers
import ComponentPaths.Proofs.Tree.Owners
import ComponentPaths.Proofs.Tree.Placement
import ComponentPaths.Proofs.Tree.Plugins
import ComponentPaths.Proofs.Tree.Table
import ComponentPaths.Proofs.Tree.Visits
import ComponentPaths.Provider
import ComponentPaths.Report
import ComponentPaths.Settings
import ComponentPaths.Span
import ComponentPaths.Symbolic.Basic
import ComponentPaths.Symbolic.Expression
import ComponentPaths.Symbolic.Normal
import ComponentPaths.Text.Basic
import ComponentPaths.Text.Blank
import ComponentPaths.Text.Bytes
import ComponentPaths.Text.Octets
import ComponentPaths.Text.Printable
import ComponentPaths.Tool.Arguments
import ComponentPaths.Tool.Basic
import ComponentPaths.Tool.Session
import ComponentPaths.Tree.Basic
import ComponentPaths.Tree.Builder
import ComponentPaths.Tree.Load
import ComponentPaths.Tree.Resolve
import ComponentPaths.Tree.Table
