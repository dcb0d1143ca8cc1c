import TorchArchive.Archive.Container
import TorchArchive.Archive.Description
import TorchArchive.Archive.Entry
import TorchArchive.Archive.Opening
import TorchArchive.Archive.Source
import TorchArchive.Atom
import TorchArchive.Character.Basic
import TorchArchive.Character.Composition
import TorchArchive.Character.Identifier
import TorchArchive.Character.Mark
import TorchArchive.Character.Normal
import TorchArchive.Character.Printable
import TorchArchive.Character.Upper
import TorchArchive.Command.Request
import TorchArchive.Command.Run
import TorchArchive.Datum
import TorchArchive.Dump.Build
import TorchArchive.Dump.Graph
import TorchArchive.Dump.Program
import TorchArchive.Dump.Value
import TorchArchive.Evaluation.Basic
import TorchArchive.Evaluation.Block
import TorchArchive.Evaluation.Nesting
import TorchArchive.Evaluation.Package
import TorchArchive.Event
import TorchArchive.Fault
import TorchArchive.Files
import TorchArchive.Graph.Attribute
import TorchArchive.Graph.Basic
import TorchArchive.Graph.Chart
import TorchArchive.Graph.Construction
import TorchArchive.Graph.Folding
import TorchArchive.Graph.ModuleTree
import TorchArchive.Graph.Registration
import TorchArchive.Heap.Basic
import TorchArchive.Heap.Member
import TorchArchive.Heap.Scope
import TorchArchive.Heap.Sequence
import TorchArchive.Heap.Snapshot
import TorchArchive.Heap.Store
import TorchArchive.Initializer.Basic
import TorchArchive.Initializer.Decode
import TorchArchive.Initializer.ElementType
import TorchArchive.Json.Printer
import TorchArchive.Json.Reader
import TorchArchive.Machine
import TorchArchive.Main
import TorchArchive.Number.Binary64
import TorchArchive.Number.Decimal
import TorchArchive.Number.Number
import TorchArchive.Number.Reading
import TorchArchive.Pickle.Input
import TorchArchive.Pickle.Instruction
import TorchArchive.Pickle.Load
import TorchArchive.Pickle.Reader
import TorchArchive.Pickle.Stack
import TorchArchive.Proofs.Archive.Constants
import TorchArchive.Proofs.Archive.Loading
import TorchArchive.Proofs.Archive.Reporting
import TorchArchive.Proofs.Archive.Selection
import TorchArchive.Proofs.Builtins
import TorchArchive.Proofs.Description.Filling
import TorchArchive.Proofs.Description.Loading
import TorchArchive.Proofs.Description.Nodes
import TorchArchive.Proofs.Description.Opening
import TorchArchive.Proofs.Description.Rounds
import TorchArchive.Proofs.Description.Rows
import TorchArchive.Proofs.Description.Tensors
import TorchArchive.Proofs.Equality
import TorchArchive.Proofs.Escape.Expressions
import TorchArchive.Proofs.Escape.Internal
import TorchArchive.Proofs.Escape.Laws
import TorchArchive.Proofs.Escape.Loading
import TorchArchive.Proofs.Escape.Operations
import TorchArchive.Proofs.Escape.Sources
import TorchArchive.Proofs.Escape.Statements
import TorchArchive.Proofs.Escape.Tracing
import TorchArchive.Proofs.Evaluation.Aliases
import TorchArchive.Proofs.Evaluation.Annotations
import TorchArchive.Proofs.Evaluation.Chains
import TorchArchive.Proofs.Evaluation.Changes
import TorchArchive.Proofs.Evaluation.Containers
import TorchArchive.Proofs.Evaluation.Edits
import TorchArchive.Proofs.Evaluation.Expressions
import TorchArchive.Proofs.Evaluation.Locals
import TorchArchive.Proofs.Evaluation.Packages
import TorchArchive.Proofs.Evaluation.Pickles
import TorchArchive.Proofs.Evaluation.Qualified
import TorchArchive.Proofs.Evaluation.Statements
import TorchArchive.Proofs.Evaluation.Structured
import TorchArchive.Proofs.Folding.Accounts
import TorchArchive.Proofs.Folding.Call
import TorchArchive.Proofs.Graph.Agreement
import TorchArchive.Proofs.Graph.Building
import TorchArchive.Proofs.Graph.Construction
import TorchArchive.Proofs.Graph.Dataflow
import TorchArchive.Proofs.Graph.Fallback
import TorchArchive.Proofs.Graph.Marks
import TorchArchive.Proofs.Graph.Naming
import TorchArchive.Proofs.Graph.Parameters
import TorchArchive.Proofs.Graph.Reaching
import TorchArchive.Proofs.Graph.Registration
import TorchArchive.Proofs.Graph.Reports
import TorchArchive.Proofs.Graph.Sameness
import TorchArchive.Proofs.Graph.Structure
import TorchArchive.Proofs.Graph.Visibility
import TorchArchive.Proofs.Graph.Walk
import TorchArchive.Proofs.Growth
import TorchArchive.Proofs.Initializer.Decoding
import TorchArchive.Proofs.Initializer.RowMajor
import TorchArchive.Proofs.Initializer.Strides
import TorchArchive.Proofs.Initializer.Text
import TorchArchive.Proofs.Initializer.Widening
import TorchArchive.Proofs.Json
import TorchArchive.Proofs.ModuleTree
import TorchArchive.Proofs.Number.Order
import TorchArchive.Proofs.Package.Definitions
import TorchArchive.Proofs.Package.Failure
import TorchArchive.Proofs.Package.Library
import TorchArchive.Proofs.Package.Loading
import TorchArchive.Proofs.Package.Names
import TorchArchive.Proofs.Package.Order
import TorchArchive.Proofs.Package.Places
import TorchArchive.Proofs.Package.Reserved
import TorchArchive.Proofs.Package.Tree
import TorchArchive.Proofs.Pickle.Course
import TorchArchive.Proofs.Pickle.Globals
import TorchArchive.Proofs.Pickle.Loads
import TorchArchive.Proofs.Pickle.Objects
import TorchArchive.Proofs.Pickle.References
import TorchArchive.Proofs.Pickle.Resolution
import TorchArchive.Proofs.Pickle.RoundTrip
import TorchArchive.Proofs.Pickle.Runs
import TorchArchive.Proofs.Pickle.Stream
import TorchArchive.Proofs.Pickle.Tree
import TorchArchive.Proofs.Registry.Comparisons
import TorchArchive.Proofs.Schema.Answers
import TorchArchive.Proofs.Schema.Inquiries
import TorchArchive.Proofs.Scope.Binding
import TorchArchive.Proofs.Scope.Cells
import TorchArchive.Proofs.Scope.Paths
import TorchArchive.Proofs.Script.Expressions
import TorchArchive.Proofs.Script.Fitting
import TorchArchive.Proofs.Script.Layout
import TorchArchive.Proofs.Script.Levels
import TorchArchive.Proofs.Script.Lexing
import TorchArchive.Proofs.Script.Literals
import TorchArchive.Proofs.Script.Phrases
import TorchArchive.Proofs.Script.Reading
import TorchArchive.Proofs.Script.RoundTrip
import TorchArchive.Proofs.Script.Statements
import TorchArchive.Proofs.Script.Terms
import TorchArchive.Proofs.Script.Writing
import TorchArchive.Proofs.Steps
import TorchArchive.Proofs.Trace.Names
import TorchArchive.Proofs.Trace.Order
import TorchArchive.Proofs.Trace.Restoring
import TorchArchive.Proofs.Trace.Rollback
import TorchArchive.Proofs.Trace.Session
import TorchArchive.Registry.Bindings
import TorchArchive.Registry.Builtins
import TorchArchive.Registry.Trace
import TorchArchive.Report
import TorchArchive.Schema.Bundled
import TorchArchive.Schema.Catalogue
import TorchArchive.Schema.Store
import TorchArchive.Script.Grammar.Expression
import TorchArchive.Script.Grammar.Formatted
import TorchArchive.Script.Grammar.Parser
import TorchArchive.Script.Grammar.Pattern
import TorchArchive.Script.Grammar.Statement
import TorchArchive.Script.Lexer
import TorchArchive.Script.Numeral
import TorchArchive.Script.Program
import TorchArchive.Script.Reader
import TorchArchive.Script.Spelling
import TorchArchive.Script.Syntax
import TorchArchive.Script.Term
import TorchArchive.Script.Token
import TorchArchive.Settings
import TorchArchive.Table
import TorchArchive.Text.Base64
import TorchArchive.Text.Quoted
import TorchArchive.Text.Split
import TorchArchive.Value
import TorchArchive.Yaml.Cursor
import TorchArchive.Yaml.Lexer
import TorchArchive.Yaml.Node
import TorchArchive.Yaml.Reader
import TorchArchive.Yaml.Scalar
import TorchArchive.Yaml.Text
import TorchArchive.Yaml.Timestamp
import TorchArchive.Zip.Format
import TorchArchive.Zip.Inflate
import TorchArchive.Zip.Reader
import TorchArchive.Zip.Writer
