import NativeUi.Build.Error
import NativeUi.Build.Orchestrator
import NativeUi.Build.Producer
import NativeUi.Build.Target
import NativeUi.Bundle.Basic
import NativeUi.Bundle.Loader
import NativeUi.Cli.Arguments
import NativeUi.Cli.Help
import NativeUi.Cli.Run
import NativeUi.Config
import NativeUi.Fields
import NativeUi.FileTree
import NativeUi.FileTree.Basic
import NativeUi.FileTree.Entry
import NativeUi.FileTree.Walk
import NativeUi.Inspect
import NativeUi.Instances
import NativeUi.Job
import NativeUi.Json.Basic
import NativeUi.Json.Draft
import NativeUi.Json.Error
import NativeUi.Json.Numeral
import NativeUi.Json.Parser
import NativeUi.Json.Printer
import NativeUi.Json.Reader
import NativeUi.Log
import NativeUi.Main
import NativeUi.Node.Basic
import NativeUi.Node.Reader
import NativeUi.Number
import NativeUi.Number.Decimal
import NativeUi.Number.Double
import NativeUi.Path
import NativeUi.Platform.Android
import NativeUi.Platform.Basic
import NativeUi.Platform.Ios
import NativeUi.Platform.MacOs
import NativeUi.Project
import NativeUi.Shell.Arithmetic
import NativeUi.Shell.Builtin.Aliases
import NativeUi.Shell.Builtin.Basic
import NativeUi.Shell.Builtin.Catalog
import NativeUi.Shell.Builtin.Flow
import NativeUi.Shell.Builtin.Signals
import NativeUi.Shell.Builtin.Texts
import NativeUi.Shell.Builtin.Variables
import NativeUi.Shell.Command
import NativeUi.Shell.Expansion
import NativeUi.Shell.Finder
import NativeUi.Shell.Launcher
import NativeUi.Shell.Machine
import NativeUi.Shell.Octets
import NativeUi.Shell.Pattern
import NativeUi.Shell.Process
import NativeUi.Shell.Program
import NativeUi.Shell.Reader
import NativeUi.Shell.Redirection
import NativeUi.Shell.Regex
import NativeUi.Shell.Script
import NativeUi.Shell.Signal
import NativeUi.Shell.State
import NativeUi.Shell.Tool.Alignment
import NativeUi.Shell.Tool.Amount
import NativeUi.Shell.Tool.Basic
import NativeUi.Shell.Tool.Calculation
import NativeUi.Shell.Tool.Calendar
import NativeUi.Shell.Tool.Catalog
import NativeUi.Shell.Tool.Columns
import NativeUi.Shell.Tool.Condition
import NativeUi.Shell.Tool.Difference
import NativeUi.Shell.Tool.Digest
import NativeUi.Shell.Tool.Dump
import NativeUi.Shell.Tool.Edit
import NativeUi.Shell.Tool.Files
import NativeUi.Shell.Tool.Filling
import NativeUi.Shell.Tool.Format
import NativeUi.Shell.Tool.Listing
import NativeUi.Shell.Tool.Modes
import NativeUi.Shell.Tool.Names
import NativeUi.Shell.Tool.Order
import NativeUi.Shell.Tool.Pieces
import NativeUi.Shell.Tool.Precedence
import NativeUi.Shell.Tool.Relation
import NativeUi.Shell.Tool.Search
import NativeUi.Shell.Tool.Tabs
import NativeUi.Shell.Tool.Temporary
import NativeUi.Shell.Tool.Texts
import NativeUi.Source.Dialect
import NativeUi.Source.Escape
import NativeUi.Source.Lowering
import NativeUi.Template.Basic
import NativeUi.Template.Reader
import NativeUi.Template.Render
import NativeUi.Text.Digits
import NativeUi.Text.Lines
import NativeUi.Text.Pattern
import NativeUi.Text.Quoted
import NativeUi.Text.Unprintable
import NativeUi.Text.Utf8
import NativeUi.Text.Visible
import NativeUi.Workspace
import NativeUi.Proofs.Text.Digits
import NativeUi.Proofs.Source.Literal
import NativeUi.Proofs.Template.Splice
import NativeUi.Proofs.Template.Scanning
import NativeUi.Proofs.Text.Lines
import NativeUi.Proofs.Text.Pattern
import NativeUi.Proofs.Source.Form
import NativeUi.Proofs.Source.Faithful
import NativeUi.Proofs.Source.Lexical
import NativeUi.Proofs.Source.Scanner
import NativeUi.Proofs.Source.Printing
import NativeUi.Proofs.Source.Spacing
import NativeUi.Proofs.Source.Xml
import NativeUi.Proofs.Number.Rounding
import NativeUi.Proofs.Json.Numeral
import NativeUi.Proofs.Fields
import NativeUi.Proofs.Job
import NativeUi.Proofs.Json.Draft
import NativeUi.Proofs.Json.Layout
import NativeUi.Proofs.Json.RoundTrip
import NativeUi.Proofs.Json.Record
import NativeUi.Proofs.Node.Grammar
import NativeUi.Proofs.Node.Merging
import NativeUi.Proofs.Node.RoundTrip
import NativeUi.Proofs.Node.NormalForm
import NativeUi.Proofs.Bundle.Section
import NativeUi.Proofs.Bundle.Strict
import NativeUi.Proofs.Bundle.Grammar
import NativeUi.Proofs.Bundle.RoundTrip
import NativeUi.Proofs.Bundle.NormalForm
import NativeUi.Proofs.Bundle.Order
import NativeUi.Proofs.Path
import NativeUi.Proofs.Path.Inner
import NativeUi.Proofs.FileTree.Plain
import NativeUi.Proofs.FileTree.Change
import NativeUi.Proofs.FileTree.Linked
import NativeUi.Proofs.FileTree.Frame
import NativeUi.Proofs.FileTree.Stored
import NativeUi.Proofs.Bundle.Storage
import NativeUi.Proofs.Config.Package
import NativeUi.Proofs.Project.Files
import NativeUi.Proofs.Project.Writing
import NativeUi.Proofs.Project.Containment
import NativeUi.Proofs.Workspace
import NativeUi.Proofs.Project.Generation
import NativeUi.Proofs.Project.Replacement
import NativeUi.Proofs.Project.Splicing
import NativeUi.Proofs.Project.Balance
import NativeUi.Proofs.Project.Trees
import NativeUi.Proofs.Project.Rendering
import NativeUi.Proofs.Config.Validation
import NativeUi.Proofs.Build.Registry
import NativeUi.Proofs.Build.Native
import NativeUi.Proofs.Build.Commutation
import NativeUi.Proofs.Build.Orchestrator
import NativeUi.Proofs.Config.RoundTrip
import NativeUi.Proofs.Inspect.Printing
import NativeUi.Proofs.Inspect.Outline
import NativeUi.Proofs.Build.Absence
import NativeUi.Proofs.Node.Preorder
import NativeUi.Proofs.Source.Placeholder
import NativeUi.Proofs.Inspect.Lines
import NativeUi.Proofs.Project.Documents
