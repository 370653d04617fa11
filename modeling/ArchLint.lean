import ArchLint.Allowance
import ArchLint.Analyzer
import ArchLint.Command
import ArchLint.Config
import ArchLint.Config.Source
import ArchLint.Config.Template
import ArchLint.Decimal.Shortest
import ArchLint.Discovery
import ArchLint.Glob
import ArchLint.Ignore
import ArchLint.Ignore.Pattern
import ArchLint.Java
import ArchLint.Java.Concrete
import ArchLint.Java.Content
import ArchLint.Java.Grammar
import ArchLint.Java.Lexeme
import ArchLint.Java.Lowering
import ArchLint.Java.Parser
import ArchLint.Java.Parser.Basic
import ArchLint.Java.Parser.Declarations
import ArchLint.Java.Parser.Expressions
import ArchLint.Java.Parser.Statements
import ArchLint.Java.Parser.Types
import ArchLint.Java.Plan
import ArchLint.Json
import ArchLint.Json.Parser
import ArchLint.Json.Printer
import ArchLint.Main
import ArchLint.Path
import ArchLint.Proofs.Allowance
import ArchLint.Proofs.Analyzer.History
import ArchLint.Proofs.Analyzer.Packages
import ArchLint.Proofs.Analyzer.Selection
import ArchLint.Proofs.Analyzer.Settings
import ArchLint.Proofs.Analyzer.Shares
import ArchLint.Proofs.Analyzer.Success
import ArchLint.Proofs.Java.Arrangement
import ArchLint.Proofs.Java.Bare
import ArchLint.Proofs.Java.Bindings
import ArchLint.Proofs.Java.Chains
import ArchLint.Proofs.Java.Comments
import ArchLint.Proofs.Java.Conformance
import ArchLint.Proofs.Java.Content
import ArchLint.Proofs.Java.Declarations
import ArchLint.Proofs.Java.Depth
import ArchLint.Proofs.Java.Faults
import ArchLint.Proofs.Java.Fields
import ArchLint.Proofs.Java.Filling
import ArchLint.Proofs.Java.Legality
import ArchLint.Proofs.Java.Lines
import ArchLint.Proofs.Java.Names
import ArchLint.Proofs.Java.Order
import ArchLint.Proofs.Java.Parentheses
import ArchLint.Proofs.Java.Parser.Basic
import ArchLint.Proofs.Java.Parser.Declarations
import ArchLint.Proofs.Java.Parser.Expressions
import ArchLint.Proofs.Java.Parser.Source
import ArchLint.Proofs.Java.Parser.Statements
import ArchLint.Proofs.Java.Parser.Types
import ArchLint.Proofs.Java.Pending
import ArchLint.Proofs.Java.Records
import ArchLint.Proofs.Java.Shape
import ArchLint.Proofs.Java.Sites
import ArchLint.Proofs.Java.Targets
import ArchLint.Proofs.Json.RoundTrip
import ArchLint.Proofs.Query.Definitions
import ArchLint.Proofs.Query.Locality
import ArchLint.Proofs.Query.Names
import ArchLint.Proofs.Query.Resolution
import ArchLint.Proofs.Query.Success
import ArchLint.Proofs.Report.Colours
import ArchLint.Proofs.Report.Json
import ArchLint.Proofs.Report.Merging
import ArchLint.Proofs.Report.Order
import ArchLint.Proofs.Rule.BaseClass
import ArchLint.Proofs.Rule.Dependency
import ArchLint.Proofs.Rule.Exact
import ArchLint.Proofs.Rule.Independence
import ArchLint.Proofs.Rule.Reassignment
import ArchLint.Proofs.Rule.Reports
import ArchLint.Proofs.Rule.Spans
import ArchLint.Proofs.Rule.Suppression
import ArchLint.Proofs.Rule.Walk
import ArchLint.Proofs.Syntax.Acceptance
import ArchLint.Proofs.Syntax.Arena
import ArchLint.Proofs.Syntax.Arrangement
import ArchLint.Proofs.Syntax.Bracket
import ArchLint.Proofs.Syntax.Context
import ArchLint.Proofs.Syntax.Draft
import ArchLint.Proofs.Syntax.Layout
import ArchLint.Proofs.Syntax.Navigation
import ArchLint.Proofs.Syntax.Outline
import ArchLint.Proofs.Syntax.Soundness
import ArchLint.Proofs.Syntax.Traversal
import ArchLint.Proofs.Text.Cutting
import ArchLint.Proofs.Text.Lines
import ArchLint.Query.Assignment
import ArchLint.Query.Binding
import ArchLint.Query.Declaration
import ArchLint.Query.Error
import ArchLint.Query.Name
import ArchLint.Report
import ArchLint.Report.Excerpt
import ArchLint.Report.Format
import ArchLint.Report.Json
import ArchLint.Report.Text
import ArchLint.Rule
import ArchLint.Rule.BaseClass
import ArchLint.Rule.Dependency
import ArchLint.Rule.Parameter
import ArchLint.Rule.Registry
import ArchLint.Severity
import ArchLint.SourceFile
import ArchLint.SourceParser
import ArchLint.Syntax.Builder
import ArchLint.Syntax.Dump
import ArchLint.Syntax.Kind
import ArchLint.Syntax.Term
import ArchLint.Syntax.Tree
import ArchLint.Text.Blank
import ArchLint.Text.CharSet
import ArchLint.Text.Hex
import ArchLint.Text.Identifier
import ArchLint.Text.Line
import ArchLint.Text.Pad
import ArchLint.Text.Printable
import ArchLint.Text.Quoted
import ArchLint.Text.Segment
import ArchLint.Text.Width
import ArchLint.Text.Wrap
import ArchLint.Toml
import ArchLint.Toml.Datetime
import ArchLint.Toml.Reader
import ArchLint.Toml.Table
import ArchLint.Toml.Value
import ArchLint.Violation
import ArchLint.Volume
