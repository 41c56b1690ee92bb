import LintRepair.Command.Arguments
import LintRepair.Command.Declaration
import LintRepair.Command.Offered
import LintRepair.Command.Run
import LintRepair.Command.Suggestion
import LintRepair.Config.Basic
import LintRepair.Config.Load
import LintRepair.Config.Schema
import LintRepair.Config.Settings
import LintRepair.Fault
import LintRepair.Files.Glob
import LintRepair.Files.Pattern.Braces
import LintRepair.Files.Pattern.Parts
import LintRepair.Files.Pattern.Piece
import LintRepair.Files.Pattern.Spelling
import LintRepair.Files.Problem
import LintRepair.Files.Route
import LintRepair.Files.Tree
import LintRepair.Log
import LintRepair.Logger
import LintRepair.Main
import LintRepair.Marks.Basic
import LintRepair.Marks.Reading
import LintRepair.Marks.Script
import LintRepair.Project.Batches
import LintRepair.Project.Discovery
import LintRepair.Project.Mine
import LintRepair.Project.Repair
import LintRepair.Project.Values
import LintRepair.Project.Work
import LintRepair.Proofs.Command.Concurrency
import LintRepair.Proofs.Project.Batching
import LintRepair.Proofs.Project.Census
import LintRepair.Proofs.Project.FileWise
import LintRepair.Proofs.Project.Files
import LintRepair.Proofs.Project.Independence
import LintRepair.Proofs.Project.Naming
import LintRepair.Proofs.Project.Windows
import LintRepair.Proofs.Repair.Batch
import LintRepair.Proofs.Repair.Blurring
import LintRepair.Proofs.Repair.Budget
import LintRepair.Proofs.Repair.Compatibility
import LintRepair.Proofs.Repair.Conservation
import LintRepair.Proofs.Repair.Courses
import LintRepair.Proofs.Repair.Discipline
import LintRepair.Proofs.Repair.Findings
import LintRepair.Proofs.Repair.FixedPoint
import LintRepair.Proofs.Repair.Isolation
import LintRepair.Proofs.Repair.Landing
import LintRepair.Proofs.Repair.Ledger
import LintRepair.Proofs.Repair.Locality
import LintRepair.Proofs.Repair.Merging
import LintRepair.Proofs.Repair.Passes
import LintRepair.Proofs.Repair.Releases
import LintRepair.Proofs.Repair.Reports
import LintRepair.Proofs.Repair.Requests
import LintRepair.Proofs.Repair.Resilience
import LintRepair.Proofs.Repair.Resolution
import LintRepair.Proofs.Repair.Results
import LintRepair.Proofs.Repair.Resuming
import LintRepair.Proofs.Repair.Rewording
import LintRepair.Proofs.Repair.Rounds
import LintRepair.Proofs.Repair.RuleOrder
import LintRepair.Proofs.Repair.Selection
import LintRepair.Proofs.Repair.SourceSplices
import LintRepair.Proofs.Repair.Steadiness
import LintRepair.Proofs.Repair.Tallies
import LintRepair.Proofs.Repair.Termination
import LintRepair.Proofs.Repair.Totals
import LintRepair.Proofs.Repair.Truncation
import LintRepair.Proofs.Repair.Turns
import LintRepair.Proofs.Repair.Yields
import LintRepair.Proofs.Report.Occurrences
import LintRepair.Proofs.Rules.Canonical
import LintRepair.Proofs.Rules.Declarations
import LintRepair.Proofs.Rules.Effects
import LintRepair.Proofs.Rules.Listing
import LintRepair.Proofs.Rules.Mending
import LintRepair.Proofs.Rules.Outlines
import LintRepair.Proofs.Rules.Placement
import LintRepair.Proofs.Rules.Redeclarations
import LintRepair.Proofs.Syntax.Exactness
import LintRepair.Proofs.Syntax.Expressions
import LintRepair.Proofs.Syntax.Filling
import LintRepair.Proofs.Syntax.Fragments
import LintRepair.Proofs.Syntax.Losslessness
import LintRepair.Proofs.Syntax.Mirroring
import LintRepair.Proofs.Syntax.Spans
import LintRepair.Proofs.Syntax.Statements
import LintRepair.Proofs.Text.Splices
import LintRepair.Proofs.Tree.Atomicity
import LintRepair.Proofs.Tree.Caching
import LintRepair.Proofs.Tree.CommaLists
import LintRepair.Proofs.Tree.Deletion
import LintRepair.Proofs.Tree.Enclosing
import LintRepair.Proofs.Tree.Framing
import LintRepair.Proofs.Tree.Grafting
import LintRepair.Proofs.Tree.History
import LintRepair.Proofs.Tree.Locations
import LintRepair.Proofs.Tree.Origins
import LintRepair.Proofs.Tree.Preservation
import LintRepair.Proofs.Tree.Slots
import LintRepair.Proofs.Tree.Spelling
import LintRepair.Proofs.Tree.Splicing
import LintRepair.Proofs.Tree.Subtrees
import LintRepair.Proofs.Tree.Tidying
import LintRepair.Proofs.Tree.Tiling
import LintRepair.Proofs.Tree.WellFormed
import LintRepair.Repair.Batch
import LintRepair.Repair.Engine
import LintRepair.Repair.Journal
import LintRepair.Repair.Overlap
import LintRepair.Repair.Pass
import LintRepair.Repair.Statistics
import LintRepair.Report.Basic
import LintRepair.Report.Human
import LintRepair.Report.Json
import LintRepair.Report.Run
import LintRepair.Rule
import LintRepair.Rules.Checks
import LintRepair.Rules.Engine
import LintRepair.Rules.Forms
import LintRepair.Rules.Repairs
import LintRepair.Syntax.Ast
import LintRepair.Syntax.Comments
import LintRepair.Syntax.Complaint
import LintRepair.Syntax.Data
import LintRepair.Syntax.Document
import LintRepair.Syntax.Grammar.Access
import LintRepair.Syntax.Grammar.Bindings
import LintRepair.Syntax.Grammar.Data
import LintRepair.Syntax.Grammar.Declarations
import LintRepair.Syntax.Grammar.Expressions
import LintRepair.Syntax.Grammar.File
import LintRepair.Syntax.Grammar.Lists
import LintRepair.Syntax.Grammar.Markup
import LintRepair.Syntax.Grammar.Names
import LintRepair.Syntax.Grammar.Starts
import LintRepair.Syntax.Grammar.State
import LintRepair.Syntax.Grammar.Statements
import LintRepair.Syntax.Grammar.Types
import LintRepair.Syntax.Kind
import LintRepair.Syntax.Layout.Edits
import LintRepair.Syntax.Layout.File
import LintRepair.Syntax.Layout.Lines
import LintRepair.Syntax.Layout.Nesting
import LintRepair.Syntax.Layout.Reading
import LintRepair.Syntax.Layout.Site
import LintRepair.Syntax.Layout.Spacing
import LintRepair.Syntax.Layout.Walk
import LintRepair.Syntax.Letters
import LintRepair.Syntax.Print.Declarations
import LintRepair.Syntax.Print.Expressions
import LintRepair.Syntax.Print.File
import LintRepair.Syntax.Print.Lists
import LintRepair.Syntax.Print.Markup
import LintRepair.Syntax.Print.Page
import LintRepair.Syntax.Print.Parts
import LintRepair.Syntax.Print.Remarks
import LintRepair.Syntax.Print.Statements
import LintRepair.Syntax.Print.Types
import LintRepair.Syntax.References
import LintRepair.Syntax.Token
import LintRepair.Syntax.Token.Escape
import LintRepair.Syntax.Token.Number
import LintRepair.Syntax.Token.Quoted
import LintRepair.Syntax.Token.Scan
import LintRepair.Syntax.Trivia
import LintRepair.Syntax.Untyped
import LintRepair.Syntax.Walk
import LintRepair.Text.Basic
import LintRepair.Text.Blank
import LintRepair.Text.Expression
import LintRepair.Text.Expression.Reading
import LintRepair.Text.Position
import LintRepair.Tree.Basic
import LintRepair.Tree.Edit
import LintRepair.Tree.Template
import LintRepair.Value.Basic
import LintRepair.Value.Fields
import LintRepair.Value.Json
import LintRepair.Value.Literal
import LintRepair.Value.Number
import LintRepair.Violation
import LintRepair.Wording
import LintRepair.Yaml.Draft
import LintRepair.Yaml.Draft.Build
import LintRepair.Yaml.Excerpt
import LintRepair.Yaml.Fold
import LintRepair.Yaml.Lexeme
import LintRepair.Yaml.Lexeme.Scan
import LintRepair.Yaml.Node
import LintRepair.Yaml.Read
import LintRepair.Yaml.Resolve
import LintRepair.Yaml.Scalar
import LintRepair.Yaml.Schema
import LintRepair.Yaml.Timestamp
import LintRepair.Yaml.Written
