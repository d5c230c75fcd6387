import LintRepair.Cli.Arguments
import LintRepair.Cli.Program
import LintRepair.Config.Basic
import LintRepair.Config.Discovery
import LintRepair.Config.FromToml
import LintRepair.Config.FromYaml
import LintRepair.Config.Loading
import LintRepair.Decimal.Binary64
import LintRepair.Decimal.Scaled
import LintRepair.Decimal.Shortest
import LintRepair.Files.Path
import LintRepair.Files.Tree
import LintRepair.Glob.Matching
import LintRepair.Glob.Parser
import LintRepair.Glob.Pattern
import LintRepair.Glob.Places
import LintRepair.Json.Fault
import LintRepair.Json.Printer
import LintRepair.Json.Reader
import LintRepair.Json.Record
import LintRepair.Json.Row
import LintRepair.Json.Value
import LintRepair.Lint.CheckResult
import LintRepair.Lint.Diagnostic
import LintRepair.Lint.Ecosystem
import LintRepair.Lint.Selection
import LintRepair.Lint.Target
import LintRepair.Main
import LintRepair.Proofs.Cli.Agreement
import LintRepair.Proofs.Cli.Documents
import LintRepair.Proofs.Cli.Inert
import LintRepair.Proofs.Cli.Output
import LintRepair.Proofs.Cli.Tools
import LintRepair.Proofs.Cli.Writing
import LintRepair.Proofs.Config.Blocks
import LintRepair.Proofs.Config.Formats
import LintRepair.Proofs.Config.Roots
import LintRepair.Proofs.Config.Sheet
import LintRepair.Proofs.Config.Tables
import LintRepair.Proofs.Config.Writing
import LintRepair.Proofs.Files.Directories
import LintRepair.Proofs.Files.Paths
import LintRepair.Proofs.Files.Reaching
import LintRepair.Proofs.Files.Writing
import LintRepair.Proofs.Glob.Alignment
import LintRepair.Proofs.Glob.Alternation
import LintRepair.Proofs.Glob.Language
import LintRepair.Proofs.Glob.Segments
import LintRepair.Proofs.Json.Alike
import LintRepair.Proofs.Json.Cells
import LintRepair.Proofs.Json.Decoding
import LintRepair.Proofs.Json.Documents
import LintRepair.Proofs.Json.Escaping
import LintRepair.Proofs.Json.Grammar
import LintRepair.Proofs.Json.Numbers
import LintRepair.Proofs.Json.Printing
import LintRepair.Proofs.Json.Quoted
import LintRepair.Proofs.Json.Reading
import LintRepair.Proofs.Json.Records
import LintRepair.Proofs.Json.Roundtrip
import LintRepair.Proofs.Json.Skipping
import LintRepair.Proofs.Json.Spelling
import LintRepair.Proofs.Json.Trimming
import LintRepair.Proofs.Json.Values
import LintRepair.Proofs.Json.Variants
import LintRepair.Proofs.Lint.Canonicity
import LintRepair.Proofs.Lint.Ownership
import LintRepair.Proofs.Lint.Records
import LintRepair.Proofs.Lint.Selection
import LintRepair.Proofs.Lint.Splitting
import LintRepair.Proofs.Repair.Account
import LintRepair.Proofs.Repair.Admission
import LintRepair.Proofs.Repair.Boundary
import LintRepair.Proofs.Repair.Counting
import LintRepair.Proofs.Repair.Course
import LintRepair.Proofs.Repair.Crowd
import LintRepair.Proofs.Repair.Encoding
import LintRepair.Proofs.Repair.Host
import LintRepair.Proofs.Repair.Interleaving
import LintRepair.Proofs.Repair.Marker
import LintRepair.Proofs.Repair.Persistence
import LintRepair.Proofs.Repair.Process
import LintRepair.Proofs.Repair.Recognition
import LintRepair.Proofs.Repair.Retention
import LintRepair.Proofs.Repair.Session
import LintRepair.Proofs.Repair.Steadiness
import LintRepair.Proofs.Repair.Succession
import LintRepair.Proofs.Repair.Transcription
import LintRepair.Proofs.Repair.Turns
import LintRepair.Proofs.Repair.Verdict
import LintRepair.Proofs.Report.FileDecoding
import LintRepair.Proofs.Report.IssueDecoding
import LintRepair.Proofs.Report.Locality
import LintRepair.Proofs.Report.MessageDecoding
import LintRepair.Proofs.Report.Relocation
import LintRepair.Proofs.Steps
import LintRepair.Proofs.Terminal.Styling
import LintRepair.Proofs.Text.Lines
import LintRepair.Proofs.Text.Occurrences
import LintRepair.Proofs.Toml.Documents
import LintRepair.Proofs.Toml.Values
import LintRepair.Proofs.Workspace.Appending
import LintRepair.Proofs.Workspace.ChangedFiles
import LintRepair.Proofs.Workspace.Keeping
import LintRepair.Proofs.Workspace.Refinement
import LintRepair.Proofs.Workspace.Reporting
import LintRepair.Proofs.Workspace.Standing
import LintRepair.Proofs.Workspace.WorkingDirectory
import LintRepair.Proofs.Yaml.Blocks
import LintRepair.Proofs.Yaml.Building
import LintRepair.Proofs.Yaml.Lexing
import LintRepair.Proofs.Yaml.Scalars
import LintRepair.Proofs.Yaml.Spacing
import LintRepair.Repair.Budget
import LintRepair.Repair.Conversation
import LintRepair.Repair.Cycle
import LintRepair.Repair.FixRequest
import LintRepair.Repair.Outcome
import LintRepair.Repair.Parallel
import LintRepair.Repair.Run
import LintRepair.Report.Diagnostics
import LintRepair.Report.FileReports
import LintRepair.Report.IssueList
import LintRepair.Report.MessageStream
import LintRepair.Shell.Arithmetic
import LintRepair.Shell.Builtin.Options
import LintRepair.Shell.Builtin.System
import LintRepair.Shell.Builtin.Variables
import LintRepair.Shell.Calling
import LintRepair.Shell.Catalogue
import LintRepair.Shell.CharacterClass
import LintRepair.Shell.Condition
import LintRepair.Shell.Execution
import LintRepair.Shell.Expansion
import LintRepair.Shell.Fields
import LintRepair.Shell.Formatted
import LintRepair.Shell.Number
import LintRepair.Shell.Pattern
import LintRepair.Shell.Process
import LintRepair.Shell.Raw
import LintRepair.Shell.Reading
import LintRepair.Shell.Redirections
import LintRepair.Shell.Regular.Matching
import LintRepair.Shell.Regular.Syntax
import LintRepair.Shell.Run
import LintRepair.Shell.Runner.Find
import LintRepair.Shell.Runner.Items
import LintRepair.Shell.Script
import LintRepair.Shell.ScriptReader
import LintRepair.Shell.Syntax
import LintRepair.Shell.System
import LintRepair.Shell.Token
import LintRepair.Shell.Tool
import LintRepair.Shell.Tool.Difference
import LintRepair.Shell.Tool.Editing.Reader
import LintRepair.Shell.Tool.Editing.Run
import LintRepair.Shell.Tool.Editing.Script
import LintRepair.Shell.Tool.Files
import LintRepair.Shell.Tool.Names
import LintRepair.Shell.Tool.Numbers
import LintRepair.Shell.Tool.Order
import LintRepair.Shell.Tool.Plain
import LintRepair.Shell.Tool.Search
import LintRepair.Shell.Tool.Text
import LintRepair.Shell.WordReader
import LintRepair.Terminal.Output
import LintRepair.Terminal.Style
import LintRepair.Text.Blank
import LintRepair.Text.Printable
import LintRepair.Text.Quoted
import LintRepair.Text.Utf8
import LintRepair.Toml.Reader
import LintRepair.Toml.Scalar
import LintRepair.Toml.Value
import LintRepair.Workspace.Basic
import LintRepair.Workspace.Transcript
import LintRepair.Yaml.Cursor
import LintRepair.Yaml.Lexer
import LintRepair.Yaml.Node
import LintRepair.Yaml.ScalarText
import LintRepair.Yaml.Tag
import LintRepair.Yaml.Token
