import SyntaxSurvey.Main
import SyntaxSurvey.Json.Reader
import SyntaxSurvey.Proofs.Parser.Recovery
import SyntaxSurvey.Proofs.Parser.Escape
import SyntaxSurvey.Proofs.Grammar.LineEnd
import SyntaxSurvey.Proofs.Collector.Escape
import SyntaxSurvey.Proofs.FileSystem.Entry
import SyntaxSurvey.Proofs.FileSystem.Descendants
import SyntaxSurvey.Proofs.FileSystem.Lookup
import SyntaxSurvey.Proofs.FileSystem.Making
import SyntaxSurvey.Proofs.FileSystem.Writing
import SyntaxSurvey.Proofs.Discovery
import SyntaxSurvey.Proofs.Image
import SyntaxSurvey.Proofs.Reading
import SyntaxSurvey.Proofs.Survey.Turn
import SyntaxSurvey.Proofs.Survey.Ledger
import SyntaxSurvey.Proofs.Survey.Ownership
import SyntaxSurvey.Graph.Sketch
import SyntaxSurvey.Proofs.Graph.Drawing
import SyntaxSurvey.Graph.Lexeme
import SyntaxSurvey.Graph.Reader
import SyntaxSurvey.Proofs.Graph.Label
import SyntaxSurvey.Proofs.Graph.Text
import SyntaxSurvey.Proofs.FileSystem.Steady
import SyntaxSurvey.Proofs.Survey.Alone
import SyntaxSurvey.Proofs.Survey.Isolation
import SyntaxSurvey.Proofs.Survey.Refinement
import SyntaxSurvey.Proofs.Summary
import SyntaxSurvey.Proofs.Log
import SyntaxSurvey.Proofs.Text.Lines
import SyntaxSurvey.Proofs.Position
import SyntaxSurvey.Proofs.Parser.Place
import SyntaxSurvey.Proofs.Survey.Stage
import SyntaxSurvey.Proofs.Survey.Counters
import SyntaxSurvey.Proofs.Survey.Coherence
import SyntaxSurvey.Proofs.Grammar.Closure
import SyntaxSurvey.Proofs.Grammar.Automaton
import SyntaxSurvey.Proofs.Grammar.Table
import SyntaxSurvey.Proofs.Grammar.Hidden
import SyntaxSurvey.Proofs.Parser.Stack
import SyntaxSurvey.Proofs.Parser.Slices
import SyntaxSurvey.Proofs.Parser.Leaves
import SyntaxSurvey.Parser.Strict
import SyntaxSurvey.Proofs.Collector.Strict
import SyntaxSurvey.Proofs.FileSystem.Following
import SyntaxSurvey.Proofs.FileSystem.Updating
import SyntaxSurvey.Proofs.FileSystem.Directories
import SyntaxSurvey.Proofs.Survey.Failure
import SyntaxSurvey.Proofs.FileSystem.Providing
import SyntaxSurvey.Proofs.Survey.Retention
import SyntaxSurvey.Proofs.CommandLine.Arguments
import SyntaxSurvey.Proofs.CommandLine.Run
import SyntaxSurvey.Json.Grammar
import SyntaxSurvey.Proofs.Json.Numeral
import SyntaxSurvey.Proofs.Json.Reader
import SyntaxSurvey.Proofs.Number.Nearest
import SyntaxSurvey.Proofs.Number.Decimal
import SyntaxSurvey.Proofs.Number.Shortest
import SyntaxSurvey.Proofs.Number.Text
import SyntaxSurvey.Proofs.Json.Writer
import SyntaxSurvey.Proofs.Json.Words
import SyntaxSurvey.Proofs.Text.Utf8
import SyntaxSurvey.Proofs.Report.Saving
import SyntaxSurvey.Proofs.Report.Lossless
import SyntaxSurvey.Proofs.Image.Saving
import SyntaxSurvey.Proofs.Survey.Story
import SyntaxSurvey.Proofs.Collector.Objects
import SyntaxSurvey.Proofs.Discovery.Listing
import SyntaxSurvey.Proofs.Survey.Untimed
import SyntaxSurvey.Proofs.Survey.Rerun
import SyntaxSurvey.FileSystem.Traversal
import SyntaxSurvey.Proofs.Document
import SyntaxSurvey.Proofs.Document.Undecodable
import SyntaxSurvey.Proofs.Text.Decoding
import SyntaxSurvey.Proofs.FileSystem.Traversal
import SyntaxSurvey.Proofs.FileSystem.Orderly
import SyntaxSurvey.Proofs.Discovery.Walk
import SyntaxSurvey.Proofs.Image.Directory
import SyntaxSurvey.Proofs.Survey.Beside
import SyntaxSurvey.Proofs.Text.Unbroken
import SyntaxSurvey.Proofs.Diagnostic
import SyntaxSurvey.Proofs.Survey.Account
import SyntaxSurvey.Proofs.Number.Overflow
import SyntaxSurvey.Proofs.Survey.Scale
import SyntaxSurvey.Proofs.CommandLine.Scale
