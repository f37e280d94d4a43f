import Scribe.Text.Lines
import Scribe.Text.Quoted
import Scribe.Text.Scoped
import Scribe.Text.Numeral
import Scribe.TypeName
import Scribe.ParseTree
import Scribe.Program.Traversal
import Scribe.Reading.Reader
import Scribe.Printing.Document
import Scribe.Printing.Writer
import Scribe.Json.Binary
import Scribe.Json.Reader
import Scribe.Json.Writer
import Scribe.Program.Encode
import Scribe.Program.Decode
import Scribe.Printing.Coverage
import Scribe.Audit
import Scribe.CommandLine.Run
import Scribe.ParseTree.Document
import Scribe.Main
import Scribe.Proofs.Recorded
import Scribe.Proofs.Slots
import Scribe.Proofs.Contexts
import Scribe.Proofs.RuleInvariant
import Scribe.Proofs.ExpressionSlots
import Scribe.Proofs.Sorts
import Scribe.Proofs.ReadingSorts
import Scribe.Proofs.WellSorted
import Scribe.Proofs.PrintingFailure
import Scribe.Proofs.SortedPrinting
import Scribe.Proofs.JsonRoundTrip
import Scribe.Proofs.Loading
import Scribe.Proofs.Documents
import Scribe.Proofs.RuleKinds
import Scribe.Proofs.Noise
import Scribe.Proofs.RuleRun
import Scribe.Proofs.ReadingFailure
import Scribe.Proofs.ExpressionTokens
import Scribe.Proofs.Segments
import Scribe.Proofs.PlainPrinting
import Scribe.Proofs.Trimming
import Scribe.Proofs.ScopedNames
import Scribe.Proofs.NestedItems
import Scribe.Proofs.DeclaredNames
import Scribe.Proofs.QualifiedNames
import Scribe.Proofs.Composition
import Scribe.Proofs.OlderForm
import Scribe.Proofs.VisibleText
import Scribe.Proofs.Brackets
import Scribe.Proofs.BalancedPrinting
import Scribe.Proofs.OperatorLexing
import Scribe.Proofs.SpelledLines
import Scribe.Proofs.ExpressionPieces
import Scribe.Proofs.PrintedOperators
import Scribe.Proofs.DeclaratorNames
import Scribe.Proofs.DeclaredVariables
import Scribe.Proofs.Grouping
import Scribe.Proofs.LineBreaks
import Scribe.Proofs.ParameterNames
import Scribe.Proofs.ChoiceChains
import Scribe.Proofs.IntegerNumerals
import Scribe.Proofs.FloatingNumerals
import Scribe.Proofs.PrintingFaults
import Scribe.Proofs.ExpressionLayout
import Scribe.Proofs.UnbrokenLines
import Scribe.Proofs.Writing
import Scribe.Proofs.KindCounts
import Scribe.Proofs.LocalNames
import Scribe.Proofs.AccessChains
import Scribe.Proofs.DocumentEdits
import Scribe.Proofs.Findings
import Scribe.Proofs.CommandRuns
