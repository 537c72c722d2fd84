import BraceLang.Source.Piece
import BraceLang.Source.Scanner
import BraceLang.Number.Binary64
import BraceLang.Number.Decimal
import BraceLang.Number.Layout
import BraceLang.Number.Reading
import BraceLang.Tree.Basic
import BraceLang.Json
import BraceLang.Sexpr
import BraceLang.Tree.Equality
import BraceLang.Tree.Json
import BraceLang.Tree.Sexpr
import BraceLang.Grammar.Binding
import BraceLang.Diagnostic
import BraceLang.Parse.Rule
import BraceLang.Parse.Expression
import BraceLang.Parse.Program
import BraceLang.Parse.Session
import BraceLang.CommandLine.Answer
import BraceLang.CommandLine
import BraceLang.Main
import BraceLang.Proofs.RuleOutcome
import BraceLang.Proofs.GrammarOutcome
import BraceLang.Proofs.Acceptance
import BraceLang.Proofs.ConcreteExpression
import BraceLang.Proofs.ConcreteGrowth
import BraceLang.Proofs.ConcreteUniqueness
import BraceLang.Proofs.OperatorBinding
import BraceLang.Proofs.StatementGrammar
import BraceLang.Proofs.ExpressionSegment
import BraceLang.Proofs.GrammarCompleteness
import BraceLang.Proofs.GrammarSoundness
import BraceLang.Proofs.ProgramGrammar
import BraceLang.Proofs.SourceForm
import BraceLang.Proofs.SourceLexing
import BraceLang.Proofs.SourceGrammar
import BraceLang.Proofs.SourceRoundTrip
import BraceLang.Proofs.LongestLexeme
import BraceLang.Proofs.MaximalMunch
import BraceLang.Proofs.CarefulGrammar
import BraceLang.Proofs.DriverRun
import BraceLang.Proofs.ReportOrder
import BraceLang.Proofs.KeptSegments
import BraceLang.Proofs.Agreement
import BraceLang.Proofs.Concatenation
import BraceLang.Proofs.WellFormedTree
import BraceLang.Proofs.GrammarLikeness
import BraceLang.Proofs.ShortestDecimal
import BraceLang.Proofs.NumberText
import BraceLang.Proofs.JsonReading
import BraceLang.Proofs.JsonRoundTrip
import BraceLang.Proofs.FaithfulJson
import BraceLang.Proofs.QuotedText
import BraceLang.Proofs.SexprReading
import BraceLang.Proofs.ExpressionSexpr
import BraceLang.Proofs.FaithfulSexpr
import BraceLang.Proofs.ScannerPosition
import BraceLang.Proofs.DiagnosticLayout
import BraceLang.Proofs.TreeHeight
import BraceLang.Proofs.WordRecovery
import BraceLang.Proofs.SpellingLines
import BraceLang.Proofs.MissingEnd
import BraceLang.Proofs.UsedSession
import BraceLang.Proofs.TokenListing
