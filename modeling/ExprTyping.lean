import ExprTyping.Text.Basic
import ExprTyping.Text.CodeRanges
import ExprTyping.Text.Letter
import ExprTyping.Text.DecimalDigit
import ExprTyping.Text.Printable
import ExprTyping.Text.Blank
import ExprTyping.Text.Quoted
import ExprTyping.Text.Base64
import ExprTyping.Binary64.Basic
import ExprTyping.Binary64.Decimal
import ExprTyping.Position
import ExprTyping.Token.Basic
import ExprTyping.Token.Scan
import ExprTyping.Token.Lookahead
import ExprTyping.Op
import ExprTyping.Expr.Basic
import ExprTyping.Expr.Traversal
import ExprTyping.Grammar.Expression
import ExprTyping.Bound.Basic
import ExprTyping.Bound.Exact
import ExprTyping.Ty.Basic
import ExprTyping.Ty.Error
import ExprTyping.Ty.Interval
import ExprTyping.Ty.Shape
import ExprTyping.Bindings
import ExprTyping.Domain.Signature
import ExprTyping.Domain.Basic
import ExprTyping.Expr.Typed
import ExprTyping.Infer
import ExprTyping.Grammar.TypeText
import ExprTyping.Clock.Moment
import ExprTyping.Libraries
import ExprTyping.File
import ExprTyping.Diagnostic
import ExprTyping.Config
import ExprTyping.Version
import ExprTyping.Failure
import ExprTyping.Session.Command
import ExprTyping.Session.Basic
import ExprTyping.Session.Loop
import ExprTyping.CommandLine.Options
import ExprTyping.CommandLine.Run
import ExprTyping.Proofs.Typing
import ExprTyping.Proofs.FirstFailure
import ExprTyping.Proofs.FreeSymbols
import ExprTyping.Proofs.Decoding
import ExprTyping.Proofs.Sentence
import ExprTyping.Proofs.ExactIntervals
import ExprTyping.Proofs.IntervalSoundness
import ExprTyping.Proofs.Rounding
import ExprTyping.Proofs.NumeralText
import ExprTyping.Proofs.Scanning
import ExprTyping.Proofs.NumeralReading
import ExprTyping.Proofs.Printing
import ExprTyping.Proofs.RoundTrip
import ExprTyping.Proofs.Annotations
import ExprTyping.Proofs.Lexemes
import ExprTyping.Proofs.Lexing
import ExprTyping.Proofs.Tokenization
import ExprTyping.Proofs.NameRuns
import ExprTyping.Proofs.LineEnds
import ExprTyping.Proofs.TypeFamilies
import ExprTyping.Proofs.SessionRecord
import ExprTyping.Proofs.Chunks
import ExprTyping.Proofs.Substitution
import ExprTyping.Proofs.SignedZeros
import ExprTyping.Proofs.TypeEquality
import ExprTyping.Proofs.MatrixAlgebra
import ExprTyping.Proofs.IntervalResults
import ExprTyping.Proofs.Narrowing
import ExprTyping.Proofs.Configurations
import ExprTyping.Proofs.FailurePlaces
import ExprTyping.Proofs.Replay
import ExprTyping.Proofs.IntervalOutcomes
import ExprTyping.Proofs.PipedInput
import ExprTyping.Proofs.Phrases
import ExprTyping.Proofs.TokenAccount
import ExprTyping.Proofs.Registries
import ExprTyping.Proofs.ScalarTyping
import ExprTyping.Proofs.LineByLine
import ExprTyping.Proofs.AnnotationGrammar
import ExprTyping.Proofs.DirectTyping
import ExprTyping.Proofs.IntegerLiterals
import ExprTyping.Proofs.LookaheadStream
import ExprTyping.Proofs.UniqueReading
import ExprTyping.Proofs.Encoding
import ExprTyping.Proofs.Descent
import ExprTyping.Proofs.DescentMachine
import ExprTyping.Proofs.Progress
import ExprTyping.Clock.Layout
import ExprTyping.Clock.Pattern
import ExprTyping.Expr.Dump
import ExprTyping.Yaml.Mark
import ExprTyping.Yaml.Spacing
import ExprTyping.Yaml.Scalar
import ExprTyping.Yaml.BlockScalar
import ExprTyping.Yaml.Property
import ExprTyping.Yaml.Token
import ExprTyping.Yaml.Node
import ExprTyping.Yaml.Document
import ExprTyping.Yaml.Kind
import ExprTyping.Yaml.Decode
import ExprTyping.Yaml.SessionFile
import ExprTyping.Linked
import ExprTyping.Session.Keyboard
import ExprTyping.Main
