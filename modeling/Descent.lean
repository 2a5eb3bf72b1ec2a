import Descent.Event
import Descent.Examination
import Descent.Expr.Basic
import Descent.Expr.Build
import Descent.Expr.Denote
import Descent.Expr.Primitive
import Descent.Expr.Run
import Descent.Fault
import Descent.Grammar.Html
import Descent.Grammar.Json
import Descent.Outcome
import Descent.ParseError
import Descent.Parser.Basic
import Descent.Parser.Lexical
import Descent.Regex.Basic
import Descent.Regex.Pattern
import Descent.Regex.Token
import Descent.Session
import Descent.Text.Basic
import Descent.Text.Decimal
import Descent.Text.Place
import Descent.Text.Quoted
import Descent.Unicode.Blank
import Descent.Unicode.Letter
import Descent.Unicode.Number
import Descent.Unicode.Printable
import Descent.Unicode.Ranges
import Descent.Value.Basic
import Descent.Value.Entries
import Descent.Value.Equality
import Descent.Value.Identity
import Descent.Value.Literal
import Descent.Value.Operation
import Descent.Proofs.Runs
import Descent.Proofs.Comparison.Basic
import Descent.Proofs.Comparison.Lexical
import Descent.Proofs.Comparison.Primitive
import Descent.Proofs.Comparison.Run
import Descent.Proofs.Comparison.Hosts
import Descent.Proofs.Position
import Descent.Proofs.Stripping
import Descent.Proofs.Naming
import Descent.Proofs.Tracing
import Descent.Proofs.SelfContained
import Descent.Proofs.Nesting
import Descent.Proofs.Acceptance.Basic
import Descent.Proofs.Acceptance.Lexical
import Descent.Proofs.Acceptance.Forms
import Descent.Proofs.Dictionary
import Descent.Proofs.Entries
import Descent.Proofs.Json.Document
import Descent.Proofs.Json.Parts
import Descent.Proofs.Json.Acceptance
import Descent.Proofs.Json.Dialect
import Descent.Proofs.Json.RoundTrip
import Descent.Proofs.Json.Level
import Descent.Proofs.Totality
import Descent.Proofs.Filling
import Descent.Proofs.Places
import Descent.Proofs.Reuse
import Descent.Proofs.LateBinding
import Descent.Proofs.Leading
import Descent.Proofs.Errors
import Descent.Proofs.Memoryless
import Descent.Proofs.Repetition
import Descent.Proofs.Productivity
import Descent.Proofs.Html.Tag
import Descent.Proofs.Html.Acceptance
import Descent.Proofs.Html.Failure
import Descent.Proofs.Choice
import Descent.Proofs.Rewriting
import Descent.Proofs.Factoring
import Descent.Proofs.Literal
import Descent.Proofs.Natural
import Descent.Proofs.Separation
import Descent.Proofs.AtLeastOnce
import Descent.Proofs.Text.Place
import Descent.Proofs.Text.Excerpt
import Descent.Proofs.Acceptance.Failure
import Descent.Proofs.Json.Sequence
import Descent.Proofs.Json.Failure
import Descent.Proofs.Sequencing
import Descent.Proofs.Predicates
import Descent.Proofs.Spans
import Descent.Proofs.Blanks
import Descent.Proofs.Acceptance.State
import Descent.Proofs.Json.Memory
import Descent.Proofs.Json.Resolution
