import ComplexCalculator.Alphabet
import ComplexCalculator.Binary64.Arithmetic
import ComplexCalculator.Binary64.Basic
import ComplexCalculator.Binary64.Reader
import ComplexCalculator.Binary64.Shortest
import ComplexCalculator.ComplexFormat.Basic
import ComplexCalculator.ComplexFormat.Reader
import ComplexCalculator.ComplexNumber.Basic
import ComplexCalculator.ComplexNumber.Exponential
import ComplexCalculator.ComplexNumber.Inverse
import ComplexCalculator.ComplexNumber.Polar
import ComplexCalculator.ComplexNumber.Power
import ComplexCalculator.Datum
import ComplexCalculator.Decimal.Basic
import ComplexCalculator.Expression.Normal
import ComplexCalculator.Expression.Pieces
import ComplexCalculator.Failure.Basic
import ComplexCalculator.Failure.ParseError
import ComplexCalculator.FixedPoint.Basic
import ComplexCalculator.FixedPoint.Exponential
import ComplexCalculator.FixedPoint.Trigonometric
import ComplexCalculator.Natural.Arithmetic
import ComplexCalculator.Operation.Basic
import ComplexCalculator.Operation.Invocation
import ComplexCalculator.Proofs.Binary64.Error
import ComplexCalculator.Proofs.Binary64.Integer
import ComplexCalculator.Proofs.Binary64.Nearest
import ComplexCalculator.Proofs.Binary64.Reader
import ComplexCalculator.Proofs.Binary64.Shortest
import ComplexCalculator.Proofs.ComplexFormat.Accuracy
import ComplexCalculator.Proofs.ComplexFormat.Canonical
import ComplexCalculator.Proofs.ComplexFormat.Exact
import ComplexCalculator.Proofs.ComplexFormat.Grammar
import ComplexCalculator.Proofs.ComplexFormat.Places
import ComplexCalculator.Proofs.ComplexFormat.RoundTrip
import ComplexCalculator.Proofs.ComplexFormat.Signs
import ComplexCalculator.Proofs.Decimal.Nearest
import ComplexCalculator.Proofs.Decimal.Numeral
import ComplexCalculator.Proofs.Expression.Acceptance
import ComplexCalculator.Proofs.Expression.AcceptedText
import ComplexCalculator.Proofs.Expression.Blanks
import ComplexCalculator.Proofs.Expression.ComplexLiteral
import ComplexCalculator.Proofs.Expression.Context
import ComplexCalculator.Proofs.Expression.Cutting
import ComplexCalculator.Proofs.Expression.DegreeSign
import ComplexCalculator.Proofs.Expression.LeadingMinus
import ComplexCalculator.Proofs.Expression.Literal
import ComplexCalculator.Proofs.Expression.Normal
import ComplexCalculator.Proofs.Expression.NormalText
import ComplexCalculator.Proofs.Expression.Phrase
import ComplexCalculator.Proofs.Expression.Pieces
import ComplexCalculator.Proofs.Expression.Recognition
import ComplexCalculator.Proofs.Failure.Basic
import ComplexCalculator.Proofs.Natural.NearestEven
import ComplexCalculator.Proofs.Rpn.Brackets
import ComplexCalculator.Proofs.Rpn.Conversion
import ComplexCalculator.Proofs.Rpn.Evaluation
import ComplexCalculator.Proofs.Rpn.Failure
import ComplexCalculator.Proofs.Rpn.Formula
import ComplexCalculator.Proofs.Rpn.Isolation
import ComplexCalculator.Proofs.Rpn.Listing
import ComplexCalculator.Proofs.Rpn.Offence
import ComplexCalculator.Proofs.Rpn.Order
import ComplexCalculator.Proofs.Rpn.Replacement
import ComplexCalculator.Proofs.Rpn.Schedule
import ComplexCalculator.Proofs.Rpn.Tally
import ComplexCalculator.Proofs.Rpn.UnclosedBrackets
import ComplexCalculator.Proofs.Rpn.Waiting
import ComplexCalculator.Proofs.Session.Emptiness
import ComplexCalculator.Proofs.Session.Evaluation
import ComplexCalculator.Proofs.Session.ExactSum
import ComplexCalculator.Proofs.Session.Gaussian
import ComplexCalculator.Proofs.Session.History
import ComplexCalculator.Proofs.Session.Negation
import ComplexCalculator.Proofs.Session.NumericResult
import ComplexCalculator.Proofs.Session.Outcome
import ComplexCalculator.Proofs.Session.Precision
import ComplexCalculator.Proofs.Session.Reentry
import ComplexCalculator.Proofs.Session.StructuralFailure
import ComplexCalculator.Proofs.Session.Substitution
import ComplexCalculator.Proofs.Session.VariableValue
import ComplexCalculator.Proofs.Text.Digits
import ComplexCalculator.Rpn.Conversion
import ComplexCalculator.Rpn.Evaluation
import ComplexCalculator.Session.Basic
import ComplexCalculator.Session.Command
import ComplexCalculator.Settings
import ComplexCalculator.Text.Digits
import ComplexCalculator.Text.Quoted
import ComplexCalculator.Token.Basic
import ComplexCalculator.Token.Classify
