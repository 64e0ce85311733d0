import ComplexCalculator.Expression.Normal
import ComplexCalculator.Token.Classify

/-!
# The pieces of an expression

An expression is cut at delimiters, each of which is a piece of its own, and at
blanks, which belong to no piece.  Pieces are classified one after the other, so that
the first piece that is no token decides the failure.
-/

namespace ComplexCalculator.Expression

open Alphabet (isDelimiter)
open Text (isBlank)

/-- The pieces with a word in front, unless the word is empty. -/
def consWord (word : List Char) (pieces : List (List Char)) : List (List Char) :=
  if word.isEmpty then pieces else word :: pieces

/-- The word that a text begins with, and the pieces after it. -/
def splitWord : List Char → List Char × List (List Char)
  | [] => ([], [])
  | c :: rest =>
    let (word, pieces) := splitWord rest
    if isDelimiter c then ([], [c] :: consWord word pieces)
    else if isBlank c then ([], consWord word pieces)
    else (c :: word, pieces)

def splitChars (text : List Char) : List (List Char) :=
  let (word, pieces) := splitWord text
  consWord word pieces

/-- The pieces of an expression as it stands. -/
def pieces (expression : String) : List String :=
  (splitChars expression.toList).map String.ofList

/-- The expression that an unchecked value is. -/
def ofDatum : Datum → Except Failure String
  | .text expression => .ok expression
  | _ => .error .notExpression

/-- The tokens of the normal form of an expression, with a failure in the place of each
piece that is none. -/
def tokens (expression : String) : List (Except Failure Token) :=
  (pieces (normalize expression)).map Token.classify

/-- The tokens before the first failure, and that failure. -/
def untilFailure : List (Except Failure Token) → List Token × Option Failure
  | [] => ([], none)
  | .error failure :: _ => ([], some failure)
  | .ok token :: rest =>
    let (tokens, failure) := untilFailure rest
    (token :: tokens, failure)

end ComplexCalculator.Expression
