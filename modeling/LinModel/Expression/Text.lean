import LinModel.Expression.Basic
import LinModel.Number.Layout
import LinModel.Text.Quoted

/-!
# The text of an expression

Terms are joined by their signs, a coefficient of magnitude one is left out, and the constant
comes last unless it is zero. An expression without terms is written as its constant.

Key definitions: `Numerals`, `Expression.toText`, `Expression.describe`,
`ExpressionError.message`.
-/
namespace LinModel

/-- How numbers are written: `numeral` inside expressions, `plain` where a number stands alone. -/
class Numerals (K : Type) where
  numeral : K → String
  plain : K → String

instance : Numerals Float := ⟨Number.numeral, Number.plain⟩

namespace Expression

variable {K : Type} [Scalar K] [Numerals K]

/-- A term without its sign. -/
def termText (name : VariableName) (coefficient : K) : String :=
  let magnitude := Scalar.abs coefficient
  if Scalar.beq magnitude Scalar.one then name.text
  else Numerals.numeral magnitude ++ "*" ++ name.text

/-- A number's sign and its text, for the first place and for later ones. -/
def signedText (isFirst : Bool) (value : K) (text : String) : String :=
  match isFirst, Scalar.le Scalar.zero value with
  | true, true => text
  | true, false => "-" ++ text
  | false, true => "+ " ++ text
  | false, false => "- " ++ text

/-- The terms with their signs. -/
def termTexts : Coefficients K → List String
  | [] => []
  | (name, c) :: rest =>
    signedText true c (termText name c) ::
      rest.map fun (name, c) => signedText false c (termText name c)

/-- The constant after the terms; alone it keeps its own sign. -/
def constantText (noTerms : Bool) (constant : K) : List String :=
  if noTerms then [Numerals.numeral constant]
  else if Scalar.beq constant Scalar.zero then []
  else [signedText false constant (Numerals.numeral (Scalar.abs constant))]

/-- The text of an expression. -/
def toText (e : Expression K) : String :=
  let terms := termTexts e.coefficients
  String.intercalate " " (terms ++ constantText terms.isEmpty e.constant)

/-- The text of an expression together with its form. -/
def describe : Expression K → String
  | .variable v => "Var(" ++ Text.quote v.name.text ++ ")"
  | .term name c => "Param(" ++ Text.quote name.text ++ ", " ++ Numerals.plain c ++ ")"
  | .linear cs k => "LinExpr(" ++ toText (.linear cs k) ++ ")"

end Expression

/-- The wording of an error. -/
def ExpressionError.message {K : Type} [Scalar K] [Numerals K] : ExpressionError K → String
  | .notFinite value =>
    "Expression arithmetic requires finite numbers, got " ++ Numerals.plain value
  | .divisionByZero e => "Cannot divide " ++ e.toText ++ " by zero"
  | .nothingToAverage => "Cannot average an empty collection of expressions"

end LinModel
