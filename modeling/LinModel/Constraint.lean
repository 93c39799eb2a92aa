import LinModel.Expression.Text

/-!
# Constraints and objectives

A constraint relates two expressions and may carry a label; an objective is an expression with a
direction. Where an expression is expected a finite number may stand too, and anything else is
refused: `Operand` holds what a caller offers and `Operand.toExpression` decides.

Key definitions: `Relationship`, `Constraint`, `Goal`, `Objective`, `Operand`.
-/
namespace LinModel

/-- How the two sides of a constraint compare. -/
inductive Relationship
  | le
  | eq
  | ge
deriving DecidableEq

/-- The sign of a relationship. -/
def Relationship.symbol : Relationship → String
  | .le => "<="
  | .eq => "=="
  | .ge => ">="

/-- Two related expressions, with an optional label. -/
structure Constraint (K L : Type) where
  left : Expression K
  right : Expression K
  relationship : Relationship
  label : Option L

namespace Constraint

variable {K L : Type} [Scalar K] [Numerals K]

/-- The same relation under another label. -/
def labelled (c : Constraint K L) (label : L) : Constraint K L := { c with label := some label }

/-- Everything moved to the left. -/
def difference (c : Constraint K L) : Except (ExpressionError K) (Expression K) :=
  c.left.sub c.right

/-- The two sides and the sign between them. -/
def body (c : Constraint K L) : String :=
  c.left.toText ++ " " ++ c.relationship.symbol ++ " " ++ c.right.toText

/-- The text of a constraint, its label written by `write`. -/
def describe (write : L → String) (c : Constraint K L) : String :=
  match c.label with
  | some label => "Constraint(" ++ write label ++ ": " ++ c.body ++ ")"
  | none => "Constraint(" ++ c.body ++ ")"

end Constraint

/-- The direction of an objective. -/
inductive Goal
  | min
  | max
deriving DecidableEq

/-- The word for a direction. -/
def Goal.word : Goal → String
  | .min => "min"
  | .max => "max"

/-- An expression to make small or large. -/
structure Objective (K : Type) where
  expression : Expression K
  goal : Goal

/-- The text of an objective. -/
def Objective.describe {K : Type} [Scalar K] [Numerals K] (o : Objective K) : String :=
  "Objective(" ++ o.goal.word ++ " " ++ o.expression.toText ++ ")"

/-- What may be offered where an expression is expected; what is neither an expression nor a
number is known only by its text. -/
inductive Operand (K : Type)
  | expression (e : Expression K)
  | number (value : K)
  | other (shown : String)

/-- Why an operand is not an expression. -/
inductive OperandError (K : Type)
  | notLinear (shown : String)
  | expression (e : ExpressionError K)

/-- The expression that an operand stands for. -/
def Operand.toExpression {K : Type} [Scalar K] :
    Operand K → Except (OperandError K) (Expression K)
  | .expression e => .ok e
  | .number value => (Expression.ofScalar value).mapError .expression
  | .other shown => .error (.notLinear shown)

/-- The wording of an error. -/
def OperandError.message {K : Type} [Scalar K] [Numerals K] : OperandError K → String
  | .notLinear shown => "Cannot use " ++ shown ++ " as a linear expression"
  | .expression e => e.message

end LinModel
