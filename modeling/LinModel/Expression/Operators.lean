import LinModel.Constraint
import LinModel.Number.Real

/-!
# Operators between expressions and numbers

Which operations and relations apply between two operands, and what they do. At least one operand
is an expression. An expression may stand before or after a number, except that nothing is divided
by an expression; two expressions can be added and subtracted only. A relation with a number in
front is turned around, so that the expression stands on the left.

A number is written as a double or as something that converts to one. It is converted if the
operation applies to it, and before anything else is done.

Key definitions: `ExpressionOperation`, `Operation.onExpression`, `Operation.afterNumber?`,
`Operand.combine`, `Relationship.reversed`, `Relationship.arrange?`, `Operand.relate`, `RawOperand`,
`RawOperand.combine`.
-/
namespace LinModel

/-- What an operation of an expression does with a number after it, and with another expression. -/
structure ExpressionOperation (K : Type) where
  number : Expression K → K → Except (ExpressionError K) (Expression K)
  expression? : Option
    (Expression K → Expression K → Except (ExpressionError K) (Expression K))

/-- Why an operator has no result. -/
inductive OperatorError (K : Type)
  /-- The operator does not apply to its operands. -/
  | notApplicable
  | expression (e : ExpressionError K)

section Operators

variable {K L : Type} [Scalar K]

namespace Operation

/-- What an operation does if its left operand is an expression. -/
def onExpression : Operation → ExpressionOperation K
  | .add => ⟨Expression.addScalar, some Expression.add⟩
  | .sub => ⟨Expression.subScalar, some Expression.sub⟩
  | .mul => ⟨Expression.scale, none⟩
  | .div => ⟨Expression.divide, none⟩

/-- What an operation does with an expression after a number. -/
def afterNumber? : Operation → Option (Expression K → K → Except (ExpressionError K) (Expression K))
  | .add => some Expression.addScalar
  | .sub => some fun e k => Expression.scalarSub k e
  | .mul => some Expression.scale
  | .div => none

end Operation

/-- The relationship of the sides in the other order. -/
def Relationship.reversed : Relationship → Relationship
  | .le => .ge
  | .eq => .eq
  | .ge => .le

/-- A relation with an expression on the left, turned around if need be; nothing if no side is an
expression or the other is no operand. -/
def Relationship.arrange? {α : Type} (isExpression isOperand : α → Bool) (r : Relationship)
    (a b : α) : Option (α × α × Relationship) :=
  if isExpression a && isOperand b then some (a, b, r)
  else if isExpression b && isOperand a then some (b, a, r.reversed)
  else none

namespace Operand

/-- Whether an operand is an expression. -/
def isExpression : Operand K → Bool
  | .expression _ => true
  | _ => false

/-- Whether an operand is an expression or a number. -/
def isUsable : Operand K → Bool
  | .other _ => false
  | _ => true

/-- An operation on two operands. -/
def combine (op : Operation) : Operand K → Operand K → Except (OperatorError K) (Expression K)
  | .expression a, .expression b => match (op.onExpression (K := K)).expression? with
    | some f => (f a b).mapError .expression
    | none => .error .notApplicable
  | .expression a, .number k => (op.onExpression.number a k).mapError .expression
  | .number k, .expression a => match op.afterNumber? (K := K) with
    | some f => (f a k).mapError .expression
    | none => .error .notApplicable
  | _, _ => .error .notApplicable

/-- The expression that an operand stands for beside another one. -/
def side (o : Operand K) : Except (OperatorError K) (Expression K) :=
  o.toExpression.mapError fun
    | .notLinear _ => .notApplicable
    | .expression e => .expression e

/-- The relation of two operands. -/
def relate (r : Relationship) (a b : Operand K) : Except (OperatorError K) (Constraint K L) :=
  match r.arrange? isExpression isUsable a b with
  | some (left, right, r) => do return ⟨← left.side, ← right.side, r, none⟩
  | none => .error .notApplicable

end Operand

end Operators

/-! ### Operands as they are written -/

/-- An operand as it is written, its number not converted yet. -/
inductive RawOperand
  | expression (e : Expression Float)
  | real (r : RealNumber)
  | other (shown : String)

/-- Why arithmetic on operands as they are written has no result. -/
inductive ArithmeticError
  | conversion (e : ConversionError)
  | operator (e : OperatorError Float)

namespace RawOperand

/-- The operand with its number converted. -/
def convert : RawOperand → Except ConversionError (Operand Float)
  | .expression e => .ok (.expression e)
  | .real r => r.toDouble.map .number
  | .other shown => .ok (.other shown)

/-- Whether an operation applies to two operands. -/
def applies (op : Operation) : RawOperand → RawOperand → Bool
  | .expression _, .expression _ => (op.onExpression (K := Float)).expression?.isSome
  | .expression _, .real _ => true
  | .real _, .expression _ => (op.afterNumber? (K := Float)).isSome
  | _, _ => false

/-- An operation on two operands. -/
def combine (op : Operation) (x y : RawOperand) : Except ArithmeticError (Expression Float) := do
  if !applies op x y then throw (.operator .notApplicable)
  let a ← x.convert.mapError .conversion
  let b ← y.convert.mapError .conversion
  (a.combine op b).mapError .operator

end RawOperand
end LinModel
