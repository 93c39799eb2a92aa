import LinModel.Builder.Basic

/-!
# Reformulations

The largest or smallest of several expressions and the absolute value of one are not linear; each
is modelled by new variables with constraints, and is exact as long as the objective pushes the
new variable in the right direction. The recipes are written over the few steps they need, so that
they serve every kind of model under construction; `Builder.steps` are those of a builder.

The steps of a recipe take effect one after the other, and those before a failing one stay.

Key definitions: `Reformulation.Steps`, `Reformulation.largest`, `Reformulation.smallest`,
`Reformulation.absolute`, `Reformulation.maximizeSmallest`, `Reformulation.minimizeLargest`.
-/
namespace LinModel

namespace Reformulation

/-- What a recipe does to a model: declare a variable, free or not negative, combine and relate
expressions, and set the objective. -/
structure Steps (m : Type → Type) (V E C O : Type) where
  declare : (nonNegative : Bool) → m V
  ofVariable : V → E
  add : E → E → m E
  sub : E → E → m E
  relate : E → E → Relationship → m C
  optimize : E → Goal → m O

variable {m : Type → Type} [Monad m] {V E C O : Type} (s : Steps m V E C O)

/-- A new variable that is at least every expression. -/
def largest (items : List E) : m (V × List C) := do
  let v ← s.declare false
  let constraints ← items.mapM fun e => s.relate (s.ofVariable v) e .ge
  return (v, constraints)

/-- A new variable that is at most every expression. -/
def smallest (items : List E) : m (V × List C) := do
  let v ← s.declare false
  let constraints ← items.mapM fun e => s.relate (s.ofVariable v) e .le
  return (v, constraints)

/-- An expression as the difference of two new variables that are not negative, whose sum is its
absolute value once it is made small. -/
def absolute (item : E) : m ((V × V) × C × E) := do
  let positive ← s.declare true
  let negative ← s.declare true
  let difference ← s.sub (s.ofVariable positive) (s.ofVariable negative)
  let c ← s.relate difference item .eq
  let deviation ← s.add (s.ofVariable positive) (s.ofVariable negative)
  return ((positive, negative), c, deviation)

/-- Makes the smallest of the expressions as large as possible. -/
def maximizeSmallest (items : List E) : m (O × V × List C) := do
  let (v, constraints) ← smallest s items
  let o ← s.optimize (s.ofVariable v) .max
  return (o, v, constraints)

/-- Makes the largest of the expressions as small as possible. -/
def minimizeLargest (items : List E) : m (O × V × List C) := do
  let (v, constraints) ← largest s items
  let o ← s.optimize (s.ofVariable v) .min
  return (o, v, constraints)

end Reformulation

namespace Builder

variable {K L : Type} [Scalar K]

/-- The steps of recipes on a builder. -/
def steps : Reformulation.Steps (BuilderM K L) (Variable K) (Operand K) (Constraint K L)
    (Objective K) where
  declare nonNegative :=
    declare .numeric none (if nonNegative then some Scalar.zero else none) none
  ofVariable v := .expression (.variable v)
  add a b := combineOperands Expression.add a b
  sub a b := combineOperands Expression.sub a b
  relate left right relationship := relate left right relationship none
  optimize operand goal := do return (← setObjective operand goal).1
where
  /-- Combines two operands as expressions. -/
  combineOperands (f : Expression K → Expression K → Except (ExpressionError K) (Expression K))
      (a b : Operand K) : BuilderM K L (Operand K) := do
    match f (← expressionOf a) (← expressionOf b) with
    | .ok e => return .expression e
    | .error e => throw (.operand (.expression e))

end Builder
end LinModel
