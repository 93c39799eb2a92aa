import LinModel.Entries
import LinModel.Variable

/-!
# Linear expressions

An expression is a variable, a variable with a coefficient, or a general linear form: coefficients
by name, in the order in which the names came in, and a constant. Sums of two single terms stay
single terms if they can; everything else is merged entry by entry. All numbers of an expression
are finite: an operation whose result would hold an infinity or NaN is refused.

Key definitions: `Expression`, `Expression.add`, `Expression.sub`, `Expression.scale`,
`Expression.divide`, `Expression.evaluate`, `Expression.evaluateAt`, `Expression.sum`,
`Expression.average`.
-/
namespace LinModel

/-- Coefficients by name, in order of first appearance. -/
abbrev Coefficients (K : Type) := Entries VariableName K

/-- A linear expression over named variables. -/
inductive Expression (K : Type)
  | variable (v : Variable K)
  /-- A single variable with a coefficient. -/
  | term (name : VariableName) (coefficient : K)
  | linear (coefficients : Coefficients K) (constant : K)

/-- Why an operation on expressions has no result. -/
inductive ExpressionError (K : Type)
  /-- A number in the result, or an operand, is infinite or NaN. -/
  | notFinite (value : K)
  | divisionByZero (dividend : Expression K)
  /-- There is nothing to average. -/
  | nothingToAverage

/-- Why an expression has no value: a name has none. -/
structure MissingValue where
  name : VariableName

/-- The wording of an error. -/
def MissingValue.message (e : MissingValue) : String :=
  "No value for variable '" ++ e.name.text ++ "'"

namespace Expression

variable {K : Type} [Scalar K]

/-- The coefficients by name. -/
def coefficients : Expression K → Coefficients K
  | .variable v => [(v.name, Scalar.one)]
  | .term name c => [(name, c)]
  | .linear cs _ => cs

/-- The constant. -/
def constant : Expression K → K
  | .variable _ => Scalar.zero
  | .term _ _ => Scalar.zero
  | .linear _ k => k

/-- The name and coefficient of an expression that is a single term by its form. -/
def term? : Expression K → Option (VariableName × K)
  | .variable v => some (v.name, Scalar.one)
  | .term name c => some (name, c)
  | .linear _ _ => none

/-- The names that occur, in order. -/
def names (e : Expression K) : List VariableName := e.coefficients.keys

/-- The expression without terms whose value is zero. -/
def empty : Expression K := .linear [] Scalar.zero

/-- A number, refused if it is not finite. -/
def finite (value : K) : Except (ExpressionError K) K :=
  if Scalar.isFinite value then .ok value else .error (.notFinite value)

/-- A single term with a finite coefficient. -/
def ofTerm (name : VariableName) (coefficient : K) : Except (ExpressionError K) (Expression K) := do
  let c ← finite coefficient
  return .term name c

/-- A linear form; the constant is checked before the coefficients. -/
def ofCoefficients (cs : Coefficients K) (constant : K) :
    Except (ExpressionError K) (Expression K) :=
  if !Scalar.isFinite constant then .error (.notFinite constant)
  else match List.find? (fun entry => !Scalar.isFinite entry.2) cs with
    | some (_, c) => .error (.notFinite c)
    | none => .ok (.linear cs constant)

/-- The expression of a number alone. -/
def ofScalar (value : K) : Except (ExpressionError K) (Expression K) := ofCoefficients [] value

/-- A single term, or the empty expression if the coefficient is zero. -/
def ofTermOrEmpty (name : VariableName) (coefficient : K) :
    Except (ExpressionError K) (Expression K) :=
  if Scalar.beq coefficient Scalar.zero then .ok empty else ofTerm name coefficient

/-- Applies a function to every coefficient and the constant. -/
def mapNumbers (f : K → K) : Expression K → Except (ExpressionError K) (Expression K)
  | .variable v => ofTermOrEmpty v.name (f Scalar.one)
  | .term name c => ofTermOrEmpty name (f c)
  | .linear cs k => ofCoefficients (cs.mapValues f) (f k)

/-- Adds `f value` to the coefficient of each name in turn; a new name starts from zero. -/
def mergeInto (f : K → K) (start added : Coefficients K) : Coefficients K :=
  added.foldl (fun cs (name, value) =>
    cs.put name ((cs.find? name).getD Scalar.zero + f value)) start

/-- `left + sign · right`. -/
def combine (sign : K) (left right : Expression K) : Except (ExpressionError K) (Expression K) :=
  match left.term?, right.term? with
  | some (m, a), some (n, b) =>
    if m = n then ofTermOrEmpty m (a + sign * b)
    else ofCoefficients [(m, a), (n, sign * b)] Scalar.zero
  | _, _ =>
    ofCoefficients (mergeInto (sign * ·) left.coefficients right.coefficients)
      (left.constant + sign * right.constant)

/-- The sum of two expressions. -/
def add (left right : Expression K) : Except (ExpressionError K) (Expression K) :=
  combine Scalar.one left right

/-- The difference of two expressions. -/
def sub (left right : Expression K) : Except (ExpressionError K) (Expression K) :=
  combine (-Scalar.one) left right

/-- The sum with a finite number. -/
def shift (e : Expression K) (value : K) : Except (ExpressionError K) (Expression K) :=
  ofCoefficients e.coefficients (e.constant + value)

/-- `e + value`, for a number that is checked first. -/
def addScalar (e : Expression K) (value : K) : Except (ExpressionError K) (Expression K) := do
  let k ← finite value
  e.shift k

/-- `e - value`. -/
def subScalar (e : Expression K) (value : K) : Except (ExpressionError K) (Expression K) := do
  let k ← finite value
  e.shift (-k)

/-- The negated expression. -/
def neg (e : Expression K) : Except (ExpressionError K) (Expression K) := e.mapNumbers (- ·)

/-- `value - e`. -/
def scalarSub (value : K) (e : Expression K) : Except (ExpressionError K) (Expression K) := do
  let k ← finite value
  let negated ← e.neg
  negated.shift k

/-- The product with a number; the product with zero is the empty expression. -/
def scale (e : Expression K) (value : K) : Except (ExpressionError K) (Expression K) := do
  let k ← finite value
  if Scalar.beq k Scalar.zero then return empty
  e.mapNumbers (· * k)

/-- The quotient by a nonzero number. -/
def divide (e : Expression K) (value : K) : Except (ExpressionError K) (Expression K) := do
  let k ← finite value
  if Scalar.beq k Scalar.zero then throw (.divisionByZero e)
  e.mapNumbers (· / k)

/-- The value of the expression, from left to right starting with the constant; the value of each
name is read when its term is reached. -/
def evaluateM {m : Type → Type} [Monad m] (e : Expression K) (read : VariableName → m K) : m K :=
  e.coefficients.foldlM (fun total (name, c) => do return total + c * (← read name)) e.constant

/-- The value of the expression where every name has a value. -/
def evaluate (e : Expression K) (values : VariableName → K) : K :=
  e.evaluateM (m := Id) values

/-- The value at values by text, each of which is converted when its term is reached. -/
def evaluateWith {m : Type → Type} [Monad m] {β : Type} (convert : β → m K)
    (refuse : MissingValue → m K) (e : Expression K) (values : Entries String β) : m K :=
  e.evaluateM read
where
  /-- The value of a name. -/
  read (name : VariableName) : m K :=
    match values.find? name.text with
    | some value => convert value
    | none => refuse ⟨name⟩

/-- The value at numbers by text. -/
def evaluateAt (e : Expression K) (values : Entries String K) : Except MissingValue K :=
  e.evaluateWith .ok .error values

/-- The sum so far: coefficients and constant, not yet checked. -/
structure Sum (K : Type) where
  coefficients : Coefficients K
  constant : K

/-- Adds one expression to a running sum. -/
def Sum.plus (s : Sum K) (e : Expression K) : Sum K :=
  ⟨mergeInto id s.coefficients e.coefficients, s.constant + e.constant⟩

/-- The sum of a list of expressions in one pass; its numbers are checked at the end. -/
def sum (items : List (Expression K)) : Except (ExpressionError K) (Expression K) :=
  let total := items.foldl Sum.plus ⟨[], Scalar.zero⟩
  ofCoefficients total.coefficients total.constant

/-- The mean of a list of expressions. -/
def average (items : List (Expression K)) : Except (ExpressionError K) (Expression K) := do
  if items.isEmpty then throw .nothingToAverage
  let total ← sum items
  total.divide (Scalar.ofNat items.length)

end Expression
end LinModel
