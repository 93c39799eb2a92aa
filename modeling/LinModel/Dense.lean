import LinModel.Compiled

/-!
# Dense problems

A problem as rows of numbers, one column per variable in their order, with the functions that
measure an assignment: the activity of every constraint, the objective, and how far constraints,
bounds and integrality are violated. A name is looked up in its last place; an absent term has
coefficient zero and takes part in the sum.

The functions do not read the rows: constraints and the objective are lowered once more, each from
the general linear form of its terms. Only such forms can be lowered.

Key definitions: `DenseModel`, `DenseModel.ofProblem`, `denseRow`, `rangeViolation`,
`DenseForm.ofExpression`, `DenseRange.ofConstraint`, `DenseModel.activity`,
`DenseModel.constraintViolation`, `DenseModel.boundViolation`, `DenseModel.integralityViolation`,
`DenseModel.vector`.
-/
namespace LinModel

/-- Why an expression has no dense row. -/
inductive DenseError (K : Type)
  | notInOrder (name : String)
  /-- Only general linear forms can be lowered; `kind` names another one. -/
  | noVisitor (kind : String)
  | expression (e : ExpressionError K)

/-- The wording of an error. -/
def DenseError.message {K : Type} [Scalar K] [Numerals K] : DenseError K → String
  | .notInOrder name => "Variable '" ++ name ++ "' is not part of the variable order."
  | .noVisitor kind => "'JaxLowerer' has no visitor for " ++ kind
  | .expression e => e.message

/-- The last place of a name in an order. -/
def lastIndex? (order : List String) (name : String) : Option Nat :=
  (order.zipIdx.reverse.find? (·.1 == name)).map Prod.snd

variable {K L : Type} [Scalar K]

/-- Adds each coefficient in the column of its name, starting from zeros. -/
def denseRow (order : List String) (cs : List (String × K)) : Except (DenseError K) (List K) :=
  cs.foldlM (fun row (name, c) =>
    match lastIndex? order name with
    | some i => .ok (row.modify i (· + c))
    | none => .error (.notInOrder name)) (order.map fun _ => Scalar.zero)

/-- Coefficients under the texts of their names. -/
def Coefficients.texts (cs : Coefficients K) : List (String × K) :=
  cs.map fun (name, c) => (name.text, c)

/-- How far a value lies outside a range; zero inside it, and a NaN stays one. -/
def rangeViolation (value low high : K) : K :=
  Scalar.positivePart (Scalar.maximum (low - value) (value - high))

/-- A linear form over the columns. -/
structure DenseForm (K : Type) where
  row : List K
  constant : K

namespace DenseForm

/-- The value at an assignment. -/
def valueAt (f : DenseForm K) (x : List K) : K := Scalar.dot f.row x + f.constant

/-- Lowers a general linear form. -/
def ofExpression (order : List String) : Expression K → Except (DenseError K) (DenseForm K)
  | .linear cs k => do return ⟨← denseRow order cs.texts, k⟩
  | .term .. => .error (.noVisitor "Parameter")
  | .variable _ => .error (.noVisitor "Variable")

/-- Lowers terms and a constant, all of which must be finite. -/
def ofTerms (order : List String) (cs : Coefficients K) (constant : K) :
    Except (DenseError K) (DenseForm K) := do
  let e ← (Expression.ofCoefficients cs constant).mapError .expression
  ofExpression order e

end DenseForm

/-- A linear form over the columns, with a range for its value. -/
structure DenseRange (K : Type) where
  form : DenseForm K
  lower : K
  upper : K

namespace DenseRange

/-- How far the value at an assignment lies outside the range. -/
def violationAt (r : DenseRange K) (x : List K) : K :=
  rangeViolation (r.form.valueAt x) r.lower r.upper

/-- Lowers a constraint. -/
def ofConstraint (order : List String) (c : CompiledConstraint K L) :
    Except (DenseError K) (DenseRange K) := do
  return ⟨← DenseForm.ofTerms order c.coefficients Scalar.zero, c.lower, c.upper⟩

end DenseRange

/-- A problem as rows and columns of numbers; the columns go by the texts of the names. -/
structure DenseModel (K : Type) where
  order : List String
  rows : List (List K)
  lower : List K
  upper : List K
  objective : List K
  offset : K
  variableLower : List K
  variableUpper : List K
  /-- One for variables that take only integers, zero for the others. -/
  integerMask : List K
  /-- The constraints as their violation is measured. -/
  ranges : List (DenseRange K)
  /-- The objective as it is evaluated. -/
  objectiveForm : DenseForm K

namespace DenseModel

/-- The dense form of a problem; all its numbers but bounds must be finite. -/
def ofProblem (p : Problem K L) : Except (DenseError K) (DenseModel K) := do
  let order := p.names.map (·.text)
  let rows ← p.constraints.mapM fun c => denseRow order c.coefficients.texts
  let objective ← denseRow order p.objective.coefficients.texts
  let ranges ← p.constraints.mapM (DenseRange.ofConstraint order)
  let objectiveForm ← DenseForm.ofTerms order p.objective.coefficients p.objective.offset
  return {
    order := order
    rows := rows
    lower := p.constraints.map (·.lower)
    upper := p.constraints.map (·.upper)
    objective := objective
    offset := p.objective.offset
    variableLower := p.vars.map (·.lower)
    variableUpper := p.vars.map (·.upper)
    integerMask := p.vars.map fun v =>
      if v.kind.isDiscrete then Scalar.one else Scalar.zero
    ranges := ranges
    objectiveForm := objectiveForm }

/-- The value of every constraint's terms. -/
def activity (d : DenseModel K) (x : List K) : List K := d.rows.map (Scalar.dot · x)

/-- The value of the objective. -/
def objectiveValue (d : DenseModel K) (x : List K) : K := d.objectiveForm.valueAt x

/-- How far every constraint is violated. -/
def constraintViolation (d : DenseModel K) (x : List K) : List K := d.ranges.map (·.violationAt x)

/-- How far every variable's bounds are violated. -/
def boundViolation (d : DenseModel K) (x : List K) : List K :=
  (x.zip (d.variableLower.zip d.variableUpper)).map fun (v, low, high) =>
    rangeViolation v low high

/-- How far the variables that take only integers are from one. -/
def integralityViolation (d : DenseModel K) (x : List K) : List K :=
  (x.zip d.integerMask).map fun (v, mask) => Scalar.distanceToInteger v * mask

/-- The names that an assignment by text lacks. -/
def missingNames {β : Type} (order : List String) (values : Entries String β) : List String :=
  order.filter (!values.has ·)

/-- The values of an assignment by text in the order of the names, all of which must have one;
otherwise the names that have none. -/
def vector {β : Type} (order : List String) (values : Entries String β) :
    Except (List String) (List β) :=
  let missing := missingNames order values
  if missing.isEmpty then .ok (order.filterMap fun name => values.find? name) else .error missing

end DenseModel
end LinModel
