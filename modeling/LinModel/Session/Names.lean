import LinModel.Session.Monad
import LinModel.Solving.Report

/-!
# Names of types and members

What the types of values, the classes of objects and the members of closed sets are called, and
what the fields of records are.

Key definitions: `Member.parts`, `PartClass.fields`, `Value.typeName`, `Value.longTypeName`,
`Value.definedName`.
-/
namespace LinModel.Session

/-- The set that a member belongs to, its name in it, and the text it stands for. -/
def Member.parts : Member → String × String × String
  | .relationship .le => ("Relationship", "LE", "<=")
  | .relationship .eq => ("Relationship", "EQ", "==")
  | .relationship .ge => ("Relationship", "GE", ">=")
  | .goal .min => ("Goal", "MIN", "min")
  | .goal .max => ("Goal", "MAX", "max")
  | .kind .boolean => ("VariableKind", "BOOLEAN", "boolean")
  | .kind .integer => ("VariableKind", "INTEGER", "integer")
  | .kind .numeric => ("VariableKind", "NUMERIC", "numeric")
  | .solver s => ("SolverType", s.name, s.name)
  | .status s => ("SolveStatus", (Report.statusWord s).toUpper, Report.statusWord s)
  | .missing p => ("MissingComponent", match p with
      | .vars => "NO_VARIABLES"
      | .constraints => "NO_CONSTRAINTS"
      | .objective => "NO_OBJECTIVE"
      | .solver => "NO_SOLVER", p.message)

/-- All members of all sets. -/
def Member.all : List Member :=
  [Relationship.le, .eq, .ge].map .relationship ++ [Goal.min, .max].map .goal
    ++ [VariableKind.boolean, .integer, .numeric].map .kind ++ Solver.all.map .solver
    ++ [SolveStatus.optimal, .feasible, .infeasible, .unbounded, .abnormal, .notSolved].map .status
    ++ [MissingPart.vars, .constraints, .objective, .solver].map .missing

/-- The name of a set of members. -/
def Member.setName (m : Member) : String := m.parts.1

/-- The text that a member stands for. -/
def Member.word (m : Member) : String := m.parts.2.2

/-- The name of a class of parts of a model. -/
def PartClass.title : PartClass → String
  | .variable => "CompiledVariable"
  | .constraint => "CompiledConstraint"
  | .objective => "CompiledObjective"
  | .model => "CompiledModel"

/-- The names of the fields of a part of a model. -/
def PartClass.fields : PartClass → List String
  | .variable => ["name", "kind", "lower_bound", "upper_bound"]
  | .constraint => ["name", "coefficients", "lower_bound", "upper_bound"]
  | .objective => ["coefficients", "goal", "offset"]
  | .model => ["variables", "constraints", "objective", "solver", "tolerance", "solver_args",
      "verbose"]

/-- The name of a record class. -/
def RecordClass.title : RecordClass → String
  | .solverConfig => "SolverConfig"
  | .devConfig => "DevConfig"
  | .config => "Config"
  | .solution => "Solution"
  | .violations => "Violations"
  | .fixedBackend => "FixedBackend"
  | .denseModel => "LoweredJaxModel"
  | .program => "LoweredCvxpyModel"

/-- The fields of a record that its text shows and that settle whether it equals another of its
class; nothing for a class whose objects only equal themselves. -/
def RecordClass.comparedFields? : RecordClass → Option (List String)
  | .solverConfig | .devConfig => some []
  | .config => some ["solver", "dev"]
  | .solution => some ["status", "objective_value", "values", "dual_values", "model"]
  | .violations => some ["constraints", "bounds", "integrality", "max_violation", "tolerance"]
  | .fixedBackend => none
  | .denseModel => some ["variable_order", "A", "lower", "upper", "c", "offset", "var_lower",
      "var_upper", "integer_mask", "activity", "objective", "constraint_violation",
      "bound_violation", "integrality_violation"]
  | .program => some ["variables", "constraints", "constraint_groups", "objective"]

/-- The name of the class of objectives of programs with a direction. -/
def goalTitle : Goal → String
  | .min => "Minimize"
  | .max => "Maximize"

/-- The name of the class of a form. -/
def FormShape.title : FormShape → String
  | .constant => "Constant"
  | .product => "multiply"
  | .sum => "AddExpression"
  | .negation => "NegExpression"
  | .quotient => "DivExpression"

/-- The name of a class of failures. -/
def ErrorClass.title : ErrorClass → String
  | .incomplete none => "IncompleteModelError"
  | .incomplete (some part) => match part with
    | .vars => "NoVariablesError"
    | .constraints => "NoConstraintsError"
    | .objective => "NoObjectiveError"
    | .solver => "NoSolverError"
  | .unknownVariable => "UnknownVariableError"
  | .invalidKey => "InvalidKeyError"
  | .allCollapsed => "AllDimensionsCollapsedError"

/-- The name of a class of objects. -/
def ObjectClass.title : ObjectClass → String
  | .list => "list"
  | .dict => "dict"
  | .view => "mappingproxy"
  | .listing title => title
  | .variable => "Variable"
  | .parameter => "Parameter"
  | .linear => "LinearExpression"
  | .blank => "Expression"
  | .constraint => "Constraint"
  | .objective => "Objective"
  | .tensor => "NamedTensor"
  | .builder => "ModelBuilder"
  | .record c => c.title
  | .array onDevice => if onDevice then "ArrayImpl" else "ndarray"
  | .programVariable => "Variable"
  | .form shape => shape.title
  | .relation isEquation => if isEquation then "Equality" else "Inequality"
  | .programObjective goal => goalTitle goal
  | .denseLowerer => "JaxLowerer"
  | .programLowerer => "CvxpyLowerer"
  | .backend => "CvxpyBackend"
  | .problem => "Problem"
  | .callable => "function"
  | .iterator => "generator"
  | .block => "_GeneratorContextManager"
  | .error c => c.title

/-- The name of a value's type. -/
def Value.typeName : Value → String
  | .none => "NoneType"
  | .truth _ => "bool"
  | .integer .. => "int"
  | .real .. => "float"
  | .fraction .. => "Fraction"
  | .machine n _ => n.width.title
  | .decimal .. => "Decimal"
  | .text .. => "str"
  | .name .. => "VariableName"
  | .tuple .. => "tuple"
  | .slice .. => "slice"
  | .selector .. => "Selector"
  | .part c _ _ => c.title
  | .method .. => "method"
  | .member m => m.setName
  | .object c _ => c.title

/-- The name of a value's type together with where the type belongs. -/
def Value.longTypeName (v : Value) : String :=
  match v with
  | .machine n _ => "numpy." ++ n.width.title
  | .decimal .. => "decimal.Decimal"
  | .object (.array true) _ => "jaxlib._jax.ArrayImpl"
  | .object (.array false) _ => "numpy.ndarray"
  | _ => v.typeName

/-- The name of the type that an operator sees: a number of fixed width is seen as the plain number
that equals it. -/
def Value.operandTypeName : Value → String
  | .machine (.integer _) _ => "int"
  | .machine (.truth _) _ => "bool"
  | .machine .. => "float"
  | v => v.longTypeName

/-- Where the class of a part of a model or of an object of the library belongs, as far as it
belongs to a module. -/
def ObjectClass.home? : ObjectClass → Option String
  | .variable => some "linearsolver.symbolic.expr.variable"
  | .parameter | .linear | .blank => some "linearsolver.symbolic.expr.expr"
  | .constraint => some "linearsolver.symbolic.expr.constraint"
  | .objective => some "linearsolver.symbolic.expr.objective"
  | .tensor => some "linearsolver.symbolic.tensor"
  | .builder => some "linearsolver.symbolic.builder"
  | .record c => match c with
    | .solverConfig | .devConfig | .config => some "linearsolver.config"
    | .solution | .violations => some "linearsolver.solution"
    | .denseModel => some "linearsolver.symbolic.lowerers.jax"
    | .program => some "linearsolver.symbolic.lowerers.cvxpy"
    | .fixedBackend => Option.none
  | .programVariable => some "cvxpy.expressions.variable"
  | .form shape => match shape with
    | .constant => some "cvxpy.expressions.constants.constant"
    | .sum => some "cvxpy.atoms.affine.add_expr"
    | .negation => some "cvxpy.atoms.affine.unary_operators"
    | .product | .quotient => some "cvxpy.atoms.affine.binary_operators"
  | .relation isEquation =>
    some (if isEquation then "cvxpy.constraints.zero" else "cvxpy.constraints.nonpos")
  | .programObjective _ => some "cvxpy.problems.objective"
  | .problem => some "cvxpy.problems.problem"
  | .denseLowerer => some "linearsolver.symbolic.lowerers.jax"
  | .programLowerer => some "linearsolver.symbolic.lowerers.cvxpy"
  | .backend => some "linearsolver.solvers.cvxpy"
  | .error _ => some "linearsolver.errors"
  | _ => Option.none

/-- The name of a value's class together with the module where it is defined. -/
def Value.definedName (v : Value) : String :=
  let inHome := fun home : Option String => match home with
    | some home => home ++ "." ++ v.typeName
    | Option.none => v.longTypeName
  match v with
  | .name .. => "linearsolver.symbolic.expr.expr." ++ v.typeName
  | .selector .. => "linearsolver.symbolic.tensor." ++ v.typeName
  | .part .. => "linearsolver.compiled." ++ v.typeName
  | .object c _ => inHome c.home?
  | _ => v.longTypeName

/-- The wording for an attribute that a value does not have. -/
def noAttributeMessage (v : Value) (name : String) : String :=
  "'" ++ v.longTypeName ++ "' object has no attribute '" ++ name ++ "'"

/-- Fails because a value does not have an attribute. -/
def noAttribute {m : Type → Type} [MonadExceptOf Failure m] {α : Type} (v : Value)
    (name : String) : m α := fault .operation (noAttributeMessage v name)

/-- The wording for a value that cannot be a key, by the part of it that cannot. -/
def unusableMessage (part : Value) : String :=
  match part with
  | .decimal .. => "Cannot hash a signaling NaN value"
  | _ => "unhashable type: '" ++ part.longTypeName ++ "'"

/-- Fails for a value that cannot be a key. -/
def requireKey {m : Type → Type} [Monad m] [MonadExceptOf Failure m] (v : Value) : m Unit :=
  match v.unusable? with
  | some part => fault .type (unusableMessage part)
  | none => pure ()

/-- Fails for a value that cannot be looked up among keys. -/
def requireKeyAmong {m : Type → Type} [Monad m] [MonadExceptOf Failure m] (keys : List Value)
    (v : Value) : m Unit := do
  requireKey v
  if keys.any (·.refusesKey v) then
    fault .type ("conversion from " ++ v.longTypeName ++ " to Decimal is not supported")

/-- Whether a value is an expression, also one without coefficients. -/
def Value.isExpression : Value → Bool
  | .object c _ => match c with
    | .variable | .parameter | .linear | .blank => true
    | _ => false
  | _ => false

/-- Whether a value is an expression without coefficients. -/
def Value.isBlank : Value → Bool
  | .object .blank _ => true
  | _ => false

/-- The real number that a value counts as in expressions. -/
def Value.realNumber? : Value → Option RealNumber
  | .integer n _ => some (.integer n)
  | .real x _ => some (.double x)
  | .fraction q _ => some (.fraction q)
  | .machine n _ => match n with
    | .truth _ => Option.none
    | n => some (.machine n)
  | _ => Option.none

/-- Whether a value counts as a real number in expressions. -/
def Value.isReal (v : Value) : Bool := v.realNumber?.isSome

/-- Whether a comparison with this value, on the other side of an expression, makes a
constraint. -/
def Value.isOperand (v : Value) : Bool := v.isExpression || v.isReal

/-- Nothing as no label. -/
def toLabel (v : Value) : Option Value :=
  match v with
  | .none => none
  | _ => some v

/-- No label as nothing. -/
def ofLabel (label : Option Value) : Value := label.getD .none

end LinModel.Session
