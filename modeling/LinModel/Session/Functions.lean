import LinModel.Session.Construct

/-!
# Functions, operators and conversions

What a session can call by a function's name, and what its operators and conversions give. The
library's own functions answer for what happens inside them. The functions that every session has,
such as sums and sorted lists, and the operators and conversions are applied by the step itself, so
that what does not fit them is a fault of the step.

Key definitions: `symbolicFunction?`, `solvingFunction?`, `plainFunction?`, `callFunction`,
`operate`, `convert`.
-/
namespace LinModel.Session

/-! ### Plain functions -/

/-- The sorted items of a collection, from the smallest or from the largest on; equal items keep
their order. -/
def sortedList [Calling] (items isReversed : Value) : Script Value := do
  let values ← iterate items
  match ← indexOf isReversed with
  | none =>
    fault .type ("'" ++ isReversed.longTypeName ++ "' object cannot be interpreted as an integer")
  | some n =>
    if n < -2147483648 ∨ 2147483647 < n then
      fail .overflow "Python int too large to convert to C int"
    let descending := n != 0
    let sorted ← reading fun s => sortValues s (if descending then values.reverse else values)
    newList (if descending then sorted.reverse else sorted)

/-- A program variable made by hand. -/
def makeProgramVariable (name isBoolean isInteger : Value) : Script Value := do
  match name with
  | .text t _ => alloc (.programVariable t isBoolean isInteger none)
  | v => fail .type ("Variable name " ++ (← written v) ++ " must be a string.")

/-- The key tuples of a collection of domains. -/
def productList [Calling] (dimensions : Value) : Script Value := do
  let domains ← tryCatch (iterate dimensions) fun e =>
    if e.isFault then fault .type ("itertools.product() argument after * must be an iterable, not "
      ++ dimensions.longTypeName)
    else throw e
  newList ((product (← domains.mapM iterate)).map .ofTuple)

/-- The status that a value stands for: a solver's word, or nothing for one that has not run. -/
def statusOf (v : Value) : Script SolveStatus := do
  requireKey v
  return match v with
    | .none => .ofWord none
    | .text t _ => .ofWord (some t)
    | _ => .abnormal

section Functions

variable [Calling]

/-- A function that every session has, if the name is one. -/
def plainFunction? (f : String) (arguments : Arguments) : Option (Script Value) :=
  let own := fun parameters (body : (String → Value) → Script Value) => some do
    body (← bindArguments f 0 parameters arguments)
  match f with
  | "sum" => own [required "iterable", optional "start" (.ofInt 0)] fun a =>
      chainSum (a "iterable") (a "start")
  | "sorted" => own [required "iterable", optional "reverse" (.truth false)] fun a =>
      sortedList (a "iterable") (a "reverse")
  | "cp_variable" =>
    own [required "name", optional "boolean" (.truth false), optional "integer" (.truth false)]
      fun a => makeProgramVariable (a "name") (a "boolean") (a "integer")
  | "jax_array" => own [required "values"] fun a => do
      newVector (← (← iterate (a "values")).mapM toDouble)
  | _ => none

/-- A function on expressions, names and tensors, if the name is one. -/
def symbolicFunction? (f : String) (arguments : Arguments) : Option (Script Value) :=
  let one := fun parameter body => some ((takesOne "" f parameter body).run arguments)
  match f with
  | "sum_expressions" => one "expressions" fun v => do sumValues (← iterate v)
  | "average_expressions" => one "expressions" fun v => do averageValues (← iterate v)
  | "to_expression" => one "value" toSide
  | "as_name" => one "name" fun v => do return (← toName v).toValue
  | "as_scalar" => one "value" fun v => do
      match v, ← scalar? v with
      | .real .., some _ => return v
      | _, some x => return .ofReal x
      | _, none => return .none
  | "format_number" => one "value" fun v => do return .ofText (← formatNumber v)
  | "cartesian_product" => one "dimensions" productList
  | "Selector.exact" => some (exactMethod.run arguments)
  | "NamedTensor.from_provider" => some (generateMethod.run arguments)
  | _ => none

/-- A function on models, solutions and solvers, if the name is one. -/
def solvingFunction? (f : String) (arguments : Arguments) : Option (Script Value) :=
  let make := fun parameters body => some ((takes "" f parameters body).run arguments)
  let one := fun parameter body => some ((takesOne "" f parameter body).run arguments)
  match f with
  | "optimize" => make [required "builder", optional "backend" .none] fun a =>
      optimizeBuilder (a "builder") (a "backend")
  | "model_summary" => one "model" fun v => do
      printSummary v
      return .none
  | "solution_table" => one "solution" fun v => do
      printTable v
      return .none
  | "map_status" => one "status" fun v => do return .member (.status (← statusOf v))
  | "compile_variable" => one "variable" compileVariableValue
  | "compile_constraint" =>
    make [required "constraint", required "known", optional "name" .none] fun a =>
      compileConstraintValue (a "constraint") (a "known") (a "name")
  | "compile_objective" => make [required "objective", required "known"] fun a =>
      compileObjectiveValue (a "objective") (a "known")
  | "lower_to_jax" => one "model" denseRecord
  | "lower_to_cvxpy" => one "model" fun v => do programRecord (← programOf v)
  | _ => none

/-- Calls a function by its name. -/
def callFunction (f : String) (arguments : Arguments) : Script Value :=
  let functions := [symbolicFunction?, solvingFunction?, plainFunction?]
  (functions.findSome? fun find => find f arguments).getD
    (fault .operation ("no function '" ++ f ++ "'"))

/-! ### Operators and conversions -/

/-- Applies an operator. -/
def operate (o : String) (operands : List Value) : Script Value := do
  match o, operands with
  | "+", [a, b] => addValues a b
  | "-", [a, b] => subValues a b
  | "*", [a, b] => mulValues a b
  | "/", [a, b] => divValues a b
  | "<=", [a, b] => relateValues true a b
  | ">=", [a, b] => relateValues false a b
  | "==", [a, b] => equateValues a b
  | "!=", [a, b] => differValues a b
  | "<", [a, b] => belowValues a b
  | "neg", [a] => negValue a
  | "pos", [a] => posValue a
  | "is", [a, b] => return .truth (a.isSame b)
  | "in", [a, b] => return .truth (← isIn a b)
  | _, _ => fault .operation ("no operator '" ++ o ++ "'")

/-- Converts a value. -/
def convert (c : String) (v : Value) : Script Value := do
  match c with
  | "str" => return .ofText (← written v)
  | "repr" => return .ofText (← shown v)
  | "bool" => return .truth (← truth v)
  | "len" => return .ofInt (← lengthOf v)
  | "list" => do newList (← iterate v)
  | _ => fault .operation ("no conversion '" ++ c ++ "'")

end Functions

end LinModel.Session
