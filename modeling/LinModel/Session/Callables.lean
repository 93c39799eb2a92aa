import LinModel.Session.Tensors

/-!
# Callables of a session

Callables are providers of values, providers behind choices of keys, and the functions that
measure an assignment: rows of a dense model, violations of a range, and what a whole dense model
measures. An assignment is an array of any shape, or a number, as far as shapes fit. A provider is
a step's own function, so its faults have no wording of their own; the others belong to the
library.

Key definitions: `provide`, `rowValue`, `violationOf`, `measureOf`, `callCallable`.
-/
namespace LinModel.Session

variable [Calling]

/-! ### Providers -/

/-- Fails as a provider does at one argument. -/
def failProvider {α : Type} (argument : Value) : Script α := do
  fail .value ("provider failed at " ++ (← shown argument))

/-- The texts of an argument's parts: the keys of a tuple, the characters of a text. -/
def partTexts (argument : Value) : Script (List String) := do
  (← iterate argument).mapM written

/-- What a provider gives for an argument, at its call number `call`. -/
def provide (p : Provider) (call : Nat) (argument : Value) : Script Value := do
  match p with
  | .echo => return argument
  | .constant v => return v
  | .join => return .ofText (String.intercalate "_" (← partTexts argument))
  | .count => return .ofInt call
  | .failAt k =>
    if ← reading fun s => s.equal argument k then failProvider argument else return argument
  | .declare builder failing =>
    if let some k := failing then
      if ← reading fun s => s.equal argument k then failProvider argument
    callMethod builder "num_var" [argument]
  | .declareAutomatic builder failing =>
    if let some k := failing then
      if ← reading fun s => s.equal (.ofInt call) k then failProvider argument
    callMethod builder "num_var" []

/-! ### Measuring assignments -/

/-- A value as an array that rows of coefficients can be multiplied with. -/
def factorArray (v : Value) : Script NumArray := do
  match (← get).array? v with
  | some a => return a
  | none => match v with
    | .truth b => return .ofNumber true false (.truth b)
    | .integer n _ =>
      if wrapped n = n then return .ofNumber true true (.integer n)
      else fail .overflow ("Python int " ++ toString n ++ " too large to convert to int64")
    | .real x _ => return .ofNumber true true (.double x)
    | .machine n _ => return .ofNumber true false n
    | v => fault .type ("unsupported operand type(s) for @: 'jaxlib._jax.ArrayImpl' and '"
        ++ v.longTypeName ++ "'")

/-- The value of a row of coefficients with a constant. -/
def rowValue (coefficients : List Float) (constant : Float) (x : NumArray) : Script NumArray := do
  let product ← liftArray (NumArray.matrixProduct [coefficients] coefficients.length false x)
  return product.mapReals (· + constant)

/-- How far a value lies outside a range, from both ends of which it must be possible to subtract
it; a NaN stays one. -/
def violationOf (x lower upper : Value) : Script NumArray := do
  let below ← subValues lower x
  let above ← subValues x upper
  let s ← get
  match s.array? below, s.array? above with
  | some a, some b => do
    let larger ← liftArray (a.maximum b)
    liftArray (larger.maximum (.ofNumber true true (.double 0.0)))
  | _, _ => fault .type "maximum requires ndarray or scalar arguments"

/-- How far the value of a row lies outside its range. -/
def rowViolation (r : RowRange) (argument : Value) : Script NumArray := do
  let value ← rowValue r.coefficients r.constant (← factorArray argument)
  violationOf (← arrayValue value) r.lower r.upper

/-- The numbers of a value as an array of real numbers, for rounding. -/
def roundable (v : Value) : Script NumArray := do
  let a ← match (← get).array? v with
    | some a => pure a
    | none => match v with
      | .text .. | .fraction .. | .decimal .. => failForeign v
      | .truth _ | .integer .. | .real .. | .machine .. => factorArray v
      | v => fail .type ("round requires ndarray or scalar arguments, got " ++ classText v
          ++ " at position 0.")
  if a.width = .truth then fail .value "data type <class 'numpy.bool'> not inexact"
  return a

/-- What is measured of an assignment. -/
def measureOf (m : Measure) (argument : Value) : Script NumArray := do
  match m with
  | .activities rows columns => do
    liftArray (NumArray.matrixProduct rows columns true (← factorArray argument))
  | .row coefficients constant => do rowValue coefficients constant (← factorArray argument)
  | .violation r => rowViolation r argument
  | .violations rs => do
    match NumArray.stack? true (← rs.mapM fun r => rowViolation r argument) with
    | some a => return a
    | none => fail .value "All input arrays must have the same shape."
  | .outside lower upper => do
    violationOf argument (← arrayValue lower) (← arrayValue upper)
  | .integrality mask => do
    let distances := (← roundable argument).mapReals Scalar.distanceToInteger
    let distances := if distances.width = .integer then distances.mapNumbers fun _ => .integer 0
      else distances
    liftArray (distances.combine .mul (.ofDoubles true [mask.length] mask))

/-! ### Calls -/

/-- The result of a callable for one argument. -/
def callCallable (place : Nat) (c : Callable) (argument : Value) : Script Value := do
  match c with
  | .provider p calls =>
    replace place (.callable (.provider p (calls + 1)))
    outside (provide p (calls + 1) argument)
  | .filled provider choices => inside do
    callWith provider [.ofTuple (← fillOpen choices (← iterate argument))]
  | .measure m => inside do arrayValue (← measureOf m argument)

end LinModel.Session
