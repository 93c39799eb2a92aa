import LinModel.Session.Expressions

/-!
# Parts of models and records

The parts of a compiled model are values that cannot be changed; settings, solutions and reports
are objects with fields. Both may be made by hand, and then their fields hold anything. `toProblem?`
reads a model as a typed problem where its parts allow it.

Key definitions: `Value.partField?`, `newPart`, `makePart`, `ofCompiledVariable`, `toProblem?`,
`makeSolverConfig`, `makeConfig`.
-/
namespace LinModel.Session

/-! ### Fields -/

/-- The field of a part of a model. -/
def Value.partField? (v : Value) (name : String) : Option Value :=
  match v with
  | .part c fields _ => ((c.fields.zip fields).find? (·.1 == name)).map Prod.snd
  | _ => Option.none

/-- A new part of a model. -/
def newPart (c : PartClass) (fields : List Value) : Script Value := stamp (.part c fields .shared)

/-! ### Making parts by hand -/

section Making

variable [Calling]

/-- A mapping's entries as a mapping that cannot be changed. -/
def freeze (v : Value) : Script Value := do newView (← toEntries v)

/-- A compiled constraint of session values. -/
def makeCompiledConstraint (name coefficients lower upper : Value) : Script Value := do
  newPart .constraint [name, ← freeze coefficients, lower, upper]

/-- A compiled objective of session values. -/
def makeCompiledObjective (coefficients goal offset : Value) : Script Value := do
  newPart .objective [← freeze coefficients, goal, offset]

/-- A tuple of the items of a collection. -/
def toTuple (v : Value) : Script Value := do
  match v with
  | .tuple .. => stamp v
  | _ => stamp (.ofTuple (← iterate v))

/-- A compiled model of session values. -/
def makeCompiledModel (vars constraints objective solver tolerance solverArgs verbose : Value) :
    Script Value := do
  let vars ← toTuple vars
  let constraints ← toTuple constraints
  newPart .model [vars, constraints, objective, solver, tolerance, ← freeze solverArgs, verbose]

end Making

/-! ### Typed parts as values -/

/-- A compiled variable as a value, the name and bounds of the variable at a place kept as they
are. -/
def ofCompiledVariable (v : CompiledVariable Float) (id place : Identity) : Script Value := do
  let bound := fun (x : Float) (name : String) =>
    Value.real x (.part (if v.kind = .boolean then .shared else place) name)
  newPart .variable [.name v.name id, .member (.kind v.kind), bound v.lower "lower_bound",
    bound v.upper "upper_bound"]

/-- A compiled constraint as a value. -/
def ofCompiledConstraint (c : CompiledConstraint Float Value)
    (ids : Entries VariableName Identity) : Script Value := do
  let lower ← stamp (.ofReal c.lower)
  let upper ← if c.lower.toBits = c.upper.toBits then pure lower else stamp (.ofReal c.upper)
  newPart .constraint [ofLabel c.label, ← coefficientMapping c.coefficients ids, lower, upper]

/-- A compiled objective as a value, its offset under an identity. -/
def ofCompiledObjective (o : CompiledObjective Float) (ids : Entries VariableName Identity)
    (offset : Identity) : Script Value := do
  newPart .objective [← coefficientMapping o.coefficients ids, .member (.goal o.goal),
    .real o.offset offset]

/-! ### Values as typed parts -/

/-- The name that a value is or writes. -/
def nameOf? (v : Value) : Option VariableName :=
  match v with
  | .name n _ => some n
  | .text t _ => VariableName.ofText? t
  | _ => none

/-- The double of a plain number that arrays take as it is. -/
def arrayNumber? (v : Value) : Option Float :=
  match v with
  | .integer n _ => if n.natAbs < Nat.pow 2 63 then some (Number.nearestInt n) else none
  | .real x _ => some x
  | .machine n _ => match n with
    | .truth _ => none
    | _ => some n.toFloat
  | _ => none

/-- The finite double of a number that counts as real in expressions. -/
def finiteNumber? (v : Value) : Option Float :=
  match v.realNumber?.map RealNumber.toDouble with
  | some (.ok x) => if x.isFinite then some x else none
  | _ => none

namespace Store

/-- The coefficients that a mapping holds, if its keys are names with different texts and its
values finite numbers. -/
def coefficients? (s : Store) (v : Value) : Option (Coefficients Float) := do
  let entries ← s.entries? v
  let cs ← entries.mapM fun (k, c) => do return (← nameOf? k, ← finiteNumber? c)
  let names : List VariableName := List.map Prod.fst cs
  if names.eraseDups.length = names.length then return cs else none

/-- The compiled variable that a value holds. -/
def compiledVariable? (v : Value) : Option (CompiledVariable Float) :=
  match v with
  | .part .variable [name, .member (.kind kind), lower, upper] _ => do
    return ⟨← nameOf? name, kind, ← arrayNumber? lower, ← arrayNumber? upper⟩
  | _ => none

/-- The compiled constraint that a value holds. -/
def compiledConstraint? (s : Store) (v : Value) : Option (CompiledConstraint Float Value) :=
  match v with
  | .part .constraint [name, coefficients, lower, upper] _ => do
    return ⟨toLabel name, ← s.coefficients? coefficients, ← arrayNumber? lower,
      ← arrayNumber? upper⟩
  | _ => none

/-- The compiled objective that a value holds. -/
def compiledObjective? (s : Store) (v : Value) : Option (CompiledObjective Float) :=
  match v with
  | .part .objective [coefficients, .member (.goal goal), offset] _ => do
    return ⟨← s.coefficients? coefficients, goal, ← finiteNumber? offset⟩
  | _ => none

/-- The problem that a model holds, if all its parts are what building a model makes them. -/
def toProblem? (s : Store) (v : Value) : Option (Problem Float Value) :=
  match v with
  | .part .model [.tuple vars _, .tuple constraints _, objective, _, _, _, _] _ => do
    return ⟨← vars.mapM compiledVariable?, ← constraints.mapM s.compiledConstraint?,
      ← s.compiledObjective? objective⟩
  | _ => none

end Store

/-! ### Settings -/

/-- Settings for the solver. -/
def makeSolverConfig (solver tolerance solverArgs verbose : Value) : Script Value := do
  let arguments ← match solverArgs with
    | .none => newDict []
    | v => pure v
  newRecord .solverConfig [("solver", solver), ("tolerance", tolerance),
    ("solver_args", arguments), ("verbose", verbose)]

/-- The default settings for the solver. -/
def defaultSolverConfig : Script Value :=
  makeSolverConfig .none (.real 1e-7 (.part .shared "tolerance")) .none (.truth false)

/-- Settings for development. -/
def makeDevConfig (printing : Value) : Script Value :=
  newRecord .devConfig [("printing", printing)]

/-- The default settings for development. -/
def defaultDevConfig : Script Value := makeDevConfig (.truth false)

/-- Settings of all sorts. -/
def makeConfig (solver dev : Value) : Script Value :=
  newRecord .config [("solver", solver), ("dev", dev)]

end LinModel.Session
