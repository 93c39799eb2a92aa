import LinModel.Constraint

/-!
# Compiled problems

The normal form of a model: every constraint is a range on a sum of terms, every variable has a
kind and bounds, and the objective has an offset. A constraint is compiled from the difference of
its sides; terms that cancelled are dropped, and every name must be known, also that of a
cancelled term that is still listed.

Key definitions: `CompiledVariable`, `CompiledConstraint`, `CompiledObjective`, `Problem`,
`Problem.variable`, `Solver`, `CompiledModel`, `compileVariable`, `compileConstraint`,
`compileObjective`, `CompileError`.
-/
namespace LinModel

/-- A variable with its final bounds. -/
structure CompiledVariable (K : Type) where
  name : VariableName
  kind : VariableKind
  lower : K
  upper : K

/-- The range `lower ≤ Σ coefficient · variable ≤ upper`. -/
structure CompiledConstraint (K L : Type) where
  label : Option L
  coefficients : Coefficients K
  lower : K
  upper : K

/-- The objective `Σ coefficient · variable + offset` with its direction. -/
structure CompiledObjective (K : Type) where
  coefficients : Coefficients K
  goal : Goal
  offset : K

/-- Variables, ranges and an objective. -/
structure Problem (K L : Type) where
  vars : List (CompiledVariable K)
  constraints : List (CompiledConstraint K L)
  objective : CompiledObjective K

/-- The solvers that a model can be handed to. -/
inductive Solver
  | glop | pdlp | clarabel | glpk
  | scip | cbc | glpkMi | highs | scipy
  | gurobi | cplex | xpress | mosek
deriving DecidableEq

namespace Solver

/-- The name that a solver goes by. -/
def name : Solver → String
  | .glop => "GLOP" | .pdlp => "PDLP" | .clarabel => "CLARABEL" | .glpk => "GLPK"
  | .scip => "SCIP" | .cbc => "CBC" | .glpkMi => "GLPK_MI" | .highs => "HIGHS"
  | .scipy => "SCIPY"
  | .gurobi => "GUROBI" | .cplex => "CPLEX" | .xpress => "XPRESS" | .mosek => "MOSEK"

/-- All solvers. -/
def all : List Solver :=
  [.glop, .pdlp, .clarabel, .glpk, .scip, .cbc, .glpkMi, .highs, .scipy, .gurobi, .cplex,
    .xpress, .mosek]

/-- Whether a solver takes variables with integer values. -/
def supportsIntegers : Solver → Bool
  | .glop | .pdlp | .clarabel | .glpk => false
  | _ => true

end Solver

/-- A problem with the solver it is meant for and the tolerance for checking its solutions. -/
structure CompiledModel (K L : Type) extends Problem K L where
  solver : Solver
  tolerance : K

/-- Where an unknown name was met. -/
inductive Place (K L : Type)
  | labelled (label : L)
  | unlabelled (constraint : Constraint K L)
  | objective

/-- Why a constraint or an objective cannot be compiled. -/
inductive CompileError (K L : Type)
  | unknownVariable (name : VariableName) (place : Place K L)
  | expression (e : ExpressionError K)

/-- Why a problem has no variable to look up: none has the name. -/
structure UnlistedName where
  name : String

/-- The wording of an error. -/
def UnlistedName.message (e : UnlistedName) : String :=
  "No variable named '" ++ e.name ++ "' in the compiled model"

variable {K L : Type} [Scalar K]

/-- Whether both ends of the range are equal. -/
def CompiledConstraint.isEquality (c : CompiledConstraint K L) : Bool :=
  Scalar.beq c.lower c.upper

/-- The names of the variables, in order. -/
def Problem.names (p : Problem K L) : List VariableName := p.vars.map (·.name)

/-- The variable of a name. -/
def Problem.variable (p : Problem K L) (name : String) :
    Except UnlistedName (CompiledVariable K) :=
  match p.vars.find? (·.name.text == name) with
  | some v => .ok v
  | none => .error ⟨name⟩

/-- Whether some variable takes only integers. -/
def Problem.isMixedInteger (p : Problem K L) : Bool := p.vars.any (·.kind.isDiscrete)

/-- The nonzero coefficients, all of whose names must be known. -/
def nonzeroCoefficients (known : List VariableName) (place : Place K L) (cs : Coefficients K) :
    Except (CompileError K L) (Coefficients K) :=
  collect (fun (name, value) =>
    if known.contains name then
      .ok (if Scalar.beq value Scalar.zero then none else some (name, value))
    else .error (.unknownVariable name place)) cs

/-- A variable in normal form: booleans are bounded by zero and one. -/
def compileVariable (v : Variable K) : CompiledVariable K :=
  match v.kind with
  | .boolean => ⟨v.name, v.kind, Scalar.zero, Scalar.one⟩
  | _ => ⟨v.name, v.kind, v.lower, v.upper⟩

/-- The ends of the range whose relationship to `bound` is the given one. -/
def Relationship.range (bound : K) : Relationship → K × K
  | .eq => (bound, bound)
  | .ge => (bound, Scalar.infinity)
  | .le => (-Scalar.infinity, bound)

/-- A constraint as a range on the difference of its sides; `label` replaces its own. -/
def compileConstraint (known : List VariableName) (c : Constraint K L) (label : Option L) :
    Except (CompileError K L) (CompiledConstraint K L) := do
  let label := label.or c.label
  let delta ← c.difference.mapError .expression
  let place := match label with
    | some l => .labelled l
    | none => .unlabelled c
  let coefficients ← nonzeroCoefficients known place delta.coefficients
  let (lower, upper) := c.relationship.range (-delta.constant)
  return ⟨label, coefficients, lower, upper⟩

/-- An objective with its constant as offset. -/
def compileObjective (known : List VariableName) (o : Objective K) :
    Except (CompileError K L) (CompiledObjective K) := do
  let coefficients ← nonzeroCoefficients known .objective o.expression.coefficients
  return ⟨coefficients, o.goal, o.expression.constant⟩

/-- Where a name was met, in words. -/
def Place.describe [Numerals K] (writeLabel quoteLabel : L → String) : Place K L → String
  | .labelled label => "constraint '" ++ writeLabel label ++ "'"
  | .unlabelled c => "constraint " ++ c.describe quoteLabel
  | .objective => "objective"

/-- The wording for an unknown name, with the place if there is one. -/
def unknownVariableMessage (name place : String) : String :=
  "Unknown variable '" ++ name ++ "'" ++ (if place = "" then "" else " in " ++ place)

end LinModel
