import LinModel.Dense
import LinModel.Form.Basic

/-!
# Programs for a solver

What a solver is handed: variables with their integrality, equations and inequalities between
forms, and an objective. The finite bounds of the variables come first, in the order of the
variables, and then the constraints of the problem, each as a group of at most two. Boolean
variables need no bounds. A variable is referred to by a handle of any type.

Key definitions: `Relation`, `Program`, `Program.ofProblem`, `lowerCoefficients`,
`lowerExpression`, `lowerConstraint`, `lowerObjective`.
-/
namespace LinModel

/-- An equation `left = right` or an inequality `left ≤ right`. -/
structure Relation (ν K : Type) where
  isEquation : Bool
  left : Form ν K
  right : Form ν K

/-- A variable as the solver knows it. -/
structure ProgramVariable where
  name : String
  isBoolean : Bool
  isInteger : Bool

/-- An objective over handles. -/
structure ProgramObjective (ν K : Type) where
  goal : Goal
  expression : Form ν K

/-- A program over variables `ν`. -/
structure Program (ν K L : Type) where
  /-- The handle of each name; of a repeated name, the last one's. -/
  vars : Entries String ν
  bounds : List (Relation ν K)
  /-- The relations of each constraint, under its label. -/
  groups : List (Option L × List (Relation ν K))
  objective : ProgramObjective ν K

/-- Why an expression cannot be lowered: a name has no handle. -/
structure UnmappedName where
  name : String

/-- The wording of an error. -/
def UnmappedName.message (e : UnmappedName) : String :=
  "Variable '" ++ e.name ++ "' not found in variable_map."

section Lowering

variable {ν K L : Type} [Scalar K]

/-- The terms of a form: coefficients with the handles of their names. -/
def lowerTerms (handle? : String → Option ν) (cs : List (String × K)) :
    Except UnmappedName (List (ν × K)) :=
  cs.mapM fun (name, c) =>
    match handle? name with
    | some h => .ok (h, c)
    | none => .error ⟨name⟩

/-- Coefficients and a constant as a form. -/
def lowerCoefficients (handle? : String → Option ν) (cs : List (String × K)) (constant : K) :
    Except UnmappedName (Form ν K) := do
  return .ofTermsAnd (← lowerTerms handle? cs) constant

/-- An expression as a form. -/
def lowerExpression (handle? : String → Option ν) : Expression K → Except UnmappedName (Form ν K)
  | .variable v => handleOf v.name
  | .term name c => do return .product (.constant c) (← handleOf name)
  | .linear cs k => lowerCoefficients handle? cs.texts k
where
  /-- The handle of a name. -/
  handleOf (name : VariableName) : Except UnmappedName (Form ν K) :=
    match handle? name.text with
    | some h => .ok (.handle h)
    | none => .error ⟨name.text⟩

/-- `form ≥ low`, if `low` is finite. -/
def atLeast (form : Form ν K) (low : K) : List (Relation ν K) :=
  if Scalar.isFinite low then [⟨false, .constant low, form⟩] else []

/-- `form ≤ high`, if `high` is finite. -/
def atMost (form : Form ν K) (high : K) : List (Relation ν K) :=
  if Scalar.isFinite high then [⟨false, form, .constant high⟩] else []

/-- A range as an equation, or as an inequality for each finite end. -/
def lowerConstraint (handle? : String → Option ν) (cs : List (String × K)) (lower upper : K) :
    Except UnmappedName (List (Relation ν K)) := do
  let form ← lowerCoefficients handle? cs Scalar.zero
  if Scalar.beq lower upper then return [⟨true, form, .constant lower⟩]
  return atLeast form lower ++ atMost form upper

/-- An objective with its offset. -/
def lowerObjective (handle? : String → Option ν) (cs : List (String × K)) (offset : K)
    (goal : Goal) : Except UnmappedName (ProgramObjective ν K) := do
  return ⟨goal, ← lowerCoefficients handle? cs offset⟩

/-- The finite bounds of a variable; a boolean one has none. -/
def lowerBounds (v : CompiledVariable K) (handle : ν) : List (Relation ν K) :=
  match v.kind with
  | .boolean => []
  | _ => atLeast (.handle handle) v.lower ++ atMost (.handle handle) v.upper

/-- What a solver knows of a variable. -/
def CompiledVariable.programVariable (v : CompiledVariable K) : ProgramVariable :=
  ⟨v.name.text, v.kind == .boolean, v.kind == .integer⟩

/-- The program of a problem, over one handle per variable. -/
def Program.ofProblem (handles : List ν) (p : Problem K L) :
    Except UnmappedName (Program ν K L) := do
  let pairs := p.vars.zip handles
  let map := Entries.ofList (pairs.map fun (v, h) => (v.name.text, h))
  let groups ← p.constraints.mapM fun c => do
    return (c.label, ← lowerConstraint (Entries.find? · map) c.coefficients.texts c.lower c.upper)
  let o := p.objective
  let objective ← lowerObjective (Entries.find? · map) o.coefficients.texts o.offset o.goal
  return ⟨map, pairs.flatMap fun (v, h) => lowerBounds v h, groups, objective⟩

end Lowering

namespace Program

variable {ν K L : Type}

/-- All relations: bounds first, then the constraints. -/
def relations (p : Program ν K L) : List (Relation ν K) :=
  p.bounds ++ p.groups.flatMap Prod.snd

/-- The handles that occur in some relation or in the objective. -/
def occurring (p : Program ν K L) : List ν :=
  p.relations.flatMap (fun r => r.left.handles ++ r.right.handles) ++ p.objective.expression.handles

end Program
end LinModel
