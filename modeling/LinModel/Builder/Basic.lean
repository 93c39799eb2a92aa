import LinModel.Compiled

/-!
# Building a model

A builder registers variables and constraints in the order in which they are declared, holds at
most one objective, numbers the variables that are declared without a name, and gives unlabelled
constraints the label of the block that is open. Compiling it checks that nothing is missing and
that every name is registered.

The operations are programs over the builder's state. One that fails keeps the state it has
reached, and says so in its own description where that matters.

Key definitions: `Builder`, `Builder.variable`, `BuilderM`, `Builder.declare`,
`Builder.declareFor`, `Builder.addConstraint`, `Builder.within`, `Builder.setObjective`,
`Builder.compile`, `Builder.build`.
-/
namespace LinModel

/-- The state of a model under construction. -/
structure Builder (K L : Type) where
  /-- How many names have been given out automatically. -/
  sequence : Nat
  vars : List (Variable K)
  constraints : List (Constraint K L)
  objective : Option (Objective K)
  /-- The label for constraints without one. -/
  block : Option L

/-- Why an operation on a builder fails. -/
inductive BuilderError (K : Type)
  | bounds (e : BoundsError K)
  | duplicateName (name : VariableName)
  | operand (e : OperandError K)

/-- The wording for a name that is taken. -/
def duplicateNameMessage (name : VariableName) : String :=
  "Variable with name '" ++ name.text ++ "' already exists"

/-- What a model lacks. -/
inductive MissingPart
  | vars
  | constraints
  | objective
  | solver
deriving DecidableEq

/-- The wording for a missing part. -/
def MissingPart.message : MissingPart → String
  | .vars => "At least one variable must be provided"
  | .constraints => "At least one constraint must be provided"
  | .objective => "Objective must be provided"
  | .solver => "A solver must be chosen"

/-- Why a builder cannot be compiled. -/
inductive BuildError (K L : Type)
  | missing (part : MissingPart)
  | compile (e : CompileError K L)

/-- Why a builder has no variable to look up: none is registered under the name. -/
structure UnregisteredName where
  name : String

/-- The registered variable of a name. -/
def Builder.variable {K L : Type} (b : Builder K L) (name : String) :
    Except UnregisteredName (Variable K) :=
  match b.vars.find? (·.name.text == name) with
  | some v => .ok v
  | none => .error ⟨name⟩

/-- Programs over a builder; a failure keeps the state reached so far. -/
abbrev BuilderM (K L : Type) := ExceptT (BuilderError K) (StateM (Builder K L))

namespace Builder

variable {K L : Type}

/-- A builder without anything. -/
def empty : Builder K L := ⟨0, [], [], none, none⟩

/-- The registered names, in order. -/
def names (b : Builder K L) : List VariableName := b.vars.map (·.name)

/-- The name that the next variable without one gets. -/
def nextName (b : Builder K L) : VariableName := .automatic (b.sequence + 1)

section Registering

variable {m : Type → Type} [Monad m] [MonadStateOf (Builder K L) m]

/-- The given name, or the next automatic one. An automatic name is used up even if the
declaration it is for fails. -/
def nameFor (name : Option VariableName) : m VariableName :=
  match name with
  | some n => return n
  | none => modifyGet fun (b : Builder K L) =>
      (VariableName.automatic (b.sequence + 1), { b with sequence := b.sequence + 1 })

/-- Registers a constraint. -/
def pushConstraint (c : Constraint K L) : m Unit :=
  modify fun (b : Builder K L) => { b with constraints := b.constraints ++ [c] }

/-- Runs a program with a label for constraints without one, and puts back the label in force
before, whether the program returns or fails. -/
def within {α : Type} [MonadFinally m] (label : Option L) (program : m α) : m α := do
  let before : Builder K L ← get
  modify fun (b : Builder K L) => { b with block := label }
  try program
  finally modify fun (b : Builder K L) => { b with block := before.block }

end Registering

/-- The label that registering gives to a constraint: the explicit one, or the block's for a
constraint without its own; `none` leaves the constraint as it is. -/
def labelFor (b : Builder K L) (c : Constraint K L) (explicit : Option L) : Option L :=
  match explicit, c.label with
  | some label, _ => some label
  | none, none => b.block
  | none, some _ => none

/-- The constraint under the label that registering gives it. -/
def relabel (b : Builder K L) (c : Constraint K L) (explicit : Option L) : Constraint K L :=
  match b.labelFor c explicit with
  | some label => c.labelled label
  | none => c

/-- Registers a variable unless its name is taken. -/
def register (v : Variable K) : BuilderM K L (Variable K) := do
  let b ← get
  if b.names.contains v.name then throw (.duplicateName v.name)
  set { b with vars := b.vars ++ [v] }
  return v

/-- Declares a variable for a caller that reads its name, kind and bounds itself: the name is the
one that `given` reads, or an automatic one, which `ofName` makes the caller's; `make` reads the
rest; and `on` carries out the registration. -/
def declareFor {m : Type → Type} {ν : Type} [Monad m] [MonadStateOf (Builder K L) m]
    (on : BuilderM K L (Variable K) → m (Variable K)) (given : Option (m ν))
    (ofName : VariableName → m ν) (make : ν → m (Variable K)) : m (ν × Variable K) := do
  let name ← match given with
    | some read => read
    | none => do ofName (← nameFor (K := K) (L := L) none)
  let v ← make name
  return (name, ← on (register v))

variable [Scalar K]

/-- Declares a variable of a kind, with a name or an automatic one, and bounds. -/
def declare (kind : VariableKind) (name : Option VariableName) (lower upper : Option K) :
    BuilderM K L (Variable K) := do
  let name ← nameFor (K := K) (L := L) name
  match Variable.declare name kind lower upper with
  | .ok v => register v
  | .error e => throw (.bounds e)

/-- Registers a constraint, relabelled by `labelFor`. -/
def addConstraint (c : Constraint K L) (explicit : Option L) :
    BuilderM K L (Constraint K L) := do
  let c := (← get).relabel c explicit
  pushConstraint c
  return c

/-- The expression that an operand stands for. -/
def expressionOf (operand : Operand K) : BuilderM K L (Expression K) :=
  match operand.toExpression with
  | .ok e => return e
  | .error e => throw (.operand e)

/-- Relates two operands and registers the constraint. -/
def relate (left right : Operand K) (relationship : Relationship) (explicit : Option L) :
    BuilderM K L (Constraint K L) := do
  let l ← expressionOf left
  let r ← expressionOf right
  addConstraint ⟨l, r, relationship, none⟩ explicit

/-- Replaces the objective, and returns the new one with the one it replaces. -/
def setObjective (operand : Operand K) (goal : Goal) :
    BuilderM K L (Objective K × Option (Objective K)) := do
  let o : Objective K := ⟨← expressionOf operand, goal⟩
  modifyGet fun b => ((o, b.objective), { b with objective := some o })

/-- The problem that a builder describes. What is missing is reported first, in the order
variables, constraints, objective, solver. -/
def compile {σ : Type} (b : Builder K L) (solver : Option σ) :
    Except (BuildError K L) (Problem K L × σ) := do
  if b.vars.isEmpty then throw (.missing .vars)
  if b.constraints.isEmpty then throw (.missing .constraints)
  match b.objective, solver with
  | none, _ => throw (.missing .objective)
  | some _, none => throw (.missing .solver)
  | some objective, some solver =>
    let constraints ← (b.constraints.mapM fun c => compileConstraint b.names c none).mapError
      .compile
    let objective ← (compileObjective b.names objective).mapError .compile
    return (⟨b.vars.map compileVariable, constraints, objective⟩, solver)

/-- What a builder is compiled for. -/
structure Settings (K : Type) where
  solver : Option Solver
  tolerance : K

/-- The model that a builder describes, for its solver. -/
def build (b : Builder K L) (settings : Settings K) :
    Except (BuildError K L) (CompiledModel K L) := do
  let (problem, solver) ← b.compile settings.solver
  return { problem with solver := solver, tolerance := settings.tolerance }

/-- The text of a builder. -/
def describe [Numerals K] (b : Builder K L) : String :=
  "ModelBuilder(variables=" ++ toString b.vars.length ++ ", constraints="
    ++ toString b.constraints.length ++ ", objective="
    ++ (b.objective.map Objective.describe).getD "None" ++ ")"

end Builder
end LinModel
