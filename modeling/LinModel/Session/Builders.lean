import LinModel.Builder.Reformulation
import LinModel.Session.Compiling

/-!
# Builders in a session

A session's builder runs the programs over a builder's state and keeps, beside the state, the
objects that stand for what is registered, so that a registered variable or constraint is found
again as the same object. A constraint or objective whose fields were changed after it was
registered counts as what it then says.

Key definitions: `OnBuilder`, `runBuilder`, `declareOn`, `registerOn`, `relateOn`,
`setObjectiveOn`, `reformulationSteps`, `buildModel`.
-/
namespace LinModel.Session

/-- The builder at a place. -/
def fetchBuilder (place : Nat) : Script BuilderObject := do
  match ← fetch place with
  | .builder b => return b
  | _ => fault .operation ""

/-- Puts back a builder's state; objects of variables that are no longer registered are let go. -/
def storeState (place : Nat) (state : Builder Float Value) : Script Unit := do
  let b ← fetchBuilder place
  replace place (.builder { b with
    state := state
    vars := b.vars.filter fun (name, _) => state.names.contains name })

/-- Programs about one builder of a session. -/
abbrev OnBuilder := ReaderT Nat Script

instance : MonadStateOf (Builder Float Value) OnBuilder where
  get := fun place => do return (← fetchBuilder place).state
  set state := fun place => storeState place state
  modifyGet f := fun place => do
    let (a, state) := f (← fetchBuilder place).state
    storeState place state
    return a

/-- Fails as an operation on a builder failed. -/
def failBuilder {α : Type} (e : BuilderError Float) : Script α :=
  match e with
  | .bounds e => fail .value (e.message Numerals.plain ("", ""))
  | .duplicateName name =>
    failWith .duplicateName (duplicateNameMessage name) [("name", .ofText name.text)]
  | .operand e => failOperand e

/-- Runs a program on a builder's state; a failing one keeps the state it has reached. -/
def runBuilder {α : Type} (place : Nat) (program : BuilderM Float Value α) : Script α := do
  let (result, state) := program.run (← fetchBuilder place).state
  storeState place state
  match result with
  | .ok a => return a
  | .error e => failBuilder e

/-! ### Variables -/

/-- Declares a variable on a builder. -/
def declareOn (place : Nat) (kind name lower upper : Value) : Script Value := do
  let given : Option (OnBuilder NamedValue) := match name with
    | .none => none
    | v => some (do toName v)
  let declared : OnBuilder (NamedValue × Variable Float) :=
    Builder.declareFor (L := Value) (fun program place => runBuilder place program) given
      (fun n => do toName (.ofName n)) fun name => do
        let k ← toKind kind
        declareVariable name.name k lower upper
  let (name, v) ← declared place
  let object ← newExpression (.variable v) [(name.name, name.identity)]
  let b ← fetchBuilder place
  replace place (.builder { b with vars := b.vars.put v.name object })
  return object

/-- Declares a numeric variable on a builder. -/
def declareNumeric (place : Nat) (name lower upper : Value) : Script Value :=
  declareOn place (.member (.kind .numeric)) name lower upper

/-- The registered variable of a name. -/
def variableOn (place : Nat) (name : Value) : Script Value := do
  let b ← fetchBuilder place
  match b.state.variable (← written name) with
  | .ok v => return (b.vars.find? v.name).getD .none
  | .error e => failUnknown e.name ""

/-! ### Constraints and objectives -/

/-- Registers a constraint; a relabelled one is a new object. -/
def registerOn (place : Nat) (c explicit : Value) : Script Value := do
  match c with
  | .object .constraint at_ => match ← fetch at_ with
    | .constraint object =>
      let b ← fetchBuilder place
      let nothing := Constraint.mk (L := Value) Expression.empty Expression.empty .eq
        (toLabel object.label)
      let content := ((← get).constraint? c).getD nothing
      let registered ← match b.state.labelFor content (toLabel explicit) with
        | some label => makeConstraint object.left object.right object.relationship label
        | none => pure c
      let _ ← runBuilder place (Builder.addConstraint content (toLabel explicit))
      let b ← fetchBuilder place
      replace place (.builder { b with constraints := b.constraints ++ [registered] })
      return registered
    | _ => fault .operation ""
  | _ => fail .type ("Expected a Constraint, got " ++ c.typeName
      ++ ". Relational operators only build constraints between expressions.")

/-- Relates two values and registers the constraint. -/
def relateOn (place : Nat) (left right relationship explicit : Value) : Script Value := do
  registerOn place (← makeConstraint left right relationship .none) explicit

/-- Sets the objective, with a warning if there was one. -/
def setObjectiveOn (place : Nat) (expression goal : Value) : Script Value := do
  let o ← makeObjective expression goal
  if let some old := (← fetchBuilder place).objective then
    warn .objectiveReplaced
      ("Replacing objective " ++ (← inserted old) ++ " with " ++ (← inserted o))
  let content := ((← get).objective? o).getD ⟨Expression.empty, .min⟩
  let _ ← runBuilder place
    (Builder.setObjective (.expression content.expression) content.goal)
  let b ← fetchBuilder place
  replace place (.builder { b with objective := some o })
  return o

/-- The steps of reformulations on a session's builder. -/
def reformulationSteps (place : Nat) : Reformulation.Steps Script Value Value Value Value where
  declare nonNegative :=
    declareNumeric place .none (if nonNegative then .ofInt 0 else .none) .none
  ofVariable v := v
  add := addValues
  sub := subValues
  relate left right relationship :=
    relateOn place left right (.member (.relationship relationship)) .none
  optimize e goal := setObjectiveOn place e (.member (.goal goal))

/-! ### Building -/

/-- Fails because a part of a model is missing. -/
def failMissingPart {α : Type} (part : MissingPart) : Script α :=
  failWith (.incomplete part) part.message [("reason", .member (.missing part))]

/-- A builder's state with its constraints and objective as they are now, if all of them are of
expressions. -/
def Store.currentState? (s : Store) (b : BuilderObject) : Option (Builder Float Value) := do
  let constraints ← b.constraints.mapM s.constraint?
  let objective ← match b.objective with
    | some o => some <$> s.objective? o
    | none => some none
  return { b.state with constraints := constraints, objective := objective }

section Building

variable [Calling]

/-- The solver that a builder's settings name; not asked for while the model lacks a part. -/
def chosenSolver (b : BuilderObject) : Script (Option Value) := do
  if b.state.vars.isEmpty || b.constraints.isEmpty || b.objective.isNone then return none
  return toLabel (← read (← read b.settings "solver") "solver")

/-- The compiled constraints and objective of a builder, part by part. -/
def compileParts (b : BuilderObject) (objective : Value) : Script (List Value × Value) := do
  let known := Value.ofTuple (b.vars.map fun (name, _) => .ofName name)
  let constraints ← b.constraints.mapM fun c => compileConstraintValue c known .none
  return (constraints, ← compileObjectiveValue objective known)

/-- The model that a builder describes, with its settings. -/
def buildModel (place : Nat) : Script Value := do
  let b ← fetchBuilder place
  let chosen ← chosenSolver b
  let s ← get
  let (constraints, objective) ←
    match (s.currentState? b).getD b.state |>.compile chosen, s.currentState? b, b.objective with
    | .error (.missing part), _, _ => failMissingPart part
    | .error (.compile e), some _, _ => failCompile e
    | .ok (problem, _), some _, _ => do
      let constraints ← (problem.constraints.zip b.constraints).mapM fun (c, v) =>
        ofCompiledConstraint c (s.partIdentities v)
      let o := b.objective.getD .none
      let objective ← ofCompiledObjective problem.objective (s.partIdentities o)
        (← offsetIdentity o)
      pure (constraints, objective)
    | _, none, some o => compileParts b o
    | _, none, none => failMissingPart .objective
  let vars ← b.vars.mapM fun (_, v) => compileVariableValue v
  let solver ← toSolver (chosen.getD .none)
  let settings ← read b.settings "solver"
  makeCompiledModel (.ofTuple vars) (.ofTuple constraints) objective (.member (.solver solver))
    (← read settings "tolerance") (← read settings "solver_args") (← read settings "verbose")

/-- Chooses the solver of a builder. -/
def chooseSolver (place : Nat) (solver : Value) : Script Unit := do
  let solver ← toSolver solver
  write (← read (← fetchBuilder place).settings "solver") "solver" (.member (.solver solver))

/-- Changes the tolerance of a builder. -/
def changeTolerance (place : Nat) (tolerance : Value) : Script Unit := do
  let x ← match tolerance with
    | .real .. => pure tolerance
    | v => do stamp (.ofReal (← toDouble v))
  write (← read (← fetchBuilder place).settings "solver") "tolerance" x

end Building

end LinModel.Session
