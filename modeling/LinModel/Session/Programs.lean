import LinModel.Session.Solutions
import LinModel.Solving.Optimize
import LinModel.Solving.Outcome

/-!
# Programs and backends in a session

Programs for a solver over a session's program variables, and the backends that a session knows:
one that hands a program to an engine, and one with a fixed answer. The engine does not optimise:
with the method "preset" it takes the values, duals and status given to it, and otherwise it
reports that the solver is not installed. A model whose parts are what building makes them is
lowered as a typed problem; any other is asked for its parts one by one.

Key definitions: `lowerProgramPart`, `programOf`, `programRecord`, `runEngine`, `solveModel`,
`answerFixed`, `optimizeBuilder`.
-/
namespace LinModel.Session

variable [Calling]

/-! ### Lowering parts -/

/-- The value that stands for a name in a mapping of program variables. -/
def lookUpName (map name : Value) : Script Value := do
  let text ← written name
  tryCatch (item map (.ofText text)) fun e => do
    if e.kind != .missingKey && e.kind != .unknownVariable then throw e
    fail .value (UnmappedName.message ⟨← inserted name⟩)

/-- The sum of coefficients times the values of their names, and a constant. -/
def affineSum (map coefficients constant : Value) : Script Value := do
  let terms ← (← itemsOf coefficients).mapM fun (name, c) => do
    mulValues c (← lookUpName map name)
  match terms with
  | [] => do newForm (.constant (← reading fun s => s.constantOf constant))
  | first :: rest =>
    let total ← rest.foldlM addValues first
    if ← truth constant then addValues total constant else return total

/-- Whether a value counts as a finite number in an array. -/
def isFiniteNumber (v : Value) : Script Bool := do
  if v.isExpression || v.isForm then
    fault .type ("operand '" ++ v.typeName ++ "' does not support ufuncs (__array_ufunc__=None)")
  match v with
  | .truth _ => return true
  | .real x _ => return x.isFinite
  | .machine n _ => return n.toFloat.isFinite
  | .integer n _ =>
    if -9223372036854775808 ≤ n && n < 18446744073709551616 then return true else refuse
  | .object (.array _) _ => match ((← get).array? v).map NumArray.toDoubles with
    | some [x] => return x.isFinite
    | _ => truth v
  | _ => refuse
where
  /-- Fails for what arrays cannot hold. -/
  refuse {α : Type} : Script α :=
    fault .type ("ufunc 'isfinite' not supported for the input types, and the inputs could not be "
      ++ "safely coerced to any supported types according to the casting rule ''safe''")

/-- The bounds of a value, each if it is finite. -/
def boundValues (form lower upper : Value) : Script (List Value) := do
  let below ← if ← isFiniteNumber lower then pure [← relateValues false form lower] else pure []
  let above ← if ← isFiniteNumber upper then pure [← relateValues true form upper] else pure []
  return below ++ above

/-- The relations of a compiled constraint. -/
def constraintRelations (map node : Value) : Script (List Value) := do
  let activity ← affineSum map (← read node "coefficients") (.ofReal 0.0)
  if ← truth (← read node "is_equality") then
    return [← equateValues activity (← read node "lower_bound")]
  boundValues activity (← read node "lower_bound") (← read node "upper_bound")

/-- The objective of a program with a direction. -/
def newProgramObjective (goal : Value) (expression : Value) : Script Value := do
  let goal := match goal with
    | .member (.goal .max) => Goal.max
    | _ => Goal.min
  alloc (.programObjective ⟨goal, ← reading fun s => s.toForm expression⟩)

/-- Lowers what has a name and a coefficient. -/
def lowerProgramTerm (map node : Value) : Script Value := do
  mulValues (← read node "coefficient") (← lookUpName map (← read node "name"))

/-- Lowers what has coefficients and a constant. -/
def lowerProgramForm (map node : Value) : Script Value := do
  affineSum map (← read node "coefficients") (← read node "constant")

/-- Lowers what has coefficients, an offset and a direction. -/
def lowerProgramObjective (map node : Value) : Script Value := do
  let expression ← affineSum map (← read node "coefficients") (← read node "offset")
  newProgramObjective (← read node "goal") expression

/-- The places of program variables that texts are mapped to. -/
def handles? (s : Store) (map : Value) : Option (Entries String Nat) :=
  match s.object? map with
  | some (.dict entries) => entries.mapM fun
    | (.text name _, .object .programVariable place) => some (name, place)
    | _ => none
  | _ => none

/-- Lowers an expression, a compiled constraint or a compiled objective over the program variables
in a mapping. -/
def lowerProgramPart (map node : Value) : Script Value := do
  let s ← get
  match s.expression? node, handles? s map with
  | some e, some handles =>
    match lowerExpression (Entries.find? · handles) e with
    | .ok form => newForm form
    | .error e => fail .value e.message
  | _, _ => match node with
    | .object .variable _ => lookUpName map (← read node "name")
    | .object .parameter _ => lowerProgramTerm map node
    | .object .linear _ => lowerProgramForm map node
    | .part .constraint _ _ => do newList (← constraintRelations map node)
    | .part .objective _ _ => lowerProgramObjective map node
    | _ => fail .notSupported ("'CvxpyLowerer' has no visitor for " ++ node.typeName)

/-! ### Whole programs -/

/-- A new program variable, by its place. -/
def newProgramVariable (name : String) (isBoolean isInteger : Bool) : Script Nat := do
  match ← alloc (.programVariable name (.truth isBoolean) (.truth isInteger) none) with
  | .object _ place => return place
  | _ => fault .operation ""

/-- New program variables, by their places. -/
def newProgramVariables (vars : List ProgramVariable) : Script (List Nat) :=
  vars.mapM fun v => newProgramVariable v.name v.isBoolean v.isInteger

/-- Fails because the engine cannot take a program. -/
def failProgram {α : Type} : Script α :=
  fail .program "Problem objective must be Minimize or Maximize."

/-- The relations that values are; truth values stand for relations that hold always or never. -/
def toRelations (values : List Value) : Script (List (Relation Nat Float)) :=
  values.mapM fun v => do
    match v, (← get).object? v with
    | .truth b, _ =>
      return if b then ⟨false, .constant 0.0, .constant 1.0⟩
        else ⟨false, .constant 1.0, .constant 0.0⟩
    | _, some (.relation r) => return r
    | _, _ => fail .value ("Problem has an invalid constraint of type " ++ classText v)

/-- The program of a model that is asked for its parts one by one. -/
def programOfParts (model : Value) : Script (Program Nat Float Value) := do
  let vars ← iterate (← read model "variables")
  let made ← vars.mapM fun v => do
    let name ← written (← read v "name")
    match ← read v "kind" with
    | .member (.kind .boolean) =>
      return (name, ← newProgramVariable name true false, ([] : List Value))
    | kind =>
      let isInteger := match kind with
        | .member (.kind .integer) => true
        | _ => false
      let place ← newProgramVariable name false isInteger
      let bounds ← boundValues (.object .programVariable place) (← read v "lower_bound")
        (← read v "upper_bound")
      return (name, place, bounds)
  let handles := Entries.ofList (made.map fun (name, place, _) => (name, place))
  let map ← newDict (handles.map fun (name, place) =>
    (.ofText name, .object .programVariable place))
  let groups ← (← iterate (← read model "constraints")).mapM fun c => do
    let relations ← iterate (← lowerProgramPart map c)
    return (toLabel (← read c "name"), ← toRelations relations)
  let lowered ← lowerProgramPart map (← read model "objective")
  match (← get).object? lowered with
  | some (.programObjective objective) =>
    return ⟨handles, ← toRelations (made.flatMap (·.2.2)), groups, objective⟩
  | _ => failProgram

/-- The failure of a solve. -/
def solveFailure : SolveFailure → Failure
  | .unsupportedKinds solver =>
    ⟨.backend, some (SolveFailure.unsupportedKinds solver).message, [], false⟩
  | .unmapped e => ⟨.value, some e.message, [], false⟩

/-- The program of a model. -/
def programOf (model : Value) : Script (Program Nat Float Value) := do
  match (← get).toProblem? model with
  | some problem =>
    let handles ← newProgramVariables (problem.vars.map (·.programVariable))
    match Program.ofProblem handles problem with
    | .ok program => return program
    | .error e => throw (solveFailure (.unmapped e))
  | none => programOfParts model

/-- A program as a record of objects. -/
def programRecord (p : Program Nat Float Value) : Script Value := do
  let vars ← newDict (p.vars.map fun (name, place) =>
    (.ofText name, .object .programVariable place))
  let bounds ← p.bounds.mapM fun r => alloc (.relation r)
  let groups ← p.groups.mapM fun (label, relations) => do
    return (label, ← relations.mapM fun r => alloc (.relation r))
  let groupValues ← groups.mapM fun (label, relations) => do
    stamp (.ofTuple [ofLabel label, ← newList relations])
  newRecord .program [
    ("variables", vars),
    ("constraints", ← newList (bounds ++ groups.flatMap Prod.snd)),
    ("constraint_groups", ← newList groupValues),
    ("objective", ← alloc (.programObjective p.objective))]

/-- The engine's form of a program, before it has run. -/
def newProblem (objective : ProgramObjective Nat Float) (relations : List (Relation Nat Float)) :
    Script Value := alloc (.problem objective relations .none .none)

/-- The engine's form of a program that a record holds. -/
def problemOf (record : Value) : Script Value := do
  match (← get).object? (← read record "objective") with
  | some (.programObjective objective) =>
    let relations ← match ← read record "constraints" with
      | .none => pure []
      | v => iterate v
    newProblem objective (← toRelations relations)
  | _ => failProgram

/-! ### The engine -/

/-- Gives a program variable a value. -/
def assign (place : Nat) (x : Float) : Script Unit := do
  if let .programVariable name isBoolean isInteger _ := ← fetch place then
    replace place (.programVariable name isBoolean isInteger (some x))

/-- Fails as the engine's own solver failed. -/
def failEngine {α : Type} (solver reason : String) : Script α :=
  fail .backend (engineFailureMessage solver reason)

/-- What the engine leaves behind: its word for how it ended, the objective's value, and duals. -/
structure EngineResult where
  status : Value
  objectiveValue : Float
  duals : List (Option Float)

/-- Keeps the engine's word for how it ended, and the objective's value, with its problem. -/
def keepResult (problem : Nat) (status value : Value) : Script Unit := do
  if let .problem objective relations _ _ := ← fetch problem then
    replace problem (.problem objective relations status value)

/-- Fails with the error that the arguments of the method "preset" ask for, if they do. -/
def raiseGiven (solver : String) (error message : Value) : Script Unit := do
  if !(← truth error) then return
  let text ← written message
  match error with
  | .text "ValueError" _ => fail .value text
  | .text "SolverError" _ | .text "DCPError" _ => failEngine solver text
  | _ => fail .missingKey (← shown error)

/-- Takes an outcome from the arguments of the method "preset": an error to fail with, values for
the variables that occur, duals for the first relations, a status, and the objective's value, which
is computed if it is not given. The status is kept even if the objective has no value. -/
def presetEngine (problem : Nat) (solver : Value) (verbose : Value)
    (argument : String → Value → Value) (p : Program Nat Float Value) : Script EngineResult := do
  let solverName ← inserted solver
  if ← truth verbose then printLine ("preset solver=" ++ solverName)
  raiseGiven solverName (argument "error" .none) (argument "message" (.ofText ""))
  let values ← match argument "values" .none with
    | .none => pure []
    | v => itemsOf v
  for place in (p.objective.expression.handles ++ p.occurring).eraseDups do
    if let .programVariable name _ _ _ := ← fetch place then
      if let some v := Entries.find? (.ofText name) values then assign place (← toDouble v)
  let given ← match argument "duals" .none with
    | .none => pure []
    | v => iterate v
  let duals ← (given.take p.relations.length).mapM fun v => match v with
    | .none => pure none
    | v => some <$> toDouble v
  let status := argument "status" (.ofText "optimal")
  keepResult problem status .none
  let value ← match argument "objective" .none with
    | .none => match (← get).formValue? p.objective.expression with
      | some x => pure (x + 0.0)
      | none => toDouble .none
    | v => toDouble v
  keepResult problem status (← stamp (.ofReal value))
  return ⟨status, value, duals⟩

/-- The arguments of an engine's call by their names, which must be texts and must not repeat the
call's own arguments. -/
def engineArguments (arguments : List (Value × Value)) : Script (Entries String Value) := do
  let own := arguments.findSome? fun (k, _) => match k with
    | .text t _ => if t == "solver" || t == "verbose" then some t else none
    | _ => none
  if let some t := own then
    fault .type ("cvxpy.problems.problem.Problem.solve() got multiple values for keyword argument '"
      ++ t ++ "'")
  arguments.mapM fun (k, v) => match k with
    | .text t _ => return (t, v)
    | _ => fault .type "keywords must be strings"

/-- Runs the engine on a problem with a model's arguments. -/
def runEngine (problem : Nat) (solver verbose : Value) (arguments : List (Value × Value))
    (p : Program Nat Float Value) : Script EngineResult := do
  let named ← engineArguments arguments
  match (named.find? "method").getD .none with
  | .none =>
    let name ← inserted solver
    failEngine name ("The solver " ++ name ++ " is not installed.")
  | .text "preset" _ =>
    outside (presetEngine problem solver verbose (fun name v => (named.find? name).getD v) p)
  | other =>
    requireKey other
    fail .missingKey (← shown other)

/-! ### Backends -/

/-- The label of the constraint with number `i` among those that share a label. -/
def numberedLabel (s : Store) (label : Value) (i : Nat) : Value :=
  .ofText (numberedText (s.insertedOrBlank label) i)

/-- Fails unless the labels of a program's constraints can be told apart. -/
def checkLabels (p : Program Nat Float Value) : Script Unit := do
  let labels := p.groups.filterMap Prod.fst
  labels.forM requireKey
  for label in labels do
    if 1 < labels.count label then
      let _ ← inserted label

/-- An engine's result as an outcome. -/
def toOutcome (p : Program Nat Float Value) (r : EngineResult) : Script (Outcome Nat Float) := do
  requireKey r.status
  let word := match r.status with
    | .none => none
    | .text t _ => some t
    | _ => some ""
  let s ← get
  let isReported := (SolveStatus.ofWord word).hasSolution
    && (readValues (s.programValue? ·) p.vars).isSome
  if isReported then checkLabels p
  return ⟨word, r.objectiveValue, s.programValue?, r.duals⟩

/-- Hands a program to the engine for the backend at a place, which keeps the engine's problem. -/
def engineOutcome (place : Nat) (model : Value) (p : Program Nat Float Value) :
    Script (Outcome Nat Float) := do
  let problem ← newProblem p.objective p.relations
  replace place (.backend problem)
  let solver ← read (← read model "solver") "value"
  let verbose ← read model "verbose"
  let arguments ← toEntries (← read model "solver_args")
  match problem with
  | .object _ at_ => do toOutcome p (← runEngine at_ solver verbose arguments p)
  | _ => fault .operation ""

/-- Fails if a model has variables that its solver does not take. -/
def requireKinds (model : Value) : Script Unit := do
  if ← truth (← read model "is_mixed_integer") then
    let solver ← read model "solver"
    if !(← truth (← read solver "supports_integers")) then
      fail .backend ("Solver " ++ (← inserted (← read solver "value"))
        ++ " does not support integer or boolean variables")

/-- The program of a model that is handed to the engine; one that the engine cannot take is a
failure of the backend. -/
def programForEngine (model : Value) : Script (Program Nat Float Value) :=
  tryCatch (programOfParts model) fun e => do
    if e.kind != .program then throw e
    failEngine (← inserted (← read (← read model "solver") "value")) (e.message.getD "")

/-- Solves a model with the engine, for the backend at a place. -/
def solveModel (place : Nat) (model : Value) : Script Value := do
  let s ← get
  let solver ← match model with
    | .part .model _ _ => read model "solver"
    | _ => pure .none
  let solution ← match s.toProblem? model, solver with
    | some problem, .member (.solver solver) =>
      solveWith solveFailure (numberedLabel s) newProgramVariables (engineOutcome place model)
        solver problem
    | _, _ => do
      requireKinds model
      let p ← programForEngine model
      return ← ofSolution (readOutcome (numberedLabel (← get)) p (← engineOutcome place model p))
  ofSolution solution
where
  /-- A solution of the model as an object. -/
  ofSolution (solution : Solution Float Value) : Script Value := do
    let values ← newAmounts (solution.values.map fun (name, x) => (.ofText name, x))
    let duals ← newAmounts solution.duals
    let objective ← match solution.objectiveValue with
      | some x => stamp (.ofReal x)
      | none => pure .none
    makeSolution (.member (.status solution.status)) objective values duals model

/-- The fixed answer of a backend, which remembers the model it was asked about. -/
def answerFixed (backend model : Value) : Script Value := do
  write backend "model" model
  let status ← read backend "status"
  let objective ← read backend "objective_value"
  let values ← copyEntries (← read backend "values")
  let given ← read backend "dual_values"
  let duals ← if ← truth given then copyEntries given else newDict []
  let attached ← truth (← read backend "attach_model")
  makeSolution status objective values duals (if attached then model else .none)

/-! ### From start to end -/

/-- Builds, solves and verifies the model of a builder, printing if its settings ask for it. -/
def optimizeBuilder (builder backend : Value) : Script Value :=
  Pipeline.run (M := Value) (S := Value)
    { build := callMethod builder "build" []
      summarize := printSummary
      solve := fun model => do
        let backend ← match backend with
          | .none => alloc (.backend .none)
          | v => pure v
        callMethod backend "solve" [model]
      attach := fun model solution => do
        if let .none := ← read solution "model" then write solution "model" model
        return solution
      hasAssignment := fun solution => do
        truth (← read (← read solution "status") "has_solution")
      verify := fun model solution => do
        let _ ← callMethod solution "verify" [← read model "tolerance"]
      tabulate := printTable }
    fun _ => do truth (← read (← read (← read builder "settings") "dev") "printing")

end LinModel.Session
