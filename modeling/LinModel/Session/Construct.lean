import LinModel.Session.Access

/-!
# Making objects by class

What a session makes of a class name and arguments. Arguments that do not fit a class are a fault
of the caller; what happens while the object is made belongs to the class. Making something of a
closed set looks up the member that a value stands for. Failures can be made as objects too, which
keep the arguments they show.

Key definitions: `constructSymbolic?`, `constructCompiled?`, `constructSolving?`,
`constructMember?`, `constructError?`, `construct`.
-/
namespace LinModel.Session

/-- Makes an object of a class from named arguments. -/
def makeFrom (className : String) (parameters : List Parameter) (arguments : Arguments)
    (body : (String → Value) → Script Value) : Script Value :=
  (takes className "__init__" parameters body).run arguments

/-- A parameter whose default is a new empty mapping. -/
def optionalDict (name : String) : Script Parameter := do return optional name (← newDict [])

/-- A name made of a text; a name is no text. -/
def makeName (v : Value) : Script Value := do
  match v with
  | .name .. => fail .value ("Variable name must be a non-empty string, got " ++ (← shown v))
  | v => return (← toName v).toValue

/-- A new builder, with default settings if none are given. -/
def newBuilder (settings : Value) : Script Value := do
  let settings ← match settings with
    | .none => do makeConfig (← defaultSolverConfig) (← defaultDevConfig)
    | v => pure v
  alloc (.builder ⟨settings, Builder.empty, [], [], none⟩)

section Classes

variable [Calling]

/-- Makes a part of a symbolic model, if the class is one. -/
def constructSymbolic? (className : String) (arguments : Arguments) : Option (Script Value) :=
  let make := fun parameters body => some (makeFrom className parameters arguments body)
  match className with
  | "Expression" => make [] fun _ => alloc .blank
  | "LinearExpression" =>
    make [optional "coefficients" .none, optional "constant" (.ofReal 0.0)] fun a =>
      makeLinear (a "coefficients") (a "constant")
  | "Parameter" => make [required "name", required "coefficient"] fun a =>
      makeTerm (a "name") (a "coefficient")
  | "Variable" =>
    make (required "name" :: optional "kind" (.member (.kind .numeric)) :: boundParameters)
      fun a => makeVariable (a "name") (a "kind") (a "lower_bound") (a "upper_bound")
  | "VariableName" => make [required "value"] fun a => makeName (a "value")
  | "Constraint" =>
    make [required "left", required "right", required "relationship", optional "name" .none]
      fun a => makeConstraint (a "left") (a "right") (a "relationship") (a "name")
  | "Objective" => make [required "expression", required "goal"] fun a =>
      makeObjective (a "expression") (a "goal")
  | "NamedTensor" =>
    make [required "dimensions", optional "values" .none, optional "default_value_provider" .none,
      optional "wildcard" .none] fun a =>
      makeTensor (a "dimensions") (a "values") (a "default_value_provider") (a "wildcard")
  | "Selector" => make [optional "key" .none, optional "is_any" (.truth false)] fun a =>
      return .selector (a "key") (a "is_any") .shared
  | "ModelBuilder" => make [optional "settings" .none] fun a => newBuilder (a "settings")
  | _ => none

/-- Makes a part of a compiled model, or settings, if the class is one. -/
def constructCompiled? (className : String) (arguments : Arguments) : Option (Script Value) :=
  let make := fun parameters body => some (makeFrom className parameters arguments body)
  match className with
  | "CompiledVariable" =>
    let names := PartClass.variable.fields
    make (names.map required) fun a => newPart .variable (names.map a)
  | "CompiledConstraint" => make (PartClass.constraint.fields.map required) fun a =>
      makeCompiledConstraint (a "name") (a "coefficients") (a "lower_bound") (a "upper_bound")
  | "CompiledObjective" =>
    make [required "coefficients", required "goal", optional "offset" (.ofReal 0.0)] fun a =>
      makeCompiledObjective (a "coefficients") (a "goal") (a "offset")
  | "CompiledModel" => some do
    let parameters := [required "variables", required "constraints", required "objective",
      required "solver", optional "tolerance" (.ofReal 1e-7), ← optionalDict "solver_args",
      optional "verbose" (.truth false)]
    makeFrom className parameters arguments fun a =>
      makeCompiledModel (a "variables") (a "constraints") (a "objective") (a "solver")
        (a "tolerance") (a "solver_args") (a "verbose")
  | "Config" => some do
    let parameters :=
      [optional "solver" (← defaultSolverConfig), optional "dev" (← defaultDevConfig)]
    makeFrom className parameters arguments fun a => makeConfig (a "solver") (a "dev")
  | "SolverConfig" =>
    make [optional "solver" .none, optional "tolerance" (.ofReal 1e-7),
      optional "solver_args" .none, optional "verbose" (.truth false)] fun a =>
      makeSolverConfig (a "solver") (a "tolerance") (a "solver_args") (a "verbose")
  | "DevConfig" => make [optional "printing" (.truth false)] fun a =>
      makeDevConfig (a "printing")
  | _ => none

/-- Makes a solution, a report, a backend or a lowerer, if the class is one. -/
def constructSolving? (className : String) (arguments : Arguments) : Option (Script Value) :=
  let make := fun parameters body => some (makeFrom className parameters arguments body)
  match className with
  | "Solution" => some do
    let parameters := [required "status", optional "objective_value" .none,
      ← optionalDict "values", ← optionalDict "dual_values", optional "model" .none]
    makeFrom className parameters arguments fun a =>
      makeSolution (a "status") (a "objective_value") (a "values") (a "dual_values") (a "model")
  | "Violations" => some do
    let parameters := [← optionalDict "constraints", ← optionalDict "bounds",
      ← optionalDict "integrality", optional "max_violation" (.ofReal 0.0),
      optional "tolerance" (.ofReal 0.0)]
    makeFrom className parameters arguments fun a =>
      newRecord .violations (parameters.map fun p => (p.name, a p.name))
  | "Backend" => some (fault .type
      "Can't instantiate abstract class Backend with abstract method solve")
  | "CvxpyBackend" => make [] fun _ => alloc (.backend .none)
  | "FixedBackend" =>
    let parameters := [required "status", required "values", optional "objective_value" .none,
      optional "attach_model" (.truth true), optional "dual_values" .none]
    make parameters fun a =>
      newRecord .fixedBackend
        ((parameters.map fun p => (p.name, a p.name)) ++ [("model", .none)])
  | "JaxLowerer" => make [required "variable_order"] fun a => makeLowerer (a "variable_order")
  | "CvxpyLowerer" => make [optional "variable_map" .none] fun a => do
      let map ← if ← truth (a "variable_map") then pure (a "variable_map") else newDict []
      alloc (.programLowerer map)
  | _ => none

end Classes

/-- What a new set may be given by name besides its members. -/
def setOptions : List String := ["module", "qualname", "type", "start", "boundary"]

/-- Looks up a member of a closed set, if the class is one. Given members as well, the value would
be the name of a new set beyond this one, which cannot be. -/
def constructMember? (className : String) (arguments : Arguments) : Option (Script Value) :=
  let members := Member.all.filter fun m => m.setName == className
  let own := { arguments with
    named := arguments.named.filter fun (name, _) => !setOptions.contains name }
  if members.isEmpty then none
  else some (makeFrom className [required "value", optional "names" .none] own fun a => do
    if (toLabel (a "names")).isSome then
      fail .type ("<enum " ++ (← shown (a "value")) ++ "> cannot extend <enum '" ++ className
        ++ "'>")
    return .member (← toMember className (members.map fun m => (m, m)) (a "value")))

/-! ### Failures as objects -/

/-- Makes the failure for a missing part; an empty message is replaced by the part's own. -/
def newIncomplete (part : Option MissingPart) (message : Value) : Script Value := do
  let message ← if ← truth message then pure message
    else match part with
      | some p => pure (.ofText p.message)
      | none => noAttribute .none "value"
  alloc (.error (.incomplete part) [message] [])

/-- Makes the failure for a name that is not known, in a context that may be left out. -/
def newUnknown (name context : Value) : Script Value := do
  let place ← if ← truth context then inserted context else pure ""
  let message := unknownVariableMessage (← inserted name) place
  alloc (.error .unknownVariable [.ofText message] [("name", name)])

/-- Makes a failure, if the class is one of failures. -/
def constructError? (className : String) (arguments : Arguments) : Option (Script Value) :=
  let make := fun parameters body => some (makeFrom className parameters arguments body)
  let incomplete := fun part => make [optional "message" .none] fun a =>
    newIncomplete part (a "message")
  let refused := fun c => make
    [required "message", optional "key" .none, optional "dimension" .none] fun a =>
    alloc (.error c [a "message"] [("key", a "key"), ("dimension", a "dimension")])
  match className with
  | "IncompleteModelError" => incomplete none
  | "NoVariablesError" => incomplete (some .vars)
  | "NoConstraintsError" => incomplete (some .constraints)
  | "NoObjectiveError" => incomplete (some .objective)
  | "NoSolverError" => incomplete (some .solver)
  | "UnknownVariableError" => make [required "name", optional "context" (.ofText "")] fun a =>
      newUnknown (a "name") (a "context")
  | "InvalidKeyError" => refused .invalidKey
  | "AllDimensionsCollapsedError" => refused .allCollapsed
  | _ => none

/-- Makes an object of a class. -/
def construct [Calling] (className : String) (arguments : Arguments) : Script Value :=
  let makers := [constructSymbolic?, constructCompiled?, constructSolving?, constructMember?,
    constructError?]
  (makers.findSome? fun maker => maker className arguments).getD
    (fault .operation ("no class '" ++ className ++ "'"))

end LinModel.Session
