import LinModel.Session.Programs

/-!
# Methods

The operations of objects that can be called by name, class by class: what each takes and what it
does. A call that does not fit the formals is a fault of the caller; what happens inside a method
is the method's own.

Key definitions: `Method`, `Method.run`, `methodsOf`.
-/
namespace LinModel.Session

/-- What a method takes: named arguments, or any number of values. -/
inductive Formals
  | named (parameters : List Parameter)
  | several

/-- A method: the class that has it, what it takes, and what it does with the arguments, which it
gets by name and in order. -/
structure Method where
  owner : String
  name : String
  formals : Formals
  body : (String → Value) → List Value → Script Value

/-- Calls a method. -/
def Method.run (m : Method) (arguments : Arguments) : Script Value := do
  let title := m.owner ++ "." ++ m.name
  match m.formals with
  | .named parameters =>
    let argument ← bindArguments title 1 parameters arguments
    inside (m.body argument [])
  | .several =>
    let values ← positionalOnly title arguments
    inside (m.body (fun _ => .none) values)

/-- A method with named arguments. -/
def takes (owner name : String) (parameters : List Parameter)
    (body : (String → Value) → Script Value) : Method :=
  ⟨owner, name, .named parameters, fun argument _ => body argument⟩

/-- A method with one argument. -/
def takesOne (owner name parameter : String) (body : Value → Script Value) : Method :=
  takes owner name [required parameter] fun argument => body (argument parameter)

/-- A method without arguments. -/
def takesNothing (owner name : String) (body : Script Value) : Method :=
  takes owner name [] fun _ => body

/-- A method with any number of arguments. -/
def takesSeveral (owner name : String) (body : List Value → Script Value) : Method :=
  ⟨owner, name, .several, fun _ values => body values⟩

section Tables

variable [Calling]

/-! ### Expressions, constraints and tensors -/

/-- The names of an expression. -/
def expressionNames (v : Value) : Script Value := do
  let names := (← toExpression v).names
  let ids := (← get).identities v
  return .ofTuple (names.map fun n => .name n ((ids.find? n).getD .shared))

/-- The methods of expressions. -/
def expressionMethods (on : Value) : List Method :=
  let relation := fun (name : String) (r : Relationship) =>
    takesOne "Expression" name "other" fun other => newRelation on other r
  [relation "le" .le, relation "ge" .ge, relation "eq" .eq,
    takesOne "Expression" "evaluate" "values" (evaluateValue on),
    takesNothing "Expression" "variables" (expressionNames on)]

/-- The methods of constraints. -/
def constraintMethods (on : Value) : List Method :=
  [takesOne "Constraint" "named" "name" fun label => do
      makeConstraint (← read on "left") (← read on "right") (← read on "relationship") label,
    takesNothing "Constraint" "normalized" do
      subValues (← read on "left") (← read on "right")]

/-- The selector of a key. -/
def exactMethod : Method :=
  takesOne "Selector" "exact" "key" fun key => return .selector key (.truth false) .shared

/-- Making a tensor with a provider. -/
def generateMethod : Method :=
  takes "NamedTensor" "from_provider"
    [required "dimensions", required "value_provider", optional "default_value_provider" .none,
      optional "wildcard" .none] fun argument =>
    generateTensor (argument "dimensions") (argument "value_provider")
      (argument "default_value_provider") (argument "wildcard")

/-- The tensor at a place, with its provider of missing values. -/
def fetchTensor (on : Value) : Script (ValueTensor × Value) := do
  match (← get).object? on with
  | some (.tensor t provider) => return (t, provider)
  | _ => fault .operation ""

/-- The methods of tensors. -/
def tensorMethods (on : Value) : List Method :=
  [takesSeveral "NamedTensor" "get" fun keys => do getFromTensor (← fetchTensor on).1 keys,
    takesSeveral "NamedTensor" "sub_tensor" fun selectors => do
      let (t, provider) ← fetchTensor on
      narrowTensor t provider selectors,
    takesNothing "NamedTensor" "items" do
      let entries := (← fetchTensor on).1.items
      alloc (.iterator (entries.map fun (keys, v) => .ofTuple [.ofTuple keys, v])),
    generateMethod]

/-! ### Builders -/

/-- The parameters of a variable's bounds. -/
def boundParameters : List Parameter := [optional "lower_bound" .none, optional "upper_bound" .none]

/-- The methods that declare variables on the builder at a place. -/
def declaringMethods (place : Nat) : List Method :=
  let method := takes "ModelBuilder"
  let kindValue := fun kind : VariableKind => Value.member (.kind kind)
  let single := fun (name : String) (kind : VariableKind) (parameters : List Parameter) =>
    method name (optional "name" .none :: parameters) fun a =>
      declareOn place (kindValue kind) (a "name") (a "lower_bound") (a "upper_bound")
  let family := fun (kind : VariableKind) (a : String → Value) (keys : Value) =>
    declareFamily place keys (a "name_prefix") fun name =>
      declareOn place (kindValue kind) (.ofText name) (a "lower_bound") (a "upper_bound")
  let tensorFamily := fun (name : String) (kind : VariableKind) (parameters : List Parameter) =>
    method name (required "tensor_keys" :: optional "name_prefix" .none :: parameters) fun a =>
      family kind a (a "tensor_keys")
  let vectorFamily := fun (name : String) (kind : VariableKind) (parameters : List Parameter) =>
    method name (required "keys" :: optional "name_prefix" .none :: parameters) fun a => do
      family kind a (← newList [a "keys"])
  [single "num_var" .numeric boundParameters, single "int_var" .integer boundParameters,
    single "bool_var" .boolean [],
    method "add_variable" (optional "kind" (kindValue .numeric) :: optional "name" .none
      :: boundParameters) fun a =>
      declareOn place (a "kind") (a "name") (a "lower_bound") (a "upper_bound"),
    tensorFamily "tensor_num_var" .numeric boundParameters,
    tensorFamily "tensor_int_var" .integer boundParameters,
    tensorFamily "tensor_bool_var" .boolean [],
    vectorFamily "vector_num_var" .numeric boundParameters,
    vectorFamily "vector_int_var" .integer boundParameters,
    vectorFamily "vector_bool_var" .boolean [],
    method "tensor_var" [required "tensor_keys", required "variable_provider",
      optional "name_prefix" .none] fun a =>
      declareFamily place (a "tensor_keys") (a "name_prefix") fun name =>
        callWith (a "variable_provider") [.ofText name]]

/-- The methods that register relations on the builder at a place. -/
def relatingMethods (place : Nat) : List Method :=
  let method := takes "ModelBuilder"
  let several := takesSeveral "ModelBuilder"
  let relation := fun (name : String) (r : Relationship) =>
    method name [required "left", required "right", optional "name" .none] fun a =>
      relateOn place (a "left") (a "right") (.member (.relationship r)) (a "name")
  let steps := reformulationSteps place
  [relation "le" .le, relation "ge" .ge, relation "eq" .eq,
    method "relate" [required "left", required "right", required "relationship",
      optional "name" .none] fun a =>
      relateOn place (a "left") (a "right") (a "relationship") (a "name"),
    method "add_constraint" [required "constraint", optional "name" .none] fun a =>
      registerOn place (a "constraint") (a "name"),
    several "max_var" fun vs => do
      let (v, cs) ← Reformulation.largest steps vs
      return .ofTuple [v, ← newList cs],
    several "min_var" fun vs => do
      let (v, cs) ← Reformulation.smallest steps vs
      return .ofTuple [v, ← newList cs],
    takesOne "ModelBuilder" "abs_var" "expression" fun e => do
      let ((positive, negative), c, deviation) ← Reformulation.absolute steps e
      return .ofTuple [.ofTuple [positive, negative], c, deviation],
    several "maxmin" fun vs => do
      let (o, v, cs) ← Reformulation.maximizeSmallest steps vs
      return .ofTuple [o, v, ← newList cs],
    several "minmax" fun vs => do
      let (o, v, cs) ← Reformulation.minimizeLargest steps vs
      return .ofTuple [o, v, ← newList cs]]

/-- The methods of the builder at a place. -/
def builderMethods (place : Nat) : List Method :=
  let one := takesOne "ModelBuilder"
  let on := Value.object .builder place
  declaringMethods place ++ relatingMethods place ++
  [one "variable" "name" (variableOn place),
    one "constraint" "name" fun label => alloc (.block on label),
    takes "ModelBuilder" "set_objective" [required "expression", required "goal"] fun a =>
      setObjectiveOn place (a "expression") (a "goal"),
    one "minimize" "expression" fun e => setObjectiveOn place e (.member (.goal .min)),
    one "maximize" "expression" fun e => setObjectiveOn place e (.member (.goal .max)),
    one "solver" "solver" fun v => do
      chooseSolver place v
      return on,
    takesNothing "ModelBuilder" "build" (buildModel place)]

/-! ### Models, solutions and solving -/

/-- The methods of compiled models. -/
def modelMethods (on : Value) : List Method :=
  [takesOne "CompiledModel" "variable" "name" (modelVariable on),
    takesNothing "CompiledModel" "named_constraints" (namedConstraints on)]

/-- The methods of records. -/
def recordMethods (c : RecordClass) (on : Value) : List Method :=
  match c with
  | .solution => [takesOne "Solution" "value" "expression" (valueInSolution on),
      takes "Solution" "verify" [optional "tolerance" .none] fun a =>
        verifySolution on (a "tolerance")]
  | .denseModel => [takesOne "LoweredJaxModel" "vector" "values" fun values => do
      let order ← (← iterate (← read on "variable_order")).mapM written
      newVector (← assignmentVector order values)]
  | .program => [takesNothing "LoweredCvxpyModel" "problem" (problemOf on)]
  | .fixedBackend => [takesOne "FixedBackend" "solve" "model" fun model =>
      outside (answerFixed on model)]
  | _ => []

/-- The methods of lowerers to dense rows. -/
def denseLowererMethods (on : Value) : List Method :=
  let lowering := fun (name : String) (lower : NameOrder → Value → Script Measure) =>
    takesOne "JaxLowerer" name "node" fun node => do
      alloc (.callable (.measure (← lower (← orderOf on) node)))
  [lowering "lower" lowerToMeasure, lowering "visit_linear_expression" lowerForm,
    lowering "visit_compiled_constraint" lowerRange,
    lowering "visit_compiled_objective" lowerObjectiveForm,
    takesOne "JaxLowerer" "index" "name" fun name => do
      return .ofInt (← denseIndex (← orderOf on) name),
    takesOne "JaxLowerer" "row" "coefficients" fun coefficients => do
      let row ← denseRowOf (← orderOf on) coefficients
      alloc (.array (.ofDoubles false [row.length] row))]

/-- The methods of lowerers to programs. -/
def programLowererMethods (on : Value) : List Method :=
  let lowering := fun (name : String) (lower : Value → Value → Script Value) =>
    takesOne "CvxpyLowerer" name "node" fun node => do lower (← read on "variable_map") node
  [lowering "lower" lowerProgramPart,
    lowering "visit_variable" fun map node => do lookUpName map (← read node "name"),
    lowering "visit_parameter" lowerProgramTerm,
    lowering "visit_linear_expression" lowerProgramForm,
    lowering "visit_compiled_constraint" fun map node => do
      newList (← constraintRelations map node),
    lowering "visit_compiled_objective" lowerProgramObjective,
    takes "CvxpyLowerer" "register_variable" [required "name", required "cvx_var"] fun a => do
      writeItem (← read on "variable_map") (a "name") (a "cvx_var")
      return .none]

/-- The methods of mappings. -/
def mappingMethods (title : String) (on : Value) : List Method :=
  let entries : Script (Entries Value Value) := do return ((← get).entries? on).getD []
  [takesNothing title "items" do
      let items := (← entries).map fun (k, v) => Value.ofTuple [k, v]
      alloc (.listing "dict_items" items),
    takesNothing title "keys" do alloc (.listing "dict_keys" (List.map Prod.fst (← entries))),
    takesNothing title "values" do alloc (.listing "dict_values" (List.map Prod.snd (← entries))),
    takes title "get" [required "key", optional "default" .none] fun a => do
      let entries ← entries
      requireKeyAmong (List.map Prod.fst entries) (a "key")
      return (Entries.find? (a "key") entries).getD (a "default")]

/-! ### All of them -/

/-- The methods of a value. -/
def methodsOf (on : Value) : List Method :=
  match on with
  | .selector .. => [exactMethod]
  | .part .model _ _ => modelMethods on
  | .object c place => match c with
    | .variable | .parameter | .linear | .blank => expressionMethods on
    | .constraint => constraintMethods on
    | .tensor => tensorMethods on
    | .builder => builderMethods place
    | .record c => recordMethods c on
    | .denseLowerer => denseLowererMethods on
    | .programLowerer => programLowererMethods on
    | .backend => [takesOne "CvxpyBackend" "solve" "model" (solveModel place)]
    | .dict => mappingMethods "dict" on
    | .view => mappingMethods "mappingproxy" on
    | _ => []
  | _ => []

/-- The method of a value with a name, if there is one. -/
def method? (on : Value) (name : String) : Option Method :=
  (methodsOf on).find? (·.name == name)

end Tables

end LinModel.Session
