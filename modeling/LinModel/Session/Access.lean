import LinModel.Session.Methods

/-!
# Attributes, items and calls

What can be read of a value by name or by key, what can be changed, and what happens when a value
is called. An attribute is looked for among what the value computes, then among its fields and the
attributes it was given, then among its methods. What is computed cannot be assigned, and neither
can anything of a value that never changes.

Each of these can lead to any of the others, as a method may ask its arguments for attributes that
are methods again; `callingTo` ties them together to a given depth.

Key definitions: `computed?`, `readAttribute`, `writeAttribute`, `readItem`, `callValue`,
`callingTo`.
-/
namespace LinModel.Session

section Access

variable [Calling]

/-! ### What is computed -/

/-- A computed attribute of an expression. -/
def expressionAttribute? (e : Expression Float) (ids : Entries VariableName Identity) (place : Nat)
    (name : String) : Option Value :=
  let own := fun (v : Value) => some (v.identified (.part (.place place) name))
  let nameValue := fun n : VariableName => Value.name n ((ids.find? n).getD .shared)
  match e, name with
  | .linear _ k, "constant" => own (.ofReal k)
  | _, "constant" => some (.real e.constant (.part .shared name))
  | .variable v, "name" => some (nameValue v.name)
  | .variable v, "kind" => some (.member (.kind v.kind))
  | .variable v, "lower_bound" => own (.ofReal v.lower)
  | .variable v, "upper_bound" => own (.ofReal v.upper)
  | .term n _, "name" => some (nameValue n)
  | .term _ c, "coefficient" => own (.ofReal c)
  | _, _ => none

/-- A tuple of the domains of a tensor's keys. -/
def dimensionsValue (t : ValueTensor) (whole : Identity) : Value :=
  .tuple (t.dimensions.zipIdx.map fun (domain, i) =>
    .tuple domain (.part whole ("dimension " ++ toString i))) (.part whole "dimensions")

/-- A computed attribute of a tensor. -/
def tensorAttribute? (t : ValueTensor) (place : Nat) (name : String) : Option (Script Value) :=
  match name with
  | "dimensions" => some (return dimensionsValue t (.place place))
  | "ndim" => some (return .ofInt t.rank)
  | "shape" => some (return .ofTuple (t.shape.map fun n => .ofInt (n : Nat)))
  | "wildcard" => some (return ofLabel t.wildcard)
  | "values" => some (nestedValues t)
  | _ => none

/-- A computed attribute of a builder. -/
def builderAttribute? (b : BuilderObject) (name : String) : Option (Script Value) :=
  match name with
  | "variables" => some (return .ofTuple (List.map Prod.snd b.vars))
  | "constraints" => some (return .ofTuple b.constraints)
  | "objective" => some (return ofLabel b.objective)
  | "tolerance" => some do read (← read b.settings "solver") "tolerance"
  | _ => none

/-- Whether some item passes a test; items are tested up to the first that does. -/
def someItem (test : Value → Script Bool) : List Value → Script Bool
  | [] => return false
  | v :: rest => do if ← test v then return true else someItem test rest

/-- A computed attribute of a part of a model. -/
def partAttribute? (on : Value) (c : PartClass) (name : String) : Option (Script Value) :=
  match c, name with
  | .constraint, "is_equality" => some do
    equateValues (← read on "lower_bound") (← read on "upper_bound")
  | .model, "variable_names" => some do
    return .ofTuple (← (← iterate (← read on "variables")).mapM (read · "name"))
  | .model, "is_mixed_integer" => some do
    let isDiscrete := fun v => do
      return match ← read v "kind" with
        | .member (.kind .numeric) => false
        | _ => true
    return .truth (← someItem isDiscrete (← iterate (← read on "variables")))
  | _, _ => none

/-- An attribute of a member of a closed set. -/
def memberAttribute? (m : Member) (name : String) : Option Value :=
  match m, name with
  | _, "value" => some (.text m.word (.part .shared m.word))
  | _, "name" => some (.text m.parts.2.1 (.part .shared m.parts.2.1))
  | .solver s, "supports_integers" => some (.truth s.supportsIntegers)
  | .status s, "has_solution" => some (.truth s.hasSolution)
  | _, _ => none

/-- The value of a form as an array of no dimension, if all its variables have one. -/
def formValue (f : Form Nat Float) : Script Value := do
  match (← get).formValue? f with
  | some x => alloc (.array (.ofDoubles false [] [x]))
  | none => return .none

/-- A computed attribute of an object. -/
def objectAttribute? (on : Value) (place : Nat) (o : Object) (name : String) :
    Option (Script Value) :=
  match o, name with
  | .expression e ids, "coefficients" => some (coefficientView e ids place)
  | .expression e ids, _ => (expressionAttribute? e ids place name).map pure
  | .blank, "coefficients" => some failBlank
  | .blank, "constant" => some (return .real 0.0 (.part .shared name))
  | .tensor t _, _ => tensorAttribute? t place name
  | .builder b, _ => builderAttribute? b name
  | .record .solution _, "optimal" => some do
    return .truth (match ← read on "status" with
      | .member (.status .optimal) => true
      | _ => false)
  | .record .violations _, "ok" => some do return .truth (← reportIsClean on)
  | .backend problem, "problem" => some (return problem)
  | .problem _ _ status _, "status" => some (return status)
  | .problem _ _ _ value, "value" => some (return value)
  | .programVariable .., "value" => some (formValue (.handle place))
  | .form f, "value" => some (formValue f)
  | .error _ arguments _, "args" => some (return .tuple arguments (.part (.place place) name))
  | _, _ => none

/-- An attribute that a value computes. -/
def computed? (on : Value) (name : String) : Script (Option (Script Value)) := do
  match on with
  | .name n id =>
    return if name == "value" then some (return .text n.text (.part id name)) else none
  | .selector key isAny _ => return match name with
    | "key" => some (return key)
    | "is_any" => some (return isAny)
    | _ => none
  | .part c _ _ => return (partAttribute? on c name).or ((on.partField? name).map pure)
  | .member m => return (memberAttribute? m name).map pure
  | .object _ place => return objectAttribute? on place (← fetch place) name
  | _ => return none

/-! ### Fields -/

/-- A field of an object that can be assigned. -/
def Object.field? (o : Object) (name : String) : Option Value :=
  match o, name with
  | .constraint c, "left" => some c.left
  | .constraint c, "right" => some c.right
  | .constraint c, "relationship" => some c.relationship
  | .constraint c, "name" => some c.label
  | .objective k, "expression" => some k.expression
  | .objective k, "goal" => some k.goal
  | .tensor _ provider, "default_value_provider" => some provider
  | .builder b, "settings" => some b.settings
  | .record _ fields, _ => fields.find? name
  | .denseLowerer order _, "variable_order" => some order
  | .programLowerer map, "variable_map" => some map
  | .error _ _ fields, _ => fields.find? name
  | _, _ => none

/-- The object with another value in a field. -/
def Object.withField? (o : Object) (name : String) (v : Value) : Option Object :=
  match o, name with
  | .constraint c, "left" => some (.constraint { c with left := v })
  | .constraint c, "right" => some (.constraint { c with right := v })
  | .constraint c, "relationship" => some (.constraint { c with relationship := v })
  | .constraint c, "name" => some (.constraint { c with label := v })
  | .objective k, "expression" => some (.objective { k with expression := v })
  | .objective k, "goal" => some (.objective { k with goal := v })
  | .tensor t _, "default_value_provider" =>
    let fallback := (toLabel v).map (Fallback.ofProvider · t.dimensions)
    some (.tensor { t with fallback := fallback } v)
  | .builder b, "settings" => some (.builder { b with settings := v })
  | .record c fields, _ => if fields.has name then some (.record c (fields.put name v)) else none
  | .denseLowerer _ columns, "variable_order" => some (.denseLowerer v columns)
  | .programLowerer _, "variable_map" => some (.programLowerer v)
  | .error c arguments fields, _ =>
    if fields.has name then some (.error c arguments (fields.put name v)) else none
  | _, _ => none

/-- An attribute that all objects of a class share. -/
def ObjectClass.attribute? (c : ObjectClass) (name : String) : Option Value :=
  match c, name with
  | .error (.incomplete part), "reason" =>
    some ((part.map fun p => Value.member (.missing p)).getD .none)
  | _, _ => none

/-- Whether objects of a class can be given attributes of their own. -/
def ObjectClass.isOpen : ObjectClass → Bool
  | .list | .dict | .view | .listing _ | .array _ | .iterator => false
  | _ => true

/-! ### Attributes -/

/-- The value of an attribute. -/
def readAttribute (on : Value) (name : String) : Script Value := do
  if let some program ← computed? on name then return ← inside program
  let method := fun (_ : Unit) => do
    match method? on name with
    | some _ => stamp (.method on name .shared)
    | none => noAttribute on name
  match on with
  | .object c place =>
    if let some v := (← fetch place).field? name then return v
    if let some v := (← get).attributes.find? (place, name) then return v
    if let some v := c.attribute? name then return v
    method ()
  | _ => method ()

/-- Fails because an attribute cannot be assigned. -/
def failAssignment {α : Type} (on : Value) (name : String) : Script α :=
  fault .operation ("property '" ++ name ++ "' of '" ++ on.typeName ++ "' object has no setter")

/-- Gives an attribute of an object another value. -/
def writeToObject (on : Value) (c : ObjectClass) (place : Nat) (name : String) (v : Value) :
    Script Unit := do
  let o ← fetch place
  match o, name with
  | .builder _, "tolerance" => inside (changeTolerance place v)
  | .error e _ fields, "args" => do
    replace place (.error e (← iterate v) fields)
  | _, _ =>
    if (objectAttribute? on place o name).isSome then failAssignment on name
    match o.withField? name v with
    | some changed => replace place changed
    | none =>
      if c.isOpen then
        modify fun s => { s with attributes := s.attributes.put (place, name) v }
      else noAttribute on name

/-- Gives an attribute of a value another value. -/
def writeAttribute (on : Value) (name : String) (v : Value) : Script Unit := do
  match on with
  | .name .. | .selector .. | .part .. =>
    fail .frozenField ("cannot assign to field " ++ Text.quote name)
  | .object c place => writeToObject on c place name v
  | _ => noAttribute on name

/-! ### Items and calls -/

/-- The item of a form, which has no dimensions, under a key. -/
def formItem (on k : Value) : Script Value := do
  match k with
  | .tuple [] _ => return on
  | .real .. => fail .missingIndex "float is an invalid index type."
  | _ => fail .missingIndex "Too many indices for expression."

/-- The item of a value under a key. -/
def readItem (on k : Value) : Script Value := do
  match on with
  | .tuple items _ => sequenceItem "tuple" items (fun vs => return .ofTuple vs) k
  | .text t _ =>
    let gather := fun vs : List Value => do
      return Value.ofText (String.join (← vs.mapM written))
    sequenceItem "string" (t.toList.map charText) gather k
  | .machine n _ => match k with
    | .tuple [] _ => return on
    | .none => alloc (.array ((NumArray.ofNumber false false n).reshape [1]))
    | _ => fail .missingIndex "invalid index to scalar variable."
  | .object c place => match ← fetch place with
    | .list items => sequenceItem "list" items newList k
    | .dict entries | .view entries => do
      requireKeyAmong (List.map Prod.fst entries) k
      match Entries.find? k entries with
      | some v => return v
      | none => fail .missingKey (← shown k)
    | .tensor t provider => inside (indexTensor t provider k)
    | .array a => arrayItem a k
    | .programVariable .. | .form _ => formItem on k
    | _ => if c = .record .solution then inside (readSolution on k) else notSubscriptable
  | _ => notSubscriptable
where
  /-- Fails for what has no items. -/
  notSubscriptable {α : Type} : Script α :=
    fault .type ("'" ++ on.longTypeName ++ "' object is not subscriptable")

/-- Calls a value. -/
def callValue (f : Value) (arguments : Arguments) : Script Value := do
  match f with
  | .method on name _ => match method? on name with
    | some m => m.run arguments
    | none => noAttribute on name
  | .object .callable place => match ← fetch place, arguments with
    | .callable c, ⟨[argument], []⟩ => callCallable place c argument
    | _, _ =>
      fault .type ("function takes 1 positional argument but "
        ++ toString arguments.positional.length ++ " were given")
  | _ => fault .type ("'" ++ f.longTypeName ++ "' object is not callable")

end Access

/-! ### To any depth -/

/-- Calls, attributes and items that lead to each other to a given depth. -/
@[reducible] def callingTo : (depth : Nat) → Calling
  | 0 => {
      call := fun _ _ => tooDeep
      read := fun _ _ => tooDeep
      write := fun _ _ _ => tooDeep
      item := fun _ _ => tooDeep }
  | depth + 1 =>
    have := callingTo depth
    { call := callValue, read := readAttribute, write := writeAttribute, item := readItem }
where
  /-- Fails because the calls go too deep. -/
  tooDeep {α : Type} : Script α := fail .recursion "maximum recursion depth exceeded"

instance : Calling := callingTo Store.depth

end LinModel.Session
