import LinModel.Session.Callables

/-!
# Dense models in a session

Lowering expressions and parts of models to rows of numbers, and whole models to arrays with the
functions that measure an assignment. A model whose parts are what building makes them is lowered
as a typed problem. Any other is asked for its parts one by one: the coefficients of names with
one text add up in the arrays, but the functions use the last of them.

Key definitions: `makeLowerer`, `denseIndex`, `denseRowOf`, `lowerToMeasure`,
`DenseForms`, `deviceArray`, `lowerModel`, `denseRecord`, `assignmentVector`.
-/
namespace LinModel.Session

/-- Fails as lowering to dense rows failed. -/
def failDense {α : Type} (e : DenseError Float) : Script α :=
  match e with
  | .expression e => failExpression e
  | .noVisitor _ => fail .notSupported e.message
  | .notInOrder _ => fail .value e.message

/-- The result of lowering to dense rows. -/
def liftDense {α : Type} (r : Except (DenseError Float) α) : Script α :=
  match r with
  | .ok a => return a
  | .error e => failDense e

/-- The order of a lowerer: the names that are shown, and the texts of those it was made for. -/
structure NameOrder where
  shown : Value
  columns : List String

variable [Calling]

/-! ### Rows -/

/-- The order of the names in a collection. -/
def toNameOrder (names : Value) : Script NameOrder := do
  let shown ← toTuple names
  return ⟨shown, ← (← iterate shown).mapM written⟩

/-- A lowerer for names in an order. -/
def makeLowerer (names : Value) : Script Value := do
  let order ← toNameOrder names
  alloc (.denseLowerer order.shown order.columns)

/-- The column of a name. -/
def denseIndex (order : NameOrder) (name : Value) : Script Nat := do
  match lastIndex? order.columns (← written name) with
  | some i => return i
  | none => failDense (.notInOrder (← inserted name))

/-- Adds each coefficient in the column of its name. A row has as many columns as names are
shown. -/
def addToRow (order : NameOrder) (width : Nat) (entries : List (Value × Value)) :
    Script (List Float) :=
  entries.foldlM (fun row (name, coefficient) => do
    let i ← denseIndex order name
    match row[i]? with
    | some x => do
      let sum ← addValues (.machine (.double x) .shared) coefficient
      return row.set i (← reading fun s => s.placeDouble sum)
    | none => fail .missingIndex ("index " ++ toString i
        ++ " is out of bounds for axis 0 with size " ++ toString width))
    (List.replicate width 0.0)

/-- The dense row of a mapping from names to coefficients. -/
def denseRowOf (order : NameOrder) (coefficients : Value) : Script (List Float) := do
  let width ← lengthOf order.shown
  addToRow order width (← itemsOf coefficients)

/-- The dense form of an expression. -/
def expressionForm (order : NameOrder) (e : Expression Float) : Script (DenseForm Float) := do
  let width ← lengthOf order.shown
  if width = order.columns.length then
    liftDense (DenseForm.ofExpression order.columns (.linear e.coefficients e.constant))
  else
    let entries := e.coefficients.map fun (name, c) => (.ofName name, .ofReal c)
    return ⟨← addToRow order width entries, e.constant⟩

/-- Lowers what has coefficients and a constant to a row. -/
def lowerForm (order : NameOrder) (node : Value) : Script Measure := do
  match (← get).expression? node with
  | some e => do
    let f ← expressionForm order e
    return .row f.row f.constant
  | none =>
    let row ← denseRowOf order (← read node "coefficients")
    return .row row (← toDouble (← read node "constant"))

/-- Lowers what has coefficients and bounds to the violation of a range. -/
def lowerRange (order : NameOrder) (node : Value) : Script Measure := do
  let (e, _) ← linearForm (← read node "coefficients") (.ofReal 0.0)
  let f ← expressionForm order e
  return .violation ⟨f.row, f.constant, ← read node "lower_bound", ← read node "upper_bound"⟩

/-- Lowers what has coefficients and an offset to a row. -/
def lowerObjectiveForm (order : NameOrder) (node : Value) : Script Measure := do
  let (e, _) ← linearForm (← read node "coefficients") (← read node "offset")
  let f ← expressionForm order e
  return .row f.row f.constant

/-- Lowers a linear form, a compiled constraint or a compiled objective to what is measured of an
assignment. -/
def lowerToMeasure (order : NameOrder) (node : Value) : Script Measure :=
  match node with
  | .object .linear _ => lowerForm order node
  | .part .constraint _ _ => lowerRange order node
  | .part .objective _ _ => lowerObjectiveForm order node
  | _ => failDense (.noVisitor node.typeName)

/-- The order of the names of a lowerer. -/
def orderOf (lowerer : Value) : Script NameOrder := do
  match (← get).object? lowerer with
  | some (.denseLowerer shown columns) => return ⟨shown, columns⟩
  | _ => fault .operation ""

/-! ### Whole models -/

/-- A model in dense form, and its bounds as arrays, and those of its constraints as they are
given. -/
structure DenseForms where
  names : Value
  dense : DenseModel Float
  lower : NumArray
  upper : NumArray
  variableLower : NumArray
  variableUpper : NumArray
  ends : List (Value × Value)

/-- The type that a value has in an array on the device; nothing for what is no number. -/
def elementOf? (s : Store) (v : Value) : Option ElementType :=
  match v with
  | .truth _ => some (.ofWidth .truth)
  | .integer .. => some ⟨.integer, true⟩
  | .real .. => some ⟨.double, true⟩
  | .machine n _ => some (.ofWidth n.width)
  | v => (s.array? v).map (·.element)

/-- The type of a value in an array on the device. -/
def requireElement (v : Value) : Script ElementType := do
  match elementOf? (← get) v with
  | some e => return e
  | none =>
    let width := match v with
      | .text t _ => "<U" ++ toString (max 1 t.length)
      | _ => "object"
    fail .type ("Value '" ++ (← written v) ++ "' with dtype " ++ width
      ++ " is not a valid JAX array type. Only arrays of numeric types are supported by JAX.")

/-- What stands in nested collections, to a given depth; in a mapping stand its values. -/
def leaves (s : Store) : (fuel : Nat) → Value → List Value
  | 0, v => [v]
  | fuel + 1, v =>
    match s.listed? v, s.object? v with
    | some items, _ => items.flatMap (leaves s fuel)
    | none, some (.dict entries) => (List.map Prod.snd entries).flatMap (leaves s fuel)
    | none, _ => [v]

/-- Whether an array on the device stands in a value. -/
def holdsDeviceArray (s : Store) (v : Value) : Bool :=
  (leaves s Store.largestRank v).any fun w => match s.array? w with
    | some a => a.onDevice
    | none => false

/-- Nested collections with arrays on the device, to a given depth: each is stacked for itself. -/
def stacked (s : Store) : (fuel : Nat) → Value → Reading (List Nat × List Value)
  | 0, v => s.nestedItems v
  | fuel + 1, v =>
    match s.listed? v with
    | some items =>
      if holdsDeviceArray s v then do join (← items.mapM (stacked s fuel)) else s.nestedItems v
    | none => s.nestedItems v
where
  /-- The parts of a stack, which must have one shape. -/
  join (parts : List (List Nat × List Value)) : Reading (List Nat × List Value) := do
    let shape := (parts.head?.map Prod.fst).getD []
    if !parts.all (·.1 = shape) then fail .value "All input arrays must have the same shape."
    return (parts.length :: shape, parts.flatMap Prod.snd)

/-- The array on the device that a list of values makes. -/
def deviceArray (values : List Value) : Script NumArray := do
  let s ← get
  let items := values.flatMap (leaves s Store.largestRank)
  if items.any fun v => (toLabel v).isNone then
    fail .value "None is not a valid value for jnp.array"
  let e : ElementType := match ← items.mapM requireElement with
    | [] => .ofWidth .double
    | e :: rest => rest.foldl (fun e f => e.join true f) e
  let (shape, numbers) ← if values.any (holdsDeviceArray s) then
      reading fun s => do stacked.join (← values.mapM (stacked s Store.largestRank))
    else reading fun s => (Store.Nested.join (values.map (s.nested Store.largestRank))).even
  let numbers ← numbers.mapM fun v => do
    let n ← match v with
      | .integer n _ => integerAt false e.width n
      | .machine n _ => pure n
      | v =>
        if e.width = .integer then MachineNumber.integer <$> toInteger v
        else MachineNumber.double <$> toDouble v
    return n.convert e.width
  return ⟨true, .ofWidth e.width, shape, numbers⟩

/-- The bounds of parts of a model. -/
def endsOf (parts : List Value) : Script (List (Value × Value)) :=
  parts.mapM fun part => do return (← read part "lower_bound", ← read part "upper_bound")

/-- The dense forms of a model, asked for its parts one by one. -/
def lowerParts (model : Value) : Script DenseForms := do
  let order ← toNameOrder (← read model "variable_names")
  let constraints ← iterate (← read model "constraints")
  let rows ← constraints.mapM fun c => do denseRowOf order (← read c "coefficients")
  let ends ← endsOf constraints
  let lower ← deviceArray (ends.map Prod.fst)
  let upper ← deviceArray (ends.map Prod.snd)
  let objective ← read model "objective"
  let objectiveRow ← denseRowOf order (← read objective "coefficients")
  let offset ← toDouble (← read objective "offset")
  let vars ← iterate (← read model "variables")
  let variableEnds ← endsOf vars
  let variableLower ← deviceArray (variableEnds.map Prod.fst)
  let variableUpper ← deviceArray (variableEnds.map Prod.snd)
  let mask ← vars.mapM fun v => do
    return match ← read v "kind" with
      | .member (.kind .numeric) => 0.0
      | _ => 1.0
  let forms ← constraints.mapM fun c => do return formOf (← lowerToMeasure order c)
  let objectiveForm := formOf (← lowerToMeasure order objective)
  let ranges := (forms.zip (lower.toDoubles.zip upper.toDoubles)).map fun (form, low, high) =>
    (⟨form, low, high⟩ : DenseRange Float)
  let dense := {
    order := order.columns
    rows := rows
    lower := lower.toDoubles
    upper := upper.toDoubles
    objective := objectiveRow
    offset := offset
    variableLower := variableLower.toDoubles
    variableUpper := variableUpper.toDoubles
    integerMask := mask
    ranges := ranges
    objectiveForm := objectiveForm }
  return ⟨order.shown, dense, lower, upper, variableLower, variableUpper, ends⟩
where
  /-- The form that is measured. -/
  formOf : Measure → DenseForm Float
    | .row row constant => ⟨row, constant⟩
    | .violation r => ⟨r.coefficients, r.constant⟩
    | _ => ⟨[], 0.0⟩

/-- The dense forms of a model. -/
def lowerModel (model : Value) : Script DenseForms := do
  match (← get).toProblem? model with
  | some problem =>
    let d ← liftDense (DenseModel.ofProblem problem)
    let ends ← endsOf (← iterate (← read model "constraints"))
    let variableEnds ← endsOf (← iterate (← read model "variables"))
    return ⟨← read model "variable_names", d, ← deviceArray (ends.map Prod.fst),
      ← deviceArray (ends.map Prod.snd), ← deviceArray (variableEnds.map Prod.fst),
      ← deviceArray (variableEnds.map Prod.snd), ends⟩
  | none => lowerParts model

/-- The dense model of a model, as a record of arrays and functions. -/
def denseRecord (model : Value) : Script Value := do
  let forms ← lowerModel model
  let d := forms.dense
  let columns := d.order.length
  let ranges := (d.ranges.zip forms.ends).map fun (r, low, high) =>
    (⟨r.form.row, r.form.constant, low, high⟩ : RowRange)
  let array := fun (a : NumArray) => alloc (.array a)
  let measure := fun (m : Measure) => alloc (.callable (.measure m))
  newRecord .denseModel [
    ("variable_order", ← stamp forms.names),
    ("A", ← array (.ofDoubles true [d.rows.length, columns] d.rows.flatten)),
    ("lower", ← array forms.lower),
    ("upper", ← array forms.upper),
    ("c", ← newVector d.objective),
    ("offset", ← stamp (.ofReal d.offset)),
    ("var_lower", ← array forms.variableLower),
    ("var_upper", ← array forms.variableUpper),
    ("integer_mask", ← newVector d.integerMask),
    ("activity", ← measure (.activities d.rows columns)),
    ("objective", ← measure (.row d.objectiveForm.row d.objectiveForm.constant)),
    ("constraint_violation", ← measure (.violations ranges)),
    ("bound_violation", ← measure (.outside forms.variableLower forms.variableUpper)),
    ("integrality_violation", ← measure (.integrality d.integerMask))]

/-- The values of an assignment in the order of the names, all of which must have one. -/
def assignmentVector (order : List String) (assignment : Value) : Script (List Float) := do
  match DenseModel.vector order (← valuesByText (← itemsOf assignment)) with
  | .ok values => values.mapM toDouble
  | .error missing =>
    failMissing ("No value for variables " ++ listText (missing.map Text.quote))

end LinModel.Session
