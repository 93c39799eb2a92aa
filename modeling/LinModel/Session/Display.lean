import LinModel.Session.Literal

/-!
# How answers show values

A display is what an answer shows of a value: plain data with the values of numbers, texts and
collections, and for objects their type with named fields. Numbers inside objects are shown as
text. The terms of a form are put together and listed by name; a zero constant and zeros in arrays
have no sign. An object is asked for what is shown of it, so that one whose fields were
given other values may have no display.

Key definitions: `Display`, `displayTo`, `display`.
-/
namespace LinModel.Session

/-- What an answer shows of a value. -/
inductive Display
  | null
  | truth (b : Bool)
  | integer (n : Int)
  | real (x : Float)
  | text (s : String)
  | list (items : List Display)
  | tuple (items : List Display)
  | mapping (entries : List (Display × Display))
  | name (s : String)
  | anyKey
  | exactKey (key : Display)
  | slice (start stop step : Display)
  | fraction (num : Int) (den : Nat)
  | member (set name : String)
  | array (shape : List Nat) (numbers : List Float)
  /-- Named fields without a type. -/
  | fields (fields : List (String × Display))
  /-- An object of a type with named fields. -/
  | object (type : String) (fields : List (String × Display))

instance : Inhabited Display := ⟨.null⟩

/-! ### Numbers and forms -/

/-- A zero without a sign. -/
def unsignedZero (x : Float) : Float := if x == 0.0 then 0.0 else x

/-- A number as text. -/
def numberText (x : Float) : Display := .text (Number.plain x)

/-- A value as the text of the number that it converts to. -/
def numberOf (v : Value) : Script Display := do return numberText (← toDouble v)

/-- The coefficients of a form under the names of its variables, by name. -/
def formTerms (s : Store) (f : Form Nat Float) : List (String × Float) :=
  let named := f.handles.eraseDups.map fun place =>
    (s.programName place, unsignedZero (f.slope place))
  named.mergeSort fun x y => !(y.1 < x.1)

/-- The fields of a form. -/
def formFields (s : Store) (f : Form Nat Float) : List (String × Display) :=
  [("coefficients", .list ((formTerms s f).map fun (name, x) =>
      .list [.text name, numberText x])),
    ("constant", numberText (unsignedZero f.valueAtZero))]

section Showing

variable [Calling]

/-- Entries of names and numbers as pairs. -/
def coefficientPairs (v : Value) : Script Display := do
  return .list (← (← itemsOf v).mapM fun (name, c) => do
    return .list [.text (← written name), ← numberOf c])

/-! ### Objects -/

/-- How the parts of an object are shown. -/
abbrev Showing := Value → Script Display

/-- The fields of an object that are shown as they are. -/
def shownFields (part : Showing) (on : Value) (names : List String) :
    Script (List (String × Display)) :=
  names.mapM fun name => do return (name, ← part (← read on name))

/-- The word of a member in a field. -/
def shownWord (part : Showing) (on : Value) (name : String) : Script (String × Display) := do
  return (name, ← part (← read (← read on name) "value"))

/-- The text that shows an object, as a field. -/
def shownText (on : Value) : Script (String × Display) := do return ("repr", .text (← shown on))

/-- The items of a collection, each shown. -/
def shownItems (part : Showing) (v : Value) : Script Display := do
  return .list (← (← iterate v).mapM part)

/-- The fields of an expression that are shown. -/
def expressionFields (e : Expression Float) : List (String × Display) :=
  match e with
  | .variable v => [("name", .text v.name.text),
      ("kind", .text (Member.kind v.kind).word), ("lower", numberText v.lower),
      ("upper", numberText v.upper)]
  | .term name c => [("name", .text name.text), ("coefficient", numberText c),
      ("str", .text e.toText)]
  | .linear cs k => [("coefficients", .list (cs.texts.map fun (name, x) =>
      .list [.text name, numberText x])), ("constant", numberText k), ("str", .text e.toText)]

/-- The fields of a tensor that are shown. -/
def tensorFields (part : Showing) (on : Value) (t : ValueTensor) (provider : Value) :
    Script (List (String × Display)) := do
  let dimensions ← t.dimensions.mapM fun d => do return Display.list (← d.mapM part)
  let items ← t.items.mapM fun (keys, v) => do
    return Display.list [.list (← keys.mapM part), ← part v]
  return [("dimensions", .list dimensions), ("items", .list items),
    ("wildcard", ← part (ofLabel t.wildcard)), ("has_default", .truth (toLabel provider).isSome),
    ← shownText on]

/-- The fields of a builder that are shown. -/
def builderFields (part : Showing) (on : Value) (b : BuilderObject) :
    Script (List (String × Display)) := do
  let constraints ← b.constraints.mapM fun c => do return Display.text (← shown c)
  let settings ← read b.settings "solver"
  return [("variables", .list (← b.vars.mapM fun (_, v) => part v)),
    ("constraints", .list constraints), ("objective", ← part (ofLabel b.objective)),
    ("solver", ← part (← read settings "solver")),
    ("tolerance", ← part (← read settings "tolerance")), ← shownText on]

/-- The fields of a part of a model that are shown. -/
def partFields (part : Showing) (on : Value) (c : PartClass) :
    Script (List (String × Display)) := do
  let number := fun (title name : String) => do return (title, ← numberOf (← read on name))
  let bounds := do return [← number "lower" "lower_bound", ← number "upper" "upper_bound"]
  let coefficients := do
    return ("coefficients", ← coefficientPairs (← read on "coefficients"))
  match c with
  | .variable => do
    let name := ("name", Display.text (← written (← read on "name")))
    return [name, ← shownWord part on "kind"] ++ (← bounds)
  | .constraint => do
    let name := ("name", ← part (← read on "name"))
    return [name, ← coefficients] ++ (← bounds) ++ (← shownFields part on ["is_equality"])
  | .objective => do
    return [← coefficients, ← shownWord part on "goal", ← number "offset" "offset"]
  | .model => do
    return [("variables", ← shownItems part (← read on "variables")),
      ("constraints", ← shownItems part (← read on "constraints"))] ++
      (← shownFields part on ["objective", "solver", "tolerance", "solver_args", "verbose",
        "is_mixed_integer"])

/-- The groups of a program's constraints, each as its label and their number. -/
def shownGroups (part : Showing) (groups : Value) : Script Display := do
  return .list (← (← iterate groups).mapM fun group => do
    let (label, relations) ← unpackPair group
    return .list [← part label, .integer (← lengthOf relations)])

/-- The fields of a record that are shown. -/
def recordFields (part : Showing) (on : Value) (c : RecordClass) :
    Script (List (String × Display)) := do
  match c with
  | .solverConfig => shownFields part on ["solver", "tolerance", "solver_args", "verbose"]
  | .devConfig => shownFields part on ["printing"]
  | .config => shownFields part on ["solver", "dev"]
  | .solution => do
    return [← shownWord part on "status",
      ("has_model", .truth (toLabel (← read on "model")).isSome)] ++
      (← shownFields part on ["objective_value", "values", "dual_values", "optimal"])
  | .violations => do
    let worst ← toDouble (← read on "max_violation")
    return (← shownFields part on ["constraints", "bounds", "integrality", "tolerance", "ok"]) ++
      [("max_violation", .real (unsignedZero worst)), ("str", .text (← written on))]
  | .denseModel => do
    let names ← (← iterate (← read on "variable_order")).mapM fun n => do
      return Display.text (← written n)
    return [("variable_order", .list names), ("offset", ← numberOf (← read on "offset"))] ++
      (← shownFields part on ["A", "lower", "upper", "c", "var_lower", "var_upper",
        "integer_mask"])
  | .program => do
    let vars ← (← itemsOf (← read on "variables")).mapM fun (name, v) => do
      return Display.list [← part name, ← part v]
    return [("variables", .list vars),
      ("groups", ← shownGroups part (← read on "constraint_groups"))] ++
      (← shownFields part on ["constraints", "objective"])
  | .fixedBackend => return []

/-- What an answer shows of an object. -/
def displayObject (part : Showing) (on : Value) (o : Object) : Script Display := do
  let s ← get
  let title := o.objectClass.title
  match o with
  | .list items => return .list (← items.mapM part)
  | .dict entries | .view entries => do
    return .mapping (← entries.mapM fun (k, v) => do return (← part k, ← part v))
  | .array a => return .array a.shape (a.toDoubles.map unsignedZero)
  | .callable _ => return .object "function" []
  | .expression e _ => return .object title (expressionFields e)
  | .constraint _ => do
    return .object title ((← shownFields part on ["left", "right", "name"]) ++
      [← shownWord part on "relationship", ← shownText on])
  | .objective _ => do
    return .object title ((← shownFields part on ["expression"]) ++
      [← shownWord part on "goal", ← shownText on])
  | .tensor t provider => return .object title (← tensorFields part on t provider)
  | .builder b => return .object title (← builderFields part on b)
  | .record c _ => return .object title (← recordFields part on c)
  | .programVariable name isBoolean isInteger _ => do
    return .object title [("name", .text name), ("boolean", ← part isBoolean),
      ("integer", ← part isInteger)]
  | .form f => return .object "affine" (formFields s f)
  | .relation r => return .object title [("lhs", .fields (formFields s r.left)),
      ("rhs", .fields (formFields s r.right))]
  | .programObjective p => return .object title (formFields s p.expression)
  | _ => return .object title []

/-! ### Values -/

/-- What an answer shows of a value, to a given depth. -/
def displayTo (fuel : Nat) (v : Value) : Script Display :=
  match fuel with
  | 0 => fail .recursion "maximum recursion depth exceeded"
  | fuel + 1 =>
    let part := displayTo fuel
    match v with
    | .none => return .null
    | .truth b => return .truth b
    | .integer n _ => return .integer n
    | .real x _ => return .real x
    | .fraction q _ => return .fraction q.num q.den
    | .machine n _ => return match n with
      | .double x | .single x => .real x
      | .integer n => .integer n
      | .truth b => .truth b
    | .decimal .. => return .object v.typeName []
    | .text t _ => return .text t
    | .name n _ => return .name n.text
    | .tuple items _ => do return .tuple (← items.mapM part)
    | .slice a b c _ => do return .slice (← part a) (← part b) (← part c)
    | .selector key isAny _ => do
      if ← truth isAny then return .anyKey
      return .exactKey (← part key)
    | .part c _ _ => do return .object c.title (← partFields part v c)
    | .method .. => return .object "function" []
    | .member m => return .member m.setName m.parts.2.1
    | .object _ place => do displayObject part v (← fetch place)

/-- What an answer shows of a value. -/
def display (v : Value) : Script Display := displayTo Store.depth v

end Showing

end LinModel.Session
