import LinModel.Form.Text
import LinModel.NumArray.Text
import LinModel.Session.Value
import LinModel.Solving.Outcome

/-!
# Session objects

What the objects of a session hold, and the store that holds them. Any object may also be given
attributes of its own; these are kept beside the objects. A place, once taken, keeps an object of
the same class.

Key definitions: `Callable`, `Object`, `BuilderObject`, `Store`.
-/
namespace LinModel.Session

/-- What a callable does with its argument. -/
inductive Provider
  /-- Returns it. -/
  | echo
  | constant (v : Value)
  /-- Joins the texts of its parts. -/
  | join
  /-- Counts its calls. -/
  | count
  /-- Fails at one argument and returns the others. -/
  | failAt (argument : Value)
  /-- Declares a numeric variable under that name, failing at one name. -/
  | declare (builder : Value) (failing : Option Value)
  /-- Declares a numeric variable with an automatic name, failing at one call. -/
  | declareAutomatic (builder : Value) (failing : Option Value)

/-- A row of coefficients with a constant, and a range for its value, whose ends may be any
values. -/
structure RowRange where
  coefficients : List Float
  constant : Float
  lower : Value
  upper : Value

/-- What is measured of an assignment. -/
inductive Measure
  /-- The values of rows of coefficients, with as many columns as given. -/
  | activities (rows : List (List Float)) (columns : Nat)
  /-- The value of a row of coefficients with a constant. -/
  | row (coefficients : List Float) (constant : Float)
  /-- How far a row's value lies outside its range. -/
  | violation (r : RowRange)
  /-- The same for several rows. -/
  | violations (rs : List RowRange)
  /-- How far the assignment itself lies outside a range. -/
  | outside (lower upper : NumArray)
  /-- How far the assignment is from integers, where a mask is one. -/
  | integrality (mask : List Float)

/-- An object that can be called. -/
inductive Callable
  | provider (p : Provider) (calls : Nat)
  /-- A provider behind a choice of keys: `none` marks the places that are still open. -/
  | filled (provider : Value) (choices : List (Option Value))
  | measure (m : Measure)

/-- A constraint as an object; its fields can be given any values. -/
structure ConstraintObject where
  left : Value
  right : Value
  relationship : Value
  label : Value

/-- An objective as an object; its fields can be given any values. -/
structure ObjectiveObject where
  expression : Value
  goal : Value

/-- A builder as an object: its settings, its state, and the objects that stand for what is
registered. A registered constraint or the objective may have been changed since; the state then
holds what it was when it was registered. -/
structure BuilderObject where
  settings : Value
  state : Builder Float Value
  vars : Entries VariableName Value
  constraints : List Value
  objective : Option Value

/-- What an object holds. -/
inductive Object
  | list (items : List Value)
  | dict (entries : Entries Value Value)
  | view (entries : Entries Value Value)
  | listing (title : String) (items : List Value)
  /-- An expression with the identities of its names. -/
  | expression (e : Expression Float) (identities : Entries VariableName Identity)
  | blank
  | constraint (c : ConstraintObject)
  | objective (o : ObjectiveObject)
  /-- A tensor, and the value that stands for its provider of missing values. -/
  | tensor (t : Tensor Value Value Value) (provider : Value)
  | builder (b : BuilderObject)
  | record (c : RecordClass) (fields : Entries String Value)
  | array (a : NumArray)
  | programVariable (name : String) (isBoolean isInteger : Value) (value : Option Float)
  /-- A form over program variables, which are known by their places. -/
  | form (f : Form Nat Float)
  | relation (r : Relation Nat Float)
  | programObjective (o : ProgramObjective Nat Float)
  /-- The order that is shown, and the texts of the names that it was made for. -/
  | denseLowerer (order : Value) (columns : List String)
  | programLowerer (vars : Value)
  | backend (problem : Value)
  /-- The engine's form of a program, with its word for how it ended and the objective's value. -/
  | problem (objective : ProgramObjective Nat Float) (relations : List (Relation Nat Float))
    (status value : Value)
  | callable (c : Callable)
  | iterator (rest : List Value)
  /-- A block of a builder's constraints, under a label. -/
  | block (builder label : Value)
  | error (c : ErrorClass) (arguments : List Value) (fields : Entries String Value)

/-- What a form is at its top. -/
def shapeOf : Form Nat Float → FormShape
  | .constant _ | .handle _ => .constant
  | .sum .. => .sum
  | .negation _ => .negation
  | .product .. => .product
  | .quotient .. => .quotient

/-- The class of an object. -/
def Object.objectClass : Object → ObjectClass
  | .list _ => .list
  | .dict _ => .dict
  | .view _ => .view
  | .listing title _ => .listing title
  | .expression (.variable _) _ => .variable
  | .expression (.term ..) _ => .parameter
  | .expression (.linear ..) _ => .linear
  | .blank => .blank
  | .constraint _ => .constraint
  | .objective _ => .objective
  | .tensor .. => .tensor
  | .builder _ => .builder
  | .record c _ => .record c
  | .array a => .array a.onDevice
  | .programVariable .. => .programVariable
  | .form f => .form (shapeOf f)
  | .relation r => .relation r.isEquation
  | .programObjective o => .programObjective o.goal
  | .denseLowerer .. => .denseLowerer
  | .programLowerer _ => .programLowerer
  | .backend _ => .backend
  | .problem .. => .problem
  | .callable _ => .callable
  | .iterator _ => .iterator
  | .block .. => .block
  | .error c _ _ => .error c

/-- The kinds of warnings. -/
inductive WarningKind
  | objectiveReplaced
  | violated
deriving DecidableEq

/-- The objects and registers of a session, and what it has warned of and printed since that was
last read. -/
structure Store where
  objects : Array Object
  /-- How many values were given an identity of their own. -/
  made : Nat
  /-- The attributes that objects were given besides their own. -/
  attributes : Entries (Nat × String) Value
  registers : Entries String Value
  warnings : List (WarningKind × String)
  printed : String

namespace Store

/-- The store of a new session. -/
def empty : Store := ⟨#[], 0, [], [], [], ""⟩

/-- The object that a value is. -/
def object? (s : Store) (v : Value) : Option Object :=
  match v with
  | .object _ place => s.objects[place]?
  | _ => none

/-- The expression that a value is. -/
def expression? (s : Store) (v : Value) : Option (Expression Float) :=
  match s.object? v with
  | some (.expression e _) => some e
  | _ => none

/-- The entries of a value that is a mapping by its form. -/
def entries? (s : Store) (v : Value) : Option (Entries Value Value) :=
  match s.object? v with
  | some (.dict entries) | some (.view entries) => some entries
  | _ => none

/-- The field of a record that can change. -/
def field? (s : Store) (v : Value) (name : String) : Option Value :=
  match s.object? v with
  | some (.record _ fields) => fields.find? name
  | _ => none

end Store
end LinModel.Session
