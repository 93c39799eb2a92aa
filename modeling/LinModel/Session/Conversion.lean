import LinModel.Session.Text

/-!
# Conversions of session values

Doubles can be made of numbers of every kind, of texts that write one, and of arrays with a single
number. Expressions take only what counts as a real number: not truth values, decimals or texts.
Names can be made of nonempty texts, and members of closed sets of the texts they stand for.

Key definitions: `Store.toDouble`, `toDouble`, `toInteger`, `scalar?`, `toName`, `toMember`,
`formatNumber`.
-/
namespace LinModel.Session

/-- The double that a value converts to. -/
def Store.toDouble (s : Store) (v : Value) : Reading Float :=
  match v with
  | .truth b => return if b then 1.0 else 0.0
  | .real x _ => return x
  | .integer n _ => integerToDouble n
  | .fraction q _ => convertReal (.fraction q)
  | .machine n _ => return n.toFloat
  | .decimal (.notANumber _ true _) _ => fail .value "cannot convert signaling NaN to float"
  | .decimal d _ => return d.toFloat
  | .text t _ => match Number.read? t with
    | some x => return x
    | none => fail .value ("could not convert string to float: " ++ Text.quote t)
  | v => match s.object? v with
    | some (.array ⟨_, _, [], [x]⟩) => return x.toFloat
    | some (.array a) =>
      if a.onDevice then fail .type ("Only scalar arrays can be converted to Python scalars; "
        ++ "got arr.ndim=" ++ toString a.shape.length)
      else match a.numbers with
        | [x] => return x.toFloat
        | _ => fault .type "only 0-dimensional arrays can be converted to Python scalars"
    | _ => fault .type
        ("float() argument must be a string or a real number, not '" ++ v.longTypeName ++ "'")

/-- The double that a value converts to. -/
def toDouble (v : Value) : Script Float := reading fun s => s.toDouble v

/-- A double without its fraction. -/
def truncated (x : Float) : Script Int :=
  match Number.Binary.ofFloat? x with
  | some b =>
    let (num, den) := b.ratio
    let n : Int := (num / den : Nat)
    return if b.negative then -n else n
  | none =>
    if x.isNaN then fail .value "cannot convert float NaN to integer"
    else fail .overflow "cannot convert float infinity to integer"

/-- The integer that a value converts to, its fraction cut off. -/
def toInteger (v : Value) : Script Int := do
  match v with
  | .truth b => return if b then 1 else 0
  | .integer n _ => return n
  | .real x _ => truncated x
  | .fraction q _ => return Int.tdiv q.num q.den
  | .machine (.integer n) _ => return n
  | .machine n _ => truncated n.toFloat
  | .decimal d _ => match d.toRat? with
    | some q => return Int.tdiv q.num q.den
    | none => match d with
      | .infinite _ => fail .overflow "cannot convert Infinity to integer"
      | _ => fail .value "cannot convert NaN to integer"
  | .text t _ => match Number.readInt? t with
    | some n => return n
    | none => fail .value ("invalid literal for int() with base 10: " ++ Text.quote t)
  | .object (.array _) _ => truncated (← toDouble v)
  | _ => fault .type ("int() argument must be a string, a bytes-like object or a real number, not '"
      ++ v.longTypeName ++ "'")

/-- An integral number as an integer, any other by the fewest digits that read back. -/
def formatNumber (v : Value) : Script String := do
  let x ← toDouble v
  match (Number.Binary.ofFloat? x).bind Number.Binary.toInt? with
  | some _ =>
    let n ← toInteger v
    reading fun _ => integerText n
  | none => return Number.plain x

/-- Fails as an operation on expressions failed. -/
def failExpression {α : Type} (e : ExpressionError Float) : Script α :=
  match e with
  | .divisionByZero _ => fail .divisionByZero e.message
  | _ => fail .value e.message

/-- The result of an operation on expressions. -/
def liftExpression {α : Type} (r : Except (ExpressionError Float) α) : Script α :=
  match r with
  | .ok a => return a
  | .error e => failExpression e

/-- The finite double of a value that counts as a real number. -/
def scalar? (v : Value) : Script (Option Float) := do
  match v.realNumber? with
  | some r => some <$> liftExpression (Expression.finite (← convertReal r))
  | none => return none

/-- A name with its identity. -/
structure NamedValue where
  name : VariableName
  identity : Identity

/-- The name as a value. -/
def NamedValue.toValue (n : NamedValue) : Value := .name n.name n.identity

/-- The name that a value is, or a new one that a nonempty text makes. -/
def toName (v : Value) : Script NamedValue := do
  match v with
  | .name n id => return ⟨n, id⟩
  | _ =>
    let made : Option VariableName := match v with
      | .text t _ => VariableName.ofText? t
      | _ => none
    match made with
    | some n => return ⟨n, (← stamp (.ofName n)).identity⟩
    | none => fail .value ("Variable name must be a non-empty string, got " ++ (← shown v))

/-- The member of a set that a value is, or that stands for it. -/
def toMember {α : Type} (setName : String) (members : List (Member × α)) (v : Value) :
    Script α := do
  let found := members.find? fun (m, _) => match v with
    | .member m' => m == m'
    | .text t _ => m.word == t
    | _ => false
  match found with
  | some (_, a) => return a
  | none => fail .value ((← shown v) ++ " is not a valid " ++ setName)

/-- A relationship. -/
def toRelationship (v : Value) : Script Relationship :=
  toMember "Relationship" ([Relationship.le, .eq, .ge].map fun r => (.relationship r, r)) v

/-- A direction. -/
def toGoal (v : Value) : Script Goal :=
  toMember "Goal" ([Goal.min, .max].map fun g => (.goal g, g)) v

/-- A kind of variables. -/
def toKind (v : Value) : Script VariableKind :=
  toMember "VariableKind"
    ([VariableKind.boolean, .integer, .numeric].map fun k => (.kind k, k)) v

/-- A solver. -/
def toSolver (v : Value) : Script Solver :=
  toMember "SolverType" (Solver.all.map fun s => (.solver s, s)) v

end LinModel.Session
