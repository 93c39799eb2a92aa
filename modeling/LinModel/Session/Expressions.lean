import LinModel.Expression.Operators
import LinModel.Session.Arithmetic
import LinModel.Session.Forms

/-!
# Expressions in a session

Making variables, terms, linear forms, constraints and objectives of session values, and the
operators: arithmetic and relations between expressions, numbers and whatever else has them. An
operator between values that it does not apply to is a fault of whoever applied it.

Key definitions: `newExpression`, `rawOperand`, `makeVariable`, `makeLinear`, `makeConstraint`,
`operateExpressions?`, `addValues`, `subValues`, `mulValues`, `divValues`, `relateValues`,
`equateValues`, `sumValues`, `evaluateValue`.
-/
namespace LinModel.Session

/-! ### Expression objects -/

/-- The identities of the names of an expression. -/
def Store.identities (s : Store) (v : Value) : Entries VariableName Identity :=
  match s.object? v with
  | some (.expression _ ids) => ids
  | _ => []

/-- A new expression whose names have the identities found first. -/
def newExpression (e : Expression Float) (ids : Entries VariableName Identity) : Script Value := do
  let known ← e.names.mapM fun name => do
    match ids.find? name with
    | some id => return (name, id)
    | none => return (name, (← stamp (.ofName name)).identity)
  alloc (.expression e known)

/-- A new expression made of others. -/
def newFrom (sources : List Value) (e : Expression Float) : Script Value := do
  let s ← get
  newExpression e (sources.flatMap s.identities)

/-- Fails as an operand was refused. -/
def failOperand {α : Type} (e : OperandError Float) : Script α :=
  match e with
  | .notLinear _ => fail .type e.message
  | .expression e => failExpression e

/-- An operand as it is written; an expression without coefficients counts as the empty one. -/
def rawOperand (v : Value) (describe : Value → Script String) : Script RawOperand := do
  if v.isBlank then return .expression Expression.empty
  match (← get).expression? v, v.realNumber? with
  | some e, _ => return .expression e
  | none, some r => return .real r
  | none, none => return .other (← describe v)

/-- Fails as arithmetic on operands failed. -/
def failArithmetic {α : Type} (e : ArithmeticError) : Script α :=
  match e with
  | .conversion e => fail .overflow e.message
  | .operator (.expression e) => failExpression e
  | .operator .notApplicable => fault .operation ""

/-- An operand of a relation. -/
def toOperand (v : Value) : Script (Operand Float) := do
  match (← rawOperand v shown).convert with
  | .ok o => return o
  | .error e => failArithmetic (.conversion e)

/-- The expression that a value stands for, where its coefficients are needed. -/
def toExpression (v : Value) : Script (Expression Float) := do
  if v.isBlank then failBlank
  match (← toOperand v).toExpression with
  | .ok e => return e
  | .error e => failOperand e

/-- The object that stands for a value where an expression is expected: an expression itself, or a
new one for a number. -/
def toSide (v : Value) : Script Value := do
  if v.isExpression then return v
  newExpression (← toExpression v) []

/-! ### Making expressions -/

/-- Fails as the bounds of a variable were refused. -/
def failBounds {α : Type} (lower upper : Value) (e : BoundsError Float) : Script α := do
  let given ← match e with
    | .notUnit _ => pure (← inserted lower, ← inserted upper)
    | _ => pure ("", "")
  fail .value (e.message Numerals.plain given)

/-- The bound that a value gives to a variable of a kind; a boolean variable's must equal
`fixed`. -/
def toBound (kind : VariableKind) (fixed : Int) (v : Value) : Script (Option Float) := do
  match kind, v with
  | _, .none => return none
  | .boolean, _ => return if ← anyEqual v [.none, .ofInt fixed] then none else some (0.0 / 0.0)
  | _, _ => some <$> toDouble v

/-- A variable with bounds given by session values. The upper bound of a boolean variable is not
looked at if the lower one is refused. -/
def declareVariable (name : VariableName) (kind : VariableKind) (lower upper : Value) :
    Script (Variable Float) := do
  let low ← toBound kind 0 lower
  let high ← if kind == .boolean && low.isSome then pure none else toBound kind 1 upper
  match Variable.declare name kind low high with
  | .ok v => return v
  | .error e => failBounds lower upper e

/-- A variable of a kind given by a session value. -/
def makeVariable (name kind lower upper : Value) : Script Value := do
  let n ← toName name
  let k ← toKind kind
  let v ← declareVariable n.name k lower upper
  newExpression (.variable v) [(n.name, n.identity)]

/-- A term with a name and a coefficient. -/
def makeTerm (name coefficient : Value) : Script Value := do
  match ← scalar? coefficient with
  | none =>
    fail .type ("Parameter coefficient must be a real number, got " ++ (← shown coefficient))
  | some c =>
    let n ← toName name
    newExpression (.term n.name c) [(n.name, n.identity)]

/-- A linear form with coefficients from a mapping and a constant, with its names. -/
def linearForm [Calling] (coefficients constant : Value) :
    Script (Expression Float × Entries VariableName Identity) := do
  match ← scalar? constant with
  | none =>
    fail .type ("Expression constant must be a real number, got " ++ (← shown constant))
  | some k =>
    let entries ← if ← truth coefficients then itemsOf coefficients else pure []
    let pairs ← entries.mapM fun (name, value) => do
      match ← scalar? value with
      | none =>
        fail .type ("Coefficient of '" ++ (← inserted name) ++ "' must be a real number, got "
          ++ (← shown value))
      | some c => return (← toName name, c)
    return (.linear (Entries.ofList (pairs.map fun (n, c) => (n.name, c))) k,
      pairs.map fun (n, _) => (n.name, n.identity))

/-- A linear form with coefficients from a mapping and a constant. -/
def makeLinear [Calling] (coefficients constant : Value) : Script Value := do
  let (e, ids) ← linearForm coefficients constant
  newExpression e ids

/-- A constraint between two values. -/
def makeConstraint (left right relationship label : Value) : Script Value := do
  let l ← toSide left
  let r ← toSide right
  let relation ← toRelationship relationship
  alloc (.constraint ⟨l, r, .member (.relationship relation), label⟩)

/-- The constraint of a relation between two values. -/
def newRelation (left right : Value) (relation : Relationship) : Script Value :=
  makeConstraint left right (.member (.relationship relation)) .none

/-- An objective. -/
def makeObjective (expression goal : Value) : Script Value := do
  let v ← toSide expression
  let g ← toGoal goal
  alloc (.objective ⟨v, .member (.goal g)⟩)

/-! ### Arithmetic -/

/-- What is left of an operation on an expression without coefficients where they are needed: only
its product with zero is made without them. -/
def operateBlank (op : Operation) (other : Value) : Script Value := do
  if op = .mul then
    if let some x ← scalar? other then
      if x == 0.0 then return ← newExpression Expression.empty []
  failBlank

/-- An operation of which an operand is an expression; nothing if it does not apply. -/
def operateExpressions? (op : Operation) (a b : Value) : Script (Option Value) := do
  if !a.isExpression && !b.isExpression then return none
  let x ← rawOperand a fun _ => return ""
  let y ← rawOperand b fun _ => return ""
  match x.combine op y, a.isBlank || b.isBlank with
  | .ok e, false => some <$> newFrom [a, b] e
  | .ok _, true => some <$> operateBlank op (if a.isBlank then b else a)
  | .error (.operator .notApplicable), _ => return none
  | .error (.operator (.expression (.divisionByZero _))), true => failBlank
  | .error e, _ => failArithmetic e

/-- An operation on two values. -/
def operateValues (op : Operation) (a b : Value) : Script Value := do
  if let some v ← inside (operateExpressions? op a b) then return v
  if let some v ← combineForms? op a b then return v
  if !a.isExpression && !b.isExpression then
    if let some v ← combinePlain? op a b then return v
  failOperation op a b

/-- The sum of two values. -/
def addValues (a b : Value) : Script Value := operateValues .add a b

/-- The difference of two values. -/
def subValues (a b : Value) : Script Value := operateValues .sub a b

/-- The product of two values. -/
def mulValues (a b : Value) : Script Value := operateValues .mul a b

/-- The quotient of two values. -/
def divValues (a b : Value) : Script Value := operateValues .div a b

/-- The negated value. -/
def negValue (a : Value) : Script Value := do
  if a.isExpression then
    inside do newFrom [a] (← liftExpression (← toExpression a).neg)
  else match ← negateForm? a with
    | some v => return v
    | none => negatePlain a

/-- The value itself, if it has a sign. -/
def posValue (a : Value) : Script Value :=
  if a.isExpression || a.isForm then return a else keepPlain a

/-! ### Relations -/

/-- A truth value as comparing two values gives it: comparing a number of fixed width gives one of
fixed width, unless the other value is nothing or a text. -/
def comparisonResult (a b : Value) (holds : Bool) : Value :=
  match a, b with
  | .machine .., .none | .none, .machine .. => .truth holds
  | .machine .., .text .. | .text .., .machine .. => .truth holds
  | .machine .., _ | _, .machine .. => .machine (.truth holds) .shared
  | _, _ => .truth holds

/-- A comparison of an array with another value, place by place; nothing if neither is an array or
the other does not go with it. -/
def compareArrays? (c : Comparison) (a b : Value) : Script (Option Value) := do
  match ← reading fun s => s.placewise? c a b with
  | some x => some <$> arrayValue x
  | none => return none

/-- `a <= b` or `a >= b`: a constraint if one side is an expression and the other an operand. -/
def relateValues (isLess : Bool) (a b : Value) : Script Value := do
  let relation : Relationship := if isLess then .le else .ge
  let comparison : Comparison := if isLess then .atMost else .atLeast
  if let some (left, right, r) := relation.arrange? Value.isExpression Value.isOperand a b then
    return ← inside (newRelation left right r)
  if let some v ← relateForms? relation a b then return v
  if let some v ← compareArrays? comparison a b then return v
  return comparisonResult a b (← reading fun s => s.ordered comparison a b)

/-- `a < b`. -/
def belowValues (a b : Value) : Script Value := do
  if let some v ← compareArrays? .below a b then return v
  return comparisonResult a b (← reading fun s => s.ordered .below a b)

/-- `a == b`: a constraint if one side is an expression and the other an operand. -/
def equateValues (a b : Value) : Script Value := do
  if let some (left, right, r) :=
      Relationship.eq.arrange? Value.isExpression Value.isOperand a b then
    return ← inside (newRelation left right r)
  if let some v ← relateForms? .eq a b then return v
  if let some v ← compareArrays? .equal a b then return v
  return comparisonResult a b (← reading fun s => s.equal a b)

/-- `a != b`: an expression differs from everything but itself. -/
def differValues (a b : Value) : Script Value := do
  if a.isExpression || (b.isExpression && !a.isForm) then return .truth (!a.isSame b)
  if let some v ← compareArrays? .different a b then return v
  return comparisonResult a b (!(← reading fun s => s.equal a b))

/-! ### Sums -/

/-- The sum of the items of a collection from a first value on, one after the other. -/
def chainSum [Calling] (items start : Value) : Script Value := do
  if let .text .. := start then
    fault .type "sum() can't sum strings [use ''.join(seq) instead]"
  (← iterate items).foldlM addValues start

/-- The sum of expressions and numbers in one pass. -/
def sumValues (items : List Value) : Script Value := do
  let es ← items.mapM toExpression
  newFrom items (← liftExpression (Expression.sum es))

/-- The mean of expressions and numbers. -/
def averageValues (items : List Value) : Script Value := do
  if items.isEmpty then failExpression .nothingToAverage
  let es ← items.mapM toExpression
  newFrom items (← liftExpression (Expression.average es))

/-! ### Reading expressions -/

/-- Values by the texts of their keys; of equal texts the last one's. -/
def valuesByText (entries : List (Value × Value)) : Script (Entries String Value) := do
  return Entries.ofList (← entries.mapM fun (k, v) => do return (← written k, v))

/-- Fails because a key is missing; the wording is quoted. -/
def failMissing {α : Type} (message : String) : Script α :=
  fail .missingKey (Text.quote message)

/-- The value of an expression at an assignment. -/
def evaluateValue [Calling] (v assignment : Value) : Script Value := do
  let values ← valuesByText (← itemsOf assignment)
  let e ← toExpression v
  let total ← e.evaluateWith toDouble (fun missing => failMissing missing.message) values
  return .ofReal total

/-- The coefficients of an expression as a mapping that cannot be changed. -/
def coefficientView (e : Expression Float) (ids : Entries VariableName Identity)
    (place : Nat) : Script Value :=
  newView (e.coefficients.map fun (name, c) =>
    (.name name ((ids.find? name).getD .shared),
      .real c (.part (.place place) ("coefficient of " ++ name.text))))

/-- Coefficients as a mapping that cannot be changed. -/
def coefficientMapping (cs : Coefficients Float) (ids : Entries VariableName Identity) :
    Script Value := do
  newView (← cs.mapM fun (name, c) => do
    return (.name name ((ids.find? name).getD .shared), ← stamp (.ofReal c)))

end LinModel.Session
