import LinModel.Session.Collections

/-!
# Arithmetic of plain values

Sums, differences, products and quotients of values that are no expressions. Integers and
fractions stay exact, and a double makes the result a double. A number of fixed width turns plain
numbers into its own kind; its integers wrap around, and dividing by zero gives an infinity or NaN.
Decimals combine with integers only. Texts, tuples and lists can be joined and repeated.

Key definitions: `combineNumbers?`, `combinePlain?`, `negatePlain`, `keepPlain`.
-/
namespace LinModel.Session

/-- Fails because an operation does not apply to two values. -/
def failOperation {α : Type} (op : Operation) (a b : Value) : Script α :=
  fault .type ("unsupported operand type(s) for " ++ op.symbol ++ ": '" ++ a.operandTypeName
    ++ "' and '" ++ b.operandTypeName ++ "'")

/-! ### Plain numbers -/

/-- The exact value of an integer, a truth value or a fraction. -/
def rational? (v : Value) : Option Rat :=
  match v with
  | .integer n _ => some n
  | .truth b => some (if b then 1 else 0)
  | .fraction q _ => some q
  | _ => none

/-- Whether a value is a fraction. -/
def isFraction (v : Value) : Bool :=
  match v with
  | .fraction .. => true
  | _ => false

/-- An operation on doubles that refuses to divide by zero. -/
def combineDoubles (op : Operation) (x y : Float) : Script Value := do
  if op = .div && y == 0.0 then fail .divisionByZero "float division by zero"
  return .ofReal (op.onDoubles x y)

/-- An operation on integers, truth values and fractions. A quotient of integers that is zero has
the sign of the quotient of the signs. -/
def combineExact (op : Operation) (a b : Value) (p q : Rat) : Script Value := do
  let fraction := isFraction a || isFraction b
  if op = .div && q == 0 then
    if fraction then
      fail .divisionByZero ("Fraction(" ++ (if p == 0 then "0" else if p < 0 then "-1" else "1")
        ++ ", 0)")
    fail .divisionByZero "division by zero"
  let r := op.onExact p q
  if fraction then return .fraction r .shared
  if op != .div then return .ofInt r.num
  let x := Number.nearest (decide (p < 0) != decide (q < 0)) r.num.natAbs r.den
  if x.isFinite then return .ofReal x
  fail .overflow "integer division result too large for a float"

/-- The decimal that a value combines with decimals as. -/
def asDecimal? (v : Value) : Option Number.Decimal :=
  match v with
  | .decimal d _ => some d
  | .integer n _ | .machine (.integer n) _ => some (.ofInt n)
  | .truth b | .machine (.truth b) _ => some (.ofInt (if b then 1 else 0))
  | _ => none

/-- An operation with a decimal. -/
def combineDecimals (op : Operation) (a b : Value) : Script Value := do
  match asDecimal? a, asDecimal? b with
  | some x, some y => match op.onDecimals x y with
    | .ok d => return .decimal d .shared
    | .error e => failDecimal e
  | _, _ => failOperation op a b

/-! ### Numbers of fixed width -/

/-- The number of fixed width that a plain number becomes beside another under an operation. -/
def widthOf (op : Operation) (beside : MachineNumber) (v : Value) :
    Script (Option MachineNumber) := do
  match v, beside with
  | .machine n _, _ => return some n
  | .truth b, _ => return some (.truth b)
  | .real x _, .single _ => return some (.single (Number.toSingle x))
  | .real x _, _ => return some (.double x)
  | .integer n _, .single _ => return some (.single (Number.toSingle (← integerToDouble n)))
  | .integer n _, .double _ => return some (.double (← integerToDouble n))
  | .integer n _, _ =>
    some <$> integerAt false (if op = .div then .double else .integer) n
  | _, _ => return none

/-- An operation on two numbers of fixed width. -/
def combineMachine (op : Operation) (a b : MachineNumber) : Script MachineNumber :=
  match (a.width.join b.width).combine? op a b with
  | some n => return n
  | none =>
    fault .type (ArrayError.truthSign false).message

/-- Fails for an operation other than a product of a number of fixed width and a text. -/
def refuseTextOperand (op : Operation) (a b : Value) : Script Unit :=
  match op, a, b with
  | .mul, _, _ => return
  | op, .machine n _, .text t _ =>
    fault .noNumericForm (noLoopMessage op.longTitle (typeText n.width) (textType t))
  | op, .text t _, .machine n _ =>
    fault .noNumericForm (noLoopMessage op.longTitle (textType t) (typeText n.width))
  | _, _, _ => return

/-- An operation on two numbers; nothing if one of the values is none. -/
def combineNumbers? (op : Operation) (a b : Value) : Script (Option Value) := do
  match a, b with
  | .decimal .., _ =>
    if (b.number?).isSome then some <$> combineDecimals op a b else return none
  | _, .decimal .. =>
    if (a.number?).isSome then some <$> combineDecimals op a b else return none
  | .fraction .., .machine (.double y) _ =>
    return some (.machine (.double (op.onDoubles (← toDouble a) y)) .shared)
  | .fraction .., .machine n _ => combinePlainNumbers a (plainOf n)
  | .machine n _, .fraction .. => combinePlainNumbers (plainOf n) b
  | .machine n _, _ => combineWidths a b n
  | _, .machine n _ => combineWidths a b n
  | _, _ => combinePlainNumbers a b
where
  /-- An operation on two plain numbers. -/
  combinePlainNumbers (a b : Value) : Script (Option Value) := do
    if (a.number?).isNone || (b.number?).isNone then return none
    match rational? a, rational? b with
    | some p, some q => some <$> combineExact op a b p q
    | _, _ =>
      let x ← toDouble a
      let y ← toDouble b
      some <$> combineDoubles op x y
  /-- An operation on two numbers of which one has a fixed width. -/
  combineWidths (a b : Value) (beside : MachineNumber) : Script (Option Value) := do
    match ← widthOf op beside a, ← widthOf op beside b with
    | some x, some y => return some (.machine (← combineMachine op x y) .shared)
    | _, _ =>
      refuseTextOperand op a b
      return none

/-! ### Sequences -/

/-- The most items for which a repeated sequence is made. -/
def largestSequence : Nat := 67108864

/-- A list repeated a number of times, not at all if that is negative. -/
def repeated {α : Type} (isText : Bool) (items : List α) (times : Int) : Script (List α) := do
  if times < -largestIndex - 1 || largestIndex < times then
    fail .overflow "cannot fit 'int' into an index-sized integer"
  let size := items.length * times.toNat
  if isText && largestIndex < size then fail .overflow "repeated string is too long"
  if largestSequence < size then fail .memory ""
  return if items.isEmpty then [] else (List.replicate times.toNat items).flatten

/-- A sequence repeated; nothing if the value is no sequence. -/
def repeat? (v : Value) (times : Int) : Script (Option Value) := do
  match v with
  | .text s _ => do return some (.ofText (String.ofList (← repeated true s.toList times)))
  | .tuple items _ => do return some (.ofTuple (← repeated false items times))
  | _ => match (← get).object? v with
    | some (.list items) => do some <$> newList (← repeated false items times)
    | _ => return none

/-- Two sequences joined; nothing if the first value is no sequence. -/
def join? (a b : Value) : Script (Option Value) := do
  let s ← get
  match a, b with
  | .text x _, .text y _ => return some (.ofText (x ++ y))
  | .tuple xs _, .tuple ys _ => return some (.ofTuple (xs ++ ys))
  | _, _ => match s.object? a, s.object? b with
    | some (.list xs), some (.list ys) => some <$> newList (xs ++ ys)
    | some (.list _), _ => refuse "list"
    | _, _ => match a with
      | .text .. => refuse "str"
      | .tuple .. => refuse "tuple"
      | _ => return none
where
  /-- Fails for what cannot be joined to a sequence. -/
  refuse {α : Type} (title : String) : Script α :=
    fault .type ("can only concatenate " ++ title ++ " (not \"" ++ b.longTypeName ++ "\") to "
      ++ title)

/-- An operation on two values that are no expressions; nothing if it does not apply. -/
def combinePlain? (op : Operation) (a b : Value) : Script (Option Value) := do
  if let some v ← combineNumbers? op a b then return some v
  if let some x ← reading fun s => s.combineArrays? op a b then return some (← arrayValue x)
  match op with
  | .add => join? a b
  | .mul =>
    let s ← get
    let isSequence := fun v : Value => match v with
      | .text .. | .tuple .. => true
      | v => match s.object? v with
        | some (.list _) => true
        | _ => false
    let sides := if isSequence a then some (a, b) else if isSequence b then some (b, a) else none
    match sides with
    | some (items, factor) => match ← indexOf factor with
      | some n => repeat? items n
      | none => match factor with
        | .machine .. => fault .type ("'" ++ factor.longTypeName
            ++ "' object cannot be interpreted as an integer")
        | v =>
          fault .type ("can't multiply sequence by non-int of type '" ++ v.longTypeName ++ "'")
    | none => return none
  | _ => return none

/-! ### Signs -/

/-- The wording for a sign that does not apply to a value. -/
def signMessage (sign : String) (v : Value) : String :=
  "bad operand type for unary " ++ sign ++ ": '" ++ v.longTypeName ++ "'"

/-- The opposite of a value that is no expression. -/
def negatePlain (v : Value) : Script Value := do
  match v with
  | .integer n _ => return .ofInt (-n)
  | .truth b => return .ofInt (if b then -1 else 0)
  | .real x _ => return .ofReal (-x)
  | .fraction q _ => return .fraction (-q) .shared
  | .machine n _ => match n with
    | .double x => return .machine (.double (-x)) .shared
    | .single x => return .machine (.single (-x)) .shared
    | .integer n => return .machine (.integer (wrapped (-n))) .shared
    | .truth _ =>
      fault .type (ArrayError.truthSign true).message
  | .decimal d _ => match d.neg with
    | .ok d => return .decimal d .shared
    | .error e => failDecimal e
  | _ => match (← get).array? v with
    | some a => negateArray a
    | none => fault .type (signMessage "-" v)

/-- A value that is no expression under a plus sign. -/
def keepPlain (v : Value) : Script Value := do
  match v with
  | .truth b => return .ofInt (if b then 1 else 0)
  | .integer .. | .real .. | .fraction .. => return v
  | .machine (.truth _) _ => fault .type (signMessage "+" v)
  | .machine n _ => return .machine n .shared
  | .decimal d _ => match d.pos with
    | .ok d => return .decimal d .shared
    | .error e => failDecimal e
  | _ => match (← get).array? v with
    | some _ => return v
    | none => fault .type (signMessage "+" v)

end LinModel.Session
