import LinModel.Expression.Operators
import LinModel.Session.Arrays
import LinModel.Session.Forms
import LinModel.Sorting.Runs

/-!
# Comparing session values

Numbers of different kinds are compared by their exact values, except that a number of fixed width
turns what it is compared with into a number of its own width. Collections are compared item by
item, and so are records; every value equals itself there, also a NaN. Comparing an expression
with an expression or a number makes a constraint, which has no truth value, so a comparison of
collections that comes to such items fails.

Key definitions: `numbersEqual?`, `numbersOrdered?`, `Store.placewise?`, `Store.same`,
`Store.ordered`, `sameValue`, `anyEqual`, `sortValues`.
-/
namespace LinModel.Session

/-! ### Numbers -/

/-- A plain number that a number of a width is compared with, as far as it is a double or an
integer. -/
def plainBeside? (w : Width) (v : Value) : Reading (Option MachineNumber) := do
  match v with
  | .truth b => return some (.truth b)
  | .real x _ => return some (.double x)
  | .integer n _ => match w with
    | .integer => return some (.integer n)
    | .truth => some <$> integerAt false .truth n
    | _ => return some (.double (← integerToDouble n))
  | _ => return none

/-- The exact values of two numbers of fixed width as they are compared, at a width that holds
both; beside a number of single precision a plain one has that precision too. -/
def widthNumbers (isPlain : Bool) (a b : MachineNumber) : Exact × Exact :=
  match a, b with
  | .single x, b => if isPlain then single x b.toFloat else doubles x b.toFloat
  | a, .single y => if isPlain then single a.toFloat y else doubles a.toFloat y
  | .double x, b => doubles x b.toFloat
  | a, .double y => doubles a.toFloat y
  | a, b => (a.exact, b.exact)
where
  /-- Two doubles. -/
  doubles (x y : Float) : Exact × Exact := (.ofFloat x, .ofFloat y)
  /-- Two doubles rounded to single precision. -/
  single (x y : Float) : Exact × Exact := doubles (Number.toSingle x) (Number.toSingle y)

/-- Two numbers as they are compared. -/
def commonNumbers? (a b : Value) : Reading (Option (Exact × Exact)) := do
  let exact := do return (← a.number?, ← b.number?)
  match a, b with
  | .machine x _, .machine y _ => return some (widthNumbers false x y)
  | .machine x _, b => match ← plainBeside? x.width b with
    | some y => return some (widthNumbers true x y)
    | none => return exact
  | a, .machine y _ => match ← plainBeside? y.width a with
    | some x => return some (widthNumbers true x y)
    | none => return exact
  | _, _ => return exact

/-- Whether a value is a decimal that signals. -/
def Value.isSignaling : Value → Bool
  | .decimal (.notANumber _ true _) _ => true
  | _ => false

/-- Whether a value is a decimal. -/
def Value.isDecimal : Value → Bool
  | .decimal .. => true
  | _ => false

/-- The wording for an operation on decimals without a result. -/
def decimalMessage : Number.DecimalError → String
  | .malformed => "[<class 'decimal.ConversionSyntax'>]"
  | .divisionByZero => "[<class 'decimal.DivisionByZero'>]"
  | .divisionUndefined => "[<class 'decimal.DivisionUndefined'>]"
  | .invalid => "[<class 'decimal.InvalidOperation'>]"
  | .overflow => "[<class 'decimal.Overflow'>]"

/-- Fails because an operation on decimals has no result. -/
def failDecimal {m : Type → Type} [MonadExceptOf Failure m] {α : Type}
    (e : Number.DecimalError) : m α := fail (.decimal e) (decimalMessage e)

/-- Fails for a decimal before an integer of fixed width, which has no decimal. -/
def refuseDecimal (a b : Value) : Reading Unit := do
  match a, b with
  | .decimal .., .machine (.integer _) _ =>
    fault .type ("conversion from " ++ b.longTypeName ++ " to Decimal is not supported")
  | _, _ => return

/-- Whether two numbers are equal; nothing if one is no number. -/
def numbersEqual? (a b : Value) : Reading (Option Bool) := do
  refuseDecimal a b
  match ← commonNumbers? a b with
  | some (x, y) =>
    if a.isSignaling || b.isSignaling then failDecimal .invalid
    return some (x.equal y)
  | none => return none

/-- Whether an order holds between two numbers; nothing if one is no number. A fraction is compared
with an integer of fixed width after both are multiplied by its denominator, which may make the
integer wrap around. -/
def numbersOrdered? (c : Comparison) (a b : Value) : Reading (Option Bool) := do
  refuseDecimal a b
  match a, b with
  | .fraction q _, .machine (.integer n) _ =>
    let den : Int := q.den
    if wrapped den != den then fail .overflow "Python int too large to convert to C long"
    return some (c.holds (· < ·) (· == ·) q.num (wrapped (den * n)))
  | _, _ => match ← commonNumbers? a b with
    | some (x, y) =>
      if (a.isDecimal || b.isDecimal) && (x.isNaN || y.isNaN) then failDecimal .invalid
      return some (c.holds Exact.less Exact.equal x y)
    | none => return none

/-! ### Numbers and arrays -/

/-- A number of fixed width as the plain number that equals it. -/
def plainOf : MachineNumber → Value
  | .double x | .single x => .ofReal x
  | .integer n => .ofInt n
  | .truth b => .truth b

/-- Whether a comparison of two numbers holds. Values that are no numbers differ, and have no
order. -/
def numbersCompared (c : Comparison) (a b : Value) : Reading Bool := do
  match c with
  | .equal => return (← numbersEqual? a b) = some true
  | .different => return (← numbersEqual? a b) != some true
  | c => match ← numbersOrdered? c a b with
    | some holds => return holds
    | none => fault .type ("'" ++ c.symbol ++ "' not supported between instances of '"
        ++ a.operandTypeName ++ "' and '" ++ b.operandTypeName ++ "'")

/-- A comparison of an array's numbers with values under a shape, place by place. -/
def compareValues (c : Comparison) (side : Store.OutsideSide) (shape : List Nat)
    (items : List Value) : Reading NumArray := do
  let x := side.array
  match NumArray.commonShape? x.shape shape with
  | none =>
    let (left, right) := if side.isLeft then (x.shape, shape) else (shape, x.shape)
    liftArray (.error (.operands left right))
  | some common =>
    let others := NumArray.spreadDims (NumArray.padShape common.length shape) common items
    let truths ← ((x.spread common).zip others).mapM fun (n, v) => do
      let n := plainOf n
      return .truth (← if side.isLeft then numbersCompared c n v else numbersCompared c v n)
    return ⟨false, .ofWidth .truth, common, truths⟩

/-- A comparison of an array's numbers with texts under a shape: all differ, and none has an
order. -/
def compareTexts (c : Comparison) (side : Store.OutsideSide) (shape : List Nat) (size : Nat) :
    Reading NumArray := do
  if !c.isEquality then Store.refuseTexts c.title side size
  match NumArray.commonShape? side.array.shape shape with
  | some common =>
    return ⟨false, .ofWidth .truth, common,
      List.replicate (sizeOf common) (.truth (c = .different))⟩
  | none =>
    fail .value ("shape mismatch: objects cannot be broadcast to a single shape.  Mismatch is "
      ++ "between arg 0 with shape " ++ shapeText side.array.shape ++ " and arg 1 with shape "
      ++ shapeText shape ++ ".")

/-- A comparison of an array with another value, place by place; nothing if neither value is an
array or the other value does not go with it. -/
def Store.placewise? (s : Store) (c : Comparison) (a b : Value) : Reading (Option NumArray) := do
  match s.outsideSide? a b with
  | none => s.compareArrays? c a b
  | some side =>
    match ← s.companion side.other with
    | .numbers _ => s.compareArrays? c a b
    | .texts shape size => some <$> compareTexts c side shape size
    | .values shape items =>
      if items.all fun v => (listedNumber? v).isSome then s.compareArrays? c a b
      else some <$> compareValues c side shape items

/-- Fails for the order of a number of fixed width and a text. -/
def refuseText (c : Comparison) (a b : Value) : Reading Unit := do
  match a, b with
  | .machine n _, .text t _ =>
    fault .noNumericForm (noLoopMessage c.title (typeText n.width) (textType t))
  | .text t _, .machine n _ =>
    fault .noNumericForm (noLoopMessage c.title (textType t) (typeText n.width))
  | _, _ => return

namespace Store

/-- The constraint that comparing two values would make, as a failure to have a truth value. -/
def failUndecided {α : Type} (s : Store) (left right : Value) : Reading α := do
  let side := fun v : Value =>
    if v.isExpression then s.written v
    else do
      match Expression.ofScalar (← s.toDouble v) with
      | .ok e => return e.toText
      | .error e => fail .value e.message
  fail .type (undecidedMessage
    ("Constraint(" ++ (← side left) ++ " == " ++ (← side right) ++ ")"))

/-- The parts of a value that is compared part by part, under a tag that must agree. -/
def parts? (s : Store) (v : Value) : Option (String × List Value) :=
  match v with
  | .tuple items _ => some ("tuple", items)
  | .slice a b c _ => some ("slice", [a, b, c])
  | .selector key isAny _ => some ("Selector", [key, isAny])
  | .part c fields _ => some (c.title, fields)
  | _ => match s.object? v with
    | some (.list items) => some ("list", items)
    | some (.record c fields) => c.comparedFields?.map fun names =>
      (c.title, names.map fun name => (fields.find? name).getD .none)
    | _ => none

mutual

/-- Whether two values are one or equal, to a given depth of collections. -/
def matchesTo (s : Store) (fuel : Nat) (a b : Value) : Reading Bool :=
  match fuel with
  | 0 => fail .recursion "maximum recursion depth exceeded in comparison"
  | fuel + 1 => if a.isSame b then return true else equalTo s fuel a b

/-- Whether two values are equal, to a given depth of collections. -/
def equalTo (s : Store) (fuel : Nat) (a b : Value) : Reading Bool :=
  match fuel with
  | 0 => fail .recursion "maximum recursion depth exceeded in comparison"
  | fuel + 1 => do
    if let some (left, right, _) :=
        Relationship.eq.arrange? Value.isExpression Value.isOperand a b then
      s.failUndecided left right
    if ← s.makesRelation a b then failRelation
    match s.parts? a, s.parts? b with
    | some (t, as), some (u, bs) =>
      if t != u then return false
      if t == "list" && as.length != bs.length then return false
      return (← allMatchTo s fuel as bs) && as.length == bs.length
    | _, _ => match s.entries? a, s.entries? b with
      | some as, some bs =>
        if as.length != bs.length then return false
        entriesMatchTo s fuel as bs
      | _, _ => match ← s.placewise? .equal a b with
        | some r => arrayTruth r
        | none => match ← numbersEqual? a b with
          | some equal => return equal
          | none => return a.sameKey b

/-- Whether the items of two lists match, as far as both go. -/
def allMatchTo (s : Store) (fuel : Nat) (as bs : List Value) : Reading Bool :=
  match fuel with
  | 0 => fail .recursion "maximum recursion depth exceeded in comparison"
  | fuel + 1 => match as, bs with
    | a :: as, b :: bs => do
      if ← matchesTo s fuel a b then allMatchTo s fuel as bs else return false
    | _, _ => return true

/-- Whether the second mapping has matching values for all keys of the first. -/
def entriesMatchTo (s : Store) (fuel : Nat) (as bs : Entries Value Value) : Reading Bool :=
  match fuel with
  | 0 => fail .recursion "maximum recursion depth exceeded in comparison"
  | fuel + 1 => match as with
    | [] => return true
    | (k, v) :: rest => do
      requireKeyAmong (List.map Prod.fst bs) k
      match Entries.find? k bs with
      | some w => if ← matchesTo s fuel v w then entriesMatchTo s fuel rest bs else return false
      | none => return false

end

/-- How far comparisons go. -/
def comparisonDepth : Nat := 100000

/-- Whether two values are equal. -/
def equal (s : Store) (a b : Value) : Reading Bool := s.equalTo comparisonDepth a b

/-- Whether two values are one or equal. -/
def same (s : Store) (a b : Value) : Reading Bool := s.matchesTo comparisonDepth a b

/-- Whether an order holds between two values, to a given depth of collections; the first items
that differ decide between collections. -/
def orderedTo (s : Store) (o : Comparison) (fuel : Nat) (a b : Value) : Reading Bool :=
  match fuel with
  | 0 => fail .recursion "maximum recursion depth exceeded in comparison"
  | fuel + 1 => do
    let unordered : Reading Bool := fault .type ("'" ++ o.symbol
      ++ "' not supported between instances of '" ++ a.operandTypeName ++ "' and '"
      ++ b.operandTypeName ++ "'")
    if ← s.makesRelation a b then
      if o = .below then failStrict else failRelation
    match a, b with
    | .text x _, .text y _ => return o.holds (· < ·) (· == ·) x y
    | .name x _, .name y _ => return o.holds (· < ·) (· == ·) x.text y.text
    | _, _ => match s.parts? a, s.parts? b with
      | some (t, as), some (u, bs) => do
        if t != u || (t != "tuple" && t != "list" && t != "slice") then unordered
        else
          let common := as.zip bs
          let rec decide : List (Value × Value) → Reading Bool
            | [] => return o.holds (· < ·) (· == ·) as.length bs.length
            | (x, y) :: rest => do
              if ← s.same x y then decide rest else orderedTo s o fuel x y
          decide common
      | _, _ => match ← s.placewise? o a b with
        | some r => arrayTruth r
        | none =>
          refuseText o a b
          match ← numbersOrdered? o a b with
          | some holds => return holds
          | none => unordered

/-- Whether an order holds between two values. -/
def ordered (s : Store) (o : Comparison) (a b : Value) : Reading Bool := s.orderedTo o depth a b

end Store

/-- Whether two values are one or equal. -/
def sameValue (a b : Value) : Script Bool := reading fun s => s.same a b

/-- Whether some item is a value or equals it; items are compared in order up to the first. -/
def anyEqual (v : Value) : List Value → Script Bool
  | [] => return false
  | item :: rest => do
    if ← sameValue item v then return true
    anyEqual v rest

/-! ### Sorting -/

/-- The values in order; equal ones keep their order. -/
def sortValues (s : Store) (values : List Value) : Reading (List Value) :=
  Sorting.sort (s.ordered .below) values

end LinModel.Session
