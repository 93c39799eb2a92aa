import LinModel.Session.Conversion
import LinModel.Session.Indexing

/-!
# Arrays in a session

Operators, indices and comparisons of numerical arrays with each other and with other values. On
the device a number stands for an array of its own width, or for a plain one if it was written
down plainly; lists are refused, and other values do not apply. Outside the device collections of
numbers count as arrays, too, and every value can be compared for equality, place by place.

Key definitions: `liftArray`, `arrayValue`, `Store.arrayOperand?`, `combineArrays?`,
`Store.compareArrays?`, `axisIndices`, `arrayItem`, `writeToArray`.
-/
namespace LinModel.Session

section Failing

variable {m : Type → Type} [Monad m] [MonadExceptOf Failure m] {α : Type}

/-- The kind of failure that an error of arrays is. -/
def arrayFailureKind : ArrayError → FailureKind
  | .shapes .. | .truthValues .. | .truthSign _ | .contraction .. => .type
  | .ranks .. | .operands .. | .noDimension => .value
  | .tooManyIndices .. | .place .. | .emptyAxis _ | .mask .. | .indexShapes .. => .missingIndex

/-- The result of an operation on arrays. -/
def liftArray (r : Except ArrayError α) : m α :=
  match r with
  | .ok a => pure a
  | .error (.truthSign isUnary) => fault .type (ArrayError.truthSign isUnary).message
  | .error e => fail (arrayFailureKind e) e.message

end Failing

/-- An array as a value; a single number outside the device is a number of its own. -/
def arrayValue (a : NumArray) : Script Value :=
  match a.onDevice, a.shape, a.numbers with
  | false, [], [n] => return .machine n .shared
  | _, _, _ => alloc (.array a)

/-! ### Types in words -/

/-- The type of numbers of a width in a message. -/
def typeText (w : Width) : String := "dtype('" ++ w.title ++ "')"

/-- The type of a text in an array. -/
def textType (t : String) : String := "dtype('<U" ++ toString (max 1 t.length) ++ "')"

/-- The wording for a numerical operation that has no form for the types of its operands. -/
def noLoopMessage (title left right : String) : String :=
  "ufunc '" ++ title ++ "' did not contain a loop with signature matching types (" ++ left ++ ", "
    ++ right ++ ") -> None"

/-- Fails for nested collections that have no common shape beyond the given one. -/
def failRagged {m : Type → Type} [MonadExceptOf Failure m] {α : Type} (shape : List Nat) : m α :=
  fail .value ("setting an array element with a sequence. The requested array has an inhomogeneous "
    ++ "shape after " ++ toString shape.length ++ " dimensions. The detected shape was "
    ++ shapeText shape ++ " + inhomogeneous part.")

/-! ### Operands -/

/-- The number that a plain integer becomes where numbers of a width are wanted. Outside the device
it must fit; on it an integer without a sign wraps around. -/
def integerAt {m : Type → Type} [Monad m] [MonadExceptOf Failure m] (onDevice : Bool)
    (w : Width) (n : Int) : m MachineNumber :=
  match w with
  | .truth | .integer =>
    if wrapped n = n ∨ (onDevice ∧ 0 ≤ n ∧ n < 18446744073709551616) then
      pure (.integer (wrapped n))
    else fail .overflow "Python int too large to convert to C long"
  | _ => do return .double (← integerToDouble n)

/-- A plain number beside an array with an operation that has results of a type. -/
def plainNumber? {m : Type → Type} [Monad m] [MonadExceptOf Failure m] (beside : NumArray)
    (isQuotient : Bool) (v : Value) : m (Option NumArray) :=
  let onDevice := beside.onDevice
  match v with
  | .truth b => pure (some (.ofNumber onDevice false (.truth b)))
  | .integer n _ => do
    let met := beside.element.join onDevice ⟨.integer, true⟩
    let number ← integerAt onDevice (if isQuotient then .double else met.width) n
    return some ⟨onDevice, ⟨.integer, true⟩, [], [number]⟩
  | .real x _ => pure (some (.ofNumber onDevice true (.double x)))
  | .machine n _ => pure (some (.ofNumber onDevice false n))
  | .fraction q _ => pure (if onDevice then none
      else some (.ofNumber false true (.double (Exact.ofRat q).toFloat)))
  | _ => pure none

/-- The number of fixed width that a number in a collection is. -/
def listedNumber? : Value → Option MachineNumber
  | .truth b => some (.truth b)
  | .integer n _ => some (if wrapped n = n then .integer n else .double (Number.nearestInt n))
  | .real x _ => some (.double x)
  | .machine n _ => some n
  | _ => none

namespace Store

/-- The array that a value is. -/
def array? (s : Store) (v : Value) : Option NumArray :=
  match s.object? v with
  | some (.array a) => some a
  | _ => none

/-- The items of a list or tuple. -/
def listed? (s : Store) (v : Value) : Option (List Value) :=
  match v with
  | .tuple items _ => some items
  | v => match s.object? v with
    | some (.list items) => some items
    | _ => none

/-- The items that a list, a tuple or a tensor has for an array outside the device. -/
def sequence? (s : Store) (v : Value) : Option (List Value) :=
  match s.object? v with
  | some (.tensor t _) => some (t.items.map Prod.snd)
  | _ => s.listed? v

/-- The array outside the device that a value makes in a collection: a number, an array, or a
collection whose items make arrays of one shape, to a given depth. -/
def gatheredTo? (s : Store) (fuel : Nat) (v : Value) : Option NumArray :=
  match fuel with
  | 0 => none
  | fuel + 1 =>
    match listedNumber? v, s.array? v with
    | some n, _ => some (.ofNumber false false n)
    | none, some a => some { a with onDevice := false }
    | none, none => do NumArray.stack? false (← (← s.sequence? v).mapM (s.gatheredTo? fuel))

/-- The most dimensions of an array outside the device. -/
def largestRank : Nat := 64

/-- The array outside the device that a collection makes. -/
def gathered? (s : Store) (v : Value) : Option NumArray := do
  NumArray.stack? false (← (← s.sequence? v).mapM (s.gatheredTo? largestRank))

/-- The shape that all shapes begin with. -/
def sharedShape : List (List Nat) → List Nat
  | [] => []
  | shape :: rest =>
    rest.foldl (fun known other =>
      ((known.zip other).takeWhile fun (m, n) => m = n).map Prod.fst) shape

/-- Nested collections as an array: their items under the shape that all of them have in common,
which is the whole shape unless they are uneven. -/
structure Nested where
  shape : List Nat
  items : List Value
  isUneven : Bool

/-- Nested collections side by side. -/
def Nested.join (parts : List Nested) : Nested :=
  let shape := sharedShape (parts.map (·.shape))
  ⟨parts.length :: shape, parts.flatMap (·.items),
    parts.any fun p => p.isUneven || p.shape != shape⟩

/-- The nested collections that a value is, to a given depth. -/
def nested (s : Store) (fuel : Nat) (v : Value) : Nested :=
  match fuel with
  | 0 => ⟨[], [v], false⟩
  | fuel + 1 =>
    match s.array? v, s.sequence? v with
    | some a, _ => ⟨a.shape, a.numbers.map fun n => .machine n .shared, false⟩
    | none, some items => .join (items.map (s.nested fuel))
    | none, none => ⟨[], [v], false⟩

/-- The shape of nested collections and the items in them. -/
def Nested.even (n : Nested) : Reading (List Nat × List Value) :=
  if n.isUneven then failRagged n.shape else return (n.shape, n.items)

/-- The shape of the nested collections that a value is and the items in them. -/
def nestedItems (s : Store) (v : Value) : Reading (List Nat × List Value) :=
  (s.nested largestRank v).even

/-- The double that a value becomes as an item of an array of doubles outside the device; nothing
becomes a NaN. -/
def itemDouble (s : Store) (v : Value) : Reading Float :=
  match v with
  | .none => return 0.0 / 0.0
  | .text t _ => match Number.read? t with
    | some x => return x
    | none => fail .value ("could not convert string to float: np.str_(" ++ Text.quote t ++ ")")
  | v => match s.toDouble v with
    | .ok x => return x
    | .error e => throw { e with isFault := false }

/-- The double that is written to a single place of an array. -/
def placeDouble (s : Store) (v : Value) : Reading Float :=
  tryCatch (s.toDouble v) fun e =>
    if (s.sequence? v).isSome || (s.array? v).isSome then
      fail .value "setting an array element with a sequence."
    else throw e

/-- Whether an operation repeats a collection, and does not combine its items. -/
def repeats (s : Store) (op : Operation) (v : Value) : Bool :=
  op = .mul && match s.object? v with
    | some (.tensor ..) => false
    | _ => true

/-- What a value counts as beside an array outside the device. -/
inductive Companion
  | numbers (a : NumArray)
  /-- Texts, perhaps with numbers among them, under a shape; the longest has a size. -/
  | texts (shape : List Nat) (size : Nat)
  /-- Any values under a shape. -/
  | values (shape : List Nat) (items : List Value)

/-- How long a text is that stands in an array, or that a number becomes beside texts. -/
def textSize? (v : Value) : Option Nat :=
  match v with
  | .text t _ => some (max 1 t.length)
  | v => (listedNumber? v).map fun n => match n.width with
    | .truth => 5
    | .integer => 21
    | .single | .double => 32

/-- What a value that is no array counts as beside an array outside the device. -/
def companion (s : Store) (v : Value) : Reading Companion := do
  if let some a := s.gathered? v then return .numbers a
  let (shape, items) ← s.nestedItems v
  let isText := fun v : Value => match v with
    | .text .. => true
    | _ => false
  if items.any isText then
    if let some sizes := items.mapM textSize? then return .texts shape (sizes.foldl max 1)
  return .values shape items

/-- The doubles that some values are beside doubles: fractions count as the nearest ones. -/
def doublesBeside? (items : List Value) : Option (List MachineNumber) :=
  items.mapM fun v => match v with
    | .fraction q _ => some (.double (Exact.ofRat q).toFloat)
    | v => (listedNumber? v).map (.convert .double)

/-- A value as an operand beside an array, if it is one. -/
def arrayOperand? (s : Store) (beside : NumArray) (isQuotient : Bool) (v : Value) :
    Reading (Option NumArray) := do
  if let some a := s.array? v then return some a
  if let some a ← plainNumber? beside isQuotient v then return some a
  if beside.onDevice || (s.sequence? v).isNone then return none
  match ← s.companion v with
  | .numbers a => return some a
  | .texts .. => return none
  | .values shape items =>
    if beside.width = .double then
      return (doublesBeside? items).map fun numbers => ⟨false, .ofWidth .double, shape, numbers⟩
    return none

/-- Fails for a list beside an array on the device. -/
def refuseList (s : Store) (sign : String) (a b : Value) : Reading Unit := do
  let isList := fun v : Value => match v with
    | .object .list _ => true
    | _ => false
  let onDevice := fun v : Value => match s.array? v with
    | some x => x.onDevice
    | none => false
  if (isList a && onDevice b) || (isList b && onDevice a) then
    fail .type ("unsupported operand type(s) for " ++ sign ++ ": '" ++ a.typeName ++ "' and '"
      ++ b.typeName ++ "'")

/-- An array outside the device and the value on its other side. -/
structure OutsideSide where
  array : NumArray
  other : Value
  /-- Whether the array stands on the left. -/
  isLeft : Bool

/-- Two values of which one is an array outside the device, or a number of fixed width beside a
collection, and the other is no array; expressions do not go with arrays. -/
def outsideSide? (s : Store) (a b : Value) : Option OutsideSide :=
  if a.isExpression || b.isExpression then none
  else match s.array? a, s.array? b with
    | some x, none => if x.onDevice then none else some ⟨x, b, true⟩
    | none, some y => if y.onDevice then none else some ⟨y, a, false⟩
    | some _, some _ => none
    | none, none => match a, b with
      | .machine n _, b =>
        if (s.sequence? b).isSome then some ⟨.ofNumber false false n, b, true⟩ else none
      | a, .machine n _ =>
        if (s.sequence? a).isSome then some ⟨.ofNumber false false n, a, false⟩ else none
      | _, _ => none

/-- Fails for an operation or an order between an array's numbers and texts of a size. -/
def refuseTexts {α : Type} (title : String) (side : OutsideSide) (size : Nat) : Reading α :=
  let numbers := typeText side.array.width
  let texts := textType (String.ofList (List.replicate size ' '))
  fault .noNumericForm (if side.isLeft then noLoopMessage title numbers texts
    else noLoopMessage title texts numbers)

/-- Two values as arrays, if one of them is an array, or a number of fixed width beside a
collection, and the other goes with it. -/
def arrayPair? (s : Store) (isQuotient : Bool) (a b : Value) :
    Reading (Option (NumArray × NumArray)) := do
  match s.array? a, s.array? b with
  | some x, _ => return (← s.arrayOperand? x isQuotient b).map fun y => (x, y)
  | none, some y => return (← s.arrayOperand? y isQuotient a).map fun x => (x, y)
  | none, none => match s.outsideSide? a b with
    | some ⟨x, v, isLeft⟩ =>
      return (← s.arrayOperand? x isQuotient v).map fun y => if isLeft then (x, y) else (y, x)
    | none => return none

/-- An operation of an array with another value, or of a number of fixed width with a collection
unless it repeats it; nothing for other values, or if one does not go with the other. -/
def combineArrays? (s : Store) (op : Operation) (a b : Value) : Reading (Option NumArray) := do
  s.refuseList op.symbol a b
  if (s.array? a).isNone && (s.array? b).isNone && s.repeats op a && s.repeats op b then
    return none
  match ← s.arrayPair? (op = .div) a b with
  | some (x, y) => some <$> liftArray (x.combine op y)
  | none =>
    if let some side := s.outsideSide? a b then
      if let .texts _ size ← s.companion side.other then refuseTexts op.longTitle side size
    return none

/-- The sign that an operand on the right of a comparison sees. -/
def swapped : Comparison → String
  | .below => ">"
  | .atMost => ">="
  | .atLeast => "<="
  | .equal | .different => "=="

/-- A comparison of an array with a number or another array, or of a number of fixed width with a
collection of numbers, place by place; nothing for other values. -/
def compareArrays? (s : Store) (c : Comparison) (a b : Value) : Reading (Option NumArray) := do
  match s.array? a with
  | some _ => s.refuseList (if c.isEquality then "==" else c.symbol) a b
  | none => s.refuseList (swapped c) b a
  match ← s.arrayPair? false a b with
  | some (x, y) => some <$> liftArray (x.compare c y)
  | none => return none

/-- Whether an array counts as true, which one of several numbers does not say. -/
def arrayTruth (a : NumArray) : Reading Bool :=
  match a.numbers with
  | [x] => return !x.isZero
  | [] => fail .value ("The truth value of an empty array is ambiguous. "
      ++ "Use `array.size > 0` to check that an array is not empty.")
  | _ => fail .value ("The truth value of an array with more than one element is ambiguous. "
      ++ "Use a.any() or a.all()")

end Store

/-- The opposite of an array. -/
def negateArray (a : NumArray) : Script Value := do arrayValue (← liftArray a.negate)

/-! ### Classes in words -/

/-- The name of a class of values together with where it belongs, in brackets. -/
def classText (v : Value) : String :=
  match v with
  | .member m => "<enum '" ++ m.setName ++ "'>"
  | .fraction .. => "<class 'fractions.Fraction'>"
  | v => "<class '" ++ v.definedName ++ "'>"

/-- Fails for a number that the device cannot hold. -/
def failForeign {α : Type} (v : Value) : Script α := do
  fail .type ("asarray: expected ArrayLike, got " ++ (← inserted v) ++ " of type " ++ classText v
    ++ ".")

/-! ### Indices -/

/-- The wording for a key that is no index of an array on the device. -/
def noIndexMessage (onDevice : Bool) : String :=
  "only integers, slices (`:`), ellipsis (`...`), " ++ (if onDevice then "newaxis" else
    "numpy.newaxis") ++ " (`None`) and integer or boolean arrays are valid indices"

/-- The index that an array of places or of truth values stands for. -/
def arrayIndex? (a : NumArray) : Option AxisIndex :=
  match a.width, a.shape with
  | .integer, [] => a.numbers.head?.map fun n => .place n.toInt
  | .integer, shape => some (.gather shape (a.numbers.map MachineNumber.toInt))
  | .truth, [] => a.numbers.head?.map fun n => .newAxis (if n.isZero then 0 else 1)
  | .truth, shape => some (.mask shape (a.numbers.map (!·.isZero)))
  | _, _ => none

/-- Fails for a key on the device whose numbers are no places. -/
def failIndexer {α : Type} (w : Width) (position : Nat) (k : Value) : Script α := do
  fail .type ("Indexer must have integer or boolean type, got indexer with type " ++ w.title
    ++ " at position " ++ toString position ++ ", indexer value " ++ (← inserted k))

/-- The index that an array, or a collection that makes one, stands for; a collection of nothing
selects nothing. -/
def collectionIndex (a : NumArray) (position : Nat) (k : Value) : Script AxisIndex := do
  let s ← get
  if let some x := s.array? k then
    if let some index := arrayIndex? x then return index
    if a.onDevice then failIndexer x.width position k
    if !x.onDevice then
      fail .missingIndex "arrays used as indices must be of integer (or boolean) type"
    if x.numbers.isEmpty then return .gather x.shape []
  else if (if a.onDevice then s.listed? k else s.sequence? k).isSome then
    let (shape, items) ← reading fun s => s.nestedItems k
    if items.isEmpty then return .gather shape []
    if let some x := s.gathered? k then
      if let some index := arrayIndex? x then return index
      if a.onDevice then failIndexer x.width position k
  if a.onDevice then fail .missingIndex (noIndexMessage true ++ ". Got " ++ (← inserted k))
  fail .missingIndex (noIndexMessage false)

/-- The index that a key stands for along an array's dimensions. -/
def axisIndex (a : NumArray) (position : Nat) (k : Value) : Script AxisIndex := do
  match k with
  | .none => return .newAxis 1
  | .truth b | .machine (.truth b) _ => return .newAxis (if b then 1 else 0)
  | .slice start stop step _ => do return .places (← rangeBounds start stop step).places
  | .integer n _ =>
    if wrapped n = n then return .place n
    else if a.onDevice then
      fail .overflow ("Python int " ++ toString n ++ " too large to convert to int64")
    else fail .missingIndex "cannot fit 'int' into an index-sized integer"
  | .machine (.integer n) _ => return .place n
  | .real .. | .machine .. =>
    if a.onDevice then
      let w := match k with
        | .machine n _ => n.width
        | _ => .double
      failIndexer w position k
    else fail .missingIndex (noIndexMessage false)
  | .text .. =>
    if a.onDevice then
      fail .type ("JAX does not support string indexing; got idx=" ++ (← shown k))
    else fail .missingIndex (noIndexMessage false)
  | k => collectionIndex a position k

/-- The indices that a key stands for. -/
def axisIndices (a : NumArray) (k : Value) : Script (List AxisIndex) := do
  match k with
  | .tuple ks _ => ks.zipIdx.mapM fun (k, i) => axisIndex a i k
  | .object .list _ =>
    if !a.onDevice then return [← axisIndex a 0 k]
    let items := ((← get).listed? k).getD []
    let isNested := fun v : Value => match v with
      | .none | .slice .. | .text .. | .tuple .. => true
      | .object c _ => c == .list || c == .array true || c == .array false
      | _ => false
    fail .type ("Using a non-tuple sequence for multidimensional indexing is not allowed; use "
      ++ "`arr[" ++ (if items.any isNested then "tuple" else "array") ++ "(seq)]` instead of "
      ++ "`arr[seq]`. See https://github.com/jax-ml/jax/issues/4564 for more information.")
  | k => return [← axisIndex a 0 k]

/-- The part of an array under a key. -/
def arrayItem (a : NumArray) (k : Value) : Script Value := do
  arrayValue (← liftArray (a.select (← axisIndices a k)))

/-- Fails because the shape of what is written to a part of an array does not fit it. -/
def failMisfit {α : Type} (indices : List AxisIndex) (new part : List Nat) : Script α :=
  fail .value (match indices with
    | [.mask ..] =>
      "NumPy boolean array indexing assignment cannot assign " ++ toString (sizeOf new)
        ++ " input values to the " ++ toString (sizeOf part)
        ++ " output values where the mask is true"
    | _ =>
      if indices.any isTable then
        "shape mismatch: value array of shape " ++ shapeText new
          ++ " could not be broadcast to indexing result of shape " ++ shapeText part
      else "could not broadcast input array from shape " ++ shapeText new ++ " into shape "
        ++ shapeText part)
where
  /-- Whether an index is an array. -/
  isTable : AxisIndex → Bool
    | .gather .. | .mask .. => true
    | _ => false

/-- An array outside the device with the part under a key replaced by a value. -/
def writeToArray (a : NumArray) (k v : Value) : Script NumArray := do
  if a.onDevice then
    fail .type ("JAX arrays are immutable and do not support in-place item assignment. Instead of "
      ++ "x[idx] = y, use x = x.at[idx].set(y) or another .at[] method: "
      ++ "https://docs.jax.dev/en/latest/_autosummary/jax.numpy.ndarray.at.html")
  let indices ← axisIndices a k
  let part ← liftArray (a.select indices)
  let new ← if part.shape.isEmpty then do
      pure (NumArray.ofDoubles false [] [← reading fun s => s.placeDouble v])
    else do
      let (shape, items) ← reading fun s => s.nestedItems v
      pure (.ofDoubles false shape (← items.mapM fun v => reading fun s => s.itemDouble v))
  match a.replacePart indices new with
  | .ok changed => return changed
  | .error _ => failMisfit indices new.shape part.shape

end LinModel.Session
