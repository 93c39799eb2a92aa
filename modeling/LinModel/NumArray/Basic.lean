import LinModel.Number.Machine
import LinModel.Scalar

/-!
# Numerical arrays

An array is a list of numbers of one width under a shape, kept by the device that evaluates dense
models or outside it. Two arrays are combined place by place after they are spread to a common
shape, in which a dimension of one counts as often as needed. Their widths are joined: on the
device every width gives way to a larger one, and numbers that a caller wrote down plainly give
way earlier than those of arrays; outside it plain numbers take the width of an array.

Key definitions: `ElementType`, `NumArray`, `ArrayError`, `NumArray.zip`, `NumArray.combine`,
`NumArray.compare`, `NumArray.matrixProduct`.
-/
namespace LinModel

/-- The type of an array's numbers. A plain one was not asked for by any array. -/
structure ElementType where
  width : Width
  isPlain : Bool
deriving DecidableEq

namespace ElementType

/-- The place of a type in the order in which types give way on the device. -/
def rank : ElementType → Nat
  | ⟨.truth, _⟩ => 0
  | ⟨.integer, true⟩ => 1
  | ⟨.integer, false⟩ => 2
  | ⟨.double, true⟩ => 3
  | ⟨.single, _⟩ => 4
  | ⟨.double, false⟩ => 5

/-- The type of an array's width and no plain one. -/
def ofWidth (w : Width) : ElementType := ⟨w, false⟩

/-- The width that a plain number takes beside an array. -/
def yielded (plain : Width) : Width → Width
  | .truth => plain
  | .integer => if plain = .double then .double else .integer
  | w => w

/-- The type in which two types meet. -/
def join (onDevice : Bool) (a b : ElementType) : ElementType :=
  if onDevice then if a.rank < b.rank then b else a
  else match a.isPlain, b.isPlain with
    | true, false => .ofWidth (yielded a.width b.width)
    | false, true => .ofWidth (yielded b.width a.width)
    | _, _ => .ofWidth (a.width.join b.width)

/-- The type of quotients of numbers of a type. -/
def ofQuotients (e : ElementType) : ElementType := ⟨e.width.ofQuotients, e.isPlain⟩

end ElementType

/-- Numbers of one width under a shape. -/
structure NumArray where
  onDevice : Bool
  element : ElementType
  shape : List Nat
  numbers : List MachineNumber

/-- Why an operation on arrays has no result. -/
inductive ArrayError
  /-- Dimensions that differ. -/
  | shapes (title : String) (left right : List Nat)
  /-- Dimensions that differ in number and do not fit. -/
  | ranks (left right : List Nat)
  /-- Dimensions that differ, outside the device. -/
  | operands (left right : List Nat)
  /-- An operation on the device that truth values do not have, of one operand or two. -/
  | truthValues (title : String) (isUnary : Bool)
  /-- A sign between truth values, or before them, that they do not have outside the device. -/
  | truthSign (isUnary : Bool)
  /-- A product over dimensions that differ. -/
  | contraction (left right : Nat)
  /-- A product with a single number. -/
  | noDimension
  /-- More indices than dimensions. -/
  | tooManyIndices (onDevice : Bool) (rank count : Nat)
  /-- An index that is too large or too small. -/
  | place (index : Int) (axis size : Nat)
  /-- An index along a dimension of nothing. -/
  | emptyAxis (axis : Nat)
  /-- Truth values that do not fit the dimensions among whose places they choose. -/
  | mask (onDevice : Bool) (axis : Nat) (shape dims : List Nat)
  /-- Arrays of places that do not fit each other. -/
  | indexShapes (left right : List Nat)

/-- A shape as text. -/
def shapeText : List Nat → String
  | [n] => "(" ++ toString n ++ ",)"
  | shape => "(" ++ String.intercalate ", " (shape.map toString) ++ ")"

/-- The wording of an error. -/
def ArrayError.message : ArrayError → String
  | .shapes title left right =>
    title ++ " got incompatible shapes for broadcasting: " ++ shapeText left ++ ", "
      ++ shapeText right ++ "."
  | .ranks left right =>
    "Incompatible shapes for broadcasting: shapes=[" ++ shapeText left ++ ", " ++ shapeText right
      ++ "]"
  | .operands left right =>
    "operands could not be broadcast together with shapes " ++ shapeText left ++ " "
      ++ shapeText right ++ " "
  | .truthValues title isUnary =>
    if isUnary then
      title ++ " does not accept dtype bool. Accepted dtypes are subtypes of integer, floating, "
        ++ "complexfloating."
    else
      title ++ " does not accept dtype bool at position 0. Accepted dtypes at position 0 are "
        ++ "subtypes of integer, floating, complexfloating."
  | .truthSign isUnary =>
    if isUnary then
      "The numpy boolean negative, the `-` operator, is not supported, use the `~` operator or the "
        ++ "logical_not function instead."
    else
      "numpy boolean subtract, the `-` operator, is not supported, use the bitwise_xor, the `^` "
        ++ "operator, or the logical_xor function instead."
  | .contraction left right =>
    "dot_general requires contracting dimensions to have the same shape, got ("
      ++ toString left ++ ",) and (" ++ toString right ++ ",)."
  | .noDimension => "matmul input operand 1 must have ndim at least 1, but it has ndim 0"
  | .tooManyIndices onDevice rank count =>
    (if onDevice then "Too many indices" else "too many indices for array") ++ ": array is "
      ++ toString rank ++ "-dimensional, but " ++ toString count ++ " were indexed"
  | .place index axis size =>
    "index " ++ toString index ++ " is out of bounds for axis " ++ toString axis
      ++ " with size " ++ toString size
  | .emptyAxis axis => "index is out of bounds for axis " ++ toString axis ++ " with size 0"
  | .mask onDevice axis shape dims =>
    if onDevice then
      "boolean index did not match shape of indexed array in index " ++ toString axis ++ ": got "
        ++ shapeText shape ++ ", expected " ++ shapeText dims
    else
      let fitting := ((shape.zip dims).takeWhile fun (m, n) => m = n).length
      "boolean index did not match indexed array along axis " ++ toString (axis + fitting)
        ++ "; size of axis is " ++ toString (dims[fitting]?.getD 0)
        ++ " but size of corresponding boolean axis is " ++ toString (shape[fitting]?.getD 0)
  | .indexShapes left right =>
    "shape mismatch: indexing arrays could not be broadcast together with shapes "
      ++ shapeText left ++ " " ++ shapeText right ++ " "

/-- Cuts a list into `count` pieces of a length. -/
def pieces {α : Type} (length : Nat) : (count : Nat) → List α → List (List α)
  | 0, _ => []
  | count + 1, items => items.take length :: pieces length count (items.drop length)

/-- How many numbers an array of a shape has. -/
def sizeOf (shape : List Nat) : Nat := shape.foldl (· * ·) 1

namespace NumArray

/-- An array of one dimension. -/
def vector (onDevice : Bool) (element : ElementType) (numbers : List MachineNumber) : NumArray :=
  ⟨onDevice, element, [numbers.length], numbers⟩

/-- Doubles under a shape. -/
def ofDoubles (onDevice : Bool) (shape : List Nat) (xs : List Float) : NumArray :=
  ⟨onDevice, .ofWidth .double, shape, xs.map .double⟩

/-- A single number. -/
def ofNumber (onDevice isPlain : Bool) (n : MachineNumber) : NumArray :=
  ⟨onDevice, ⟨n.width, isPlain⟩, [], [n]⟩

/-- The numbers as doubles. -/
def toDoubles (a : NumArray) : List Float := a.numbers.map MachineNumber.toFloat

/-- How the numbers are held. -/
def width (a : NumArray) : Width := a.element.width

/-- The numbers held in another way. -/
def convert (a : NumArray) (e : ElementType) : NumArray :=
  { a with element := e, numbers := a.numbers.map (MachineNumber.convert e.width) }

/-- The numbers under a shape. -/
def reshape (a : NumArray) (shape : List Nat) : NumArray := { a with shape := shape }

/-- The arrays that an array of some dimensions consists of; nothing for a single number. -/
def rows? (a : NumArray) : Option (List NumArray) :=
  match a.shape with
  | [] => none
  | n :: rest => some ((pieces (sizeOf rest) n a.numbers).map fun row =>
      { a with shape := rest, numbers := row })

/-! ### Common shapes -/

/-- A shape with dimensions of one in front, up to a count. -/
def padShape (rank : Nat) (shape : List Nat) : List Nat :=
  List.replicate (rank - shape.length) 1 ++ shape

/-- The dimensions that two lists of dimensions can be spread to. -/
def commonDims? : List Nat → List Nat → Option (List Nat)
  | [], [] => some []
  | m :: ms, n :: ns =>
    if m = n ∨ n = 1 then (commonDims? ms ns).map (m :: ·)
    else if m = 1 then (commonDims? ms ns).map (n :: ·)
    else none
  | _, _ => none

/-- The shape that two shapes can be spread to. -/
def commonShape? (a b : List Nat) : Option (List Nat) :=
  let rank := max a.length b.length
  commonDims? (padShape rank a) (padShape rank b)

/-- Numbers under some dimensions spread to others. -/
def spreadDims {α : Type} : List Nat → List Nat → List α → List α
  | m :: ms, n :: ns, items =>
    let parts := (pieces (sizeOf ms) m items).map (spreadDims ms ns)
    if m = n then parts.flatten else (List.replicate n parts.flatten).flatten
  | _, _, items => items

/-- The numbers of an array spread to a shape. -/
def spread (a : NumArray) (shape : List Nat) : List MachineNumber :=
  spreadDims (padShape shape.length a.shape) shape a.numbers

/-- Why two shapes do not fit. -/
def misfit (onDevice : Bool) (title : String) (a b : List Nat) : ArrayError :=
  if !onDevice then .operands a b
  else if a.length = b.length then .shapes title a b
  else .ranks a b

/-- Two arrays combined place by place at a width, with results of a type. -/
def zip (title : String) (element : ElementType)
    (f : MachineNumber → MachineNumber → Option MachineNumber) (a b : NumArray) :
    Except ArrayError NumArray :=
  let onDevice := a.onDevice || b.onDevice
  match commonShape? a.shape b.shape with
  | none => .error (misfit onDevice title a.shape b.shape)
  | some shape =>
    match ((a.spread shape).zip (b.spread shape)).mapM fun (x, y) => f x y with
    | some numbers => .ok ⟨onDevice, element, shape, numbers⟩
    | none => .error (if onDevice then .truthValues title false else .truthSign false)

/-- Arrays of one shape as the parts of one array; an array without parts holds doubles. -/
def stack? (onDevice : Bool) : List NumArray → Option NumArray
  | [] => some (ofDoubles onDevice [0] [])
  | a :: rest =>
    if rest.all (·.shape = a.shape) then
      let e := rest.foldl (fun e b => e.join onDevice b.element) a.element
      some ⟨onDevice, e, (rest.length + 1) :: a.shape,
        (a :: rest).flatMap fun b => (b.convert e).numbers⟩
    else none

/-- The type in which two arrays meet. -/
def common (a b : NumArray) : ElementType :=
  a.element.join (a.onDevice || b.onDevice) b.element

/-- Two arrays under an operation of arithmetic. -/
def combine (op : Operation) (a b : NumArray) : Except ArrayError NumArray :=
  let e := common a b
  zip op.title (if op = .div then e.ofQuotients else e) (e.width.combine? op) a b

/-- The truth values of a comparison. -/
def compare (c : Comparison) (a b : NumArray) : Except ArrayError NumArray :=
  let e := common a b
  let title := match c with
    | .below => "lt"
    | .atMost => "le"
    | .atLeast => "ge"
    | .equal => "eq"
    | .different => "ne"
  zip title (.ofWidth .truth) (fun x y => some (.truth (e.width.compare c x y))) a b

/-- The larger numbers of two arrays; a NaN wins. -/
def maximum (a b : NumArray) : Except ArrayError NumArray :=
  let e := common a b
  zip "max" e (fun x y => some (e.width.maximum x y)) a b

/-- The opposite numbers; truth values have none. -/
def negate (a : NumArray) : Except ArrayError NumArray :=
  match a.width with
  | .truth => .error (if a.onDevice then .truthValues "neg" true else .truthSign true)
  | .integer => .ok { a with numbers := a.numbers.map fun n => .integer (wrapped (-n.toInt)) }
  | .single => .ok { a with numbers := a.numbers.map fun n => .single (-n.toFloat) }
  | .double => .ok { a with numbers := a.numbers.map fun n => .double (-n.toFloat) }

/-- Every number under a function that keeps the width. -/
def mapNumbers (f : MachineNumber → MachineNumber) (a : NumArray) : NumArray :=
  { a with numbers := a.numbers.map f }

/-- Every number under a function on doubles; integers and truth values stay as they are. -/
def mapReals (f : Float → Float) (a : NumArray) : NumArray :=
  { a with numbers := a.numbers.map fun
      | .double x => .double (f x)
      | .single x => .single (f x)
      | n => n }

/-- The sizes of the numbers. -/
def absolute (a : NumArray) : NumArray :=
  match a.width with
  | .integer => { a with numbers := a.numbers.map fun n => .integer (wrapped n.toInt.natAbs) }
  | _ => a.mapReals Float.abs

/-! ### Products -/

/-- The columns of a table with rows of a width. -/
def columnsOf {α : Type} (width : Nat) (rows : List (List α)) : List (List α) :=
  (List.range width).map fun j => rows.filterMap (·[j]?)

/-- The product of rows of doubles with an array, whose last dimension but one it uses up, or the
only one. -/
def matrixProduct (rows : List (List Float)) (columns : Nat) (isMatrix : Bool) (x : NumArray) :
    Except ArrayError NumArray :=
  let head := if isMatrix then [rows.length] else []
  match x.shape.reverse with
  | [] => .error .noDimension
  | [n] =>
    if n != columns then .error (.contraction columns n)
    else .ok (.ofDoubles true head (rows.map (Scalar.dot · x.toDoubles)))
  | width :: n :: batch =>
    if n != columns then .error (.contraction columns n)
    else
      let tables := pieces (n * width) (sizeOf batch) x.toDoubles
      let products := tables.flatMap fun table =>
        let vectors := columnsOf width (pieces width n table)
        rows.flatMap fun row => vectors.map (Scalar.dot row)
      .ok (.ofDoubles true (batch.reverse ++ head ++ [width]) products)

end NumArray
end LinModel
