import LinModel.Number.Exact
import LinModel.Number.Single

/-!
# Numbers of fixed width

Numbers as numerical arrays hold them: truth values, integers of 64 bits, and numbers of single
and double precision. An operation takes place at the smallest width that holds both operands;
integers wrap around, quotients are never integers, and dividing by zero gives an infinity or NaN.

Key definitions: `Width`, `MachineNumber`, `Width.join`, `Width.combine?`, `Width.compare`,
`Width.maximum`.
-/
namespace LinModel

/-- The operations of arithmetic. -/
inductive Operation
  | add
  | sub
  | mul
  | div
deriving DecidableEq

namespace Operation

/-- The sign of an operation. -/
def symbol : Operation → String
  | .add => "+"
  | .sub => "-"
  | .mul => "*"
  | .div => "/"

/-- The name of an operation. -/
def title : Operation → String
  | .add => "add"
  | .sub => "sub"
  | .mul => "mul"
  | .div => "div"

/-- The long name of an operation. -/
def longTitle : Operation → String
  | .add => "add"
  | .sub => "subtract"
  | .mul => "multiply"
  | .div => "divide"

/-- The operation on doubles, as arrays divide. -/
def onDoubles (op : Operation) (x y : Float) : Float :=
  match op with
  | .add => x + y
  | .sub => x - y
  | .mul => x * y
  | .div => x / y

/-- The operation on exact numbers; the divisor is not zero. -/
def onExact (op : Operation) (p q : Rat) : Rat :=
  match op with
  | .add => p + q
  | .sub => p - q
  | .mul => p * q
  | .div => p / q

/-- The operation on decimals. -/
def onDecimals (op : Operation) (a b : Number.Decimal) :
    Except Number.DecimalError Number.Decimal :=
  match op with
  | .add => a.add b
  | .sub => a.sub b
  | .mul => a.mul b
  | .div => a.div b

end Operation

/-- The ways to compare two numbers. -/
inductive Comparison
  | below
  | atMost
  | atLeast
  | equal
  | different
deriving DecidableEq

namespace Comparison

/-- The sign of a comparison. -/
def symbol : Comparison → String
  | .below => "<"
  | .atMost => "<="
  | .atLeast => ">="
  | .equal => "=="
  | .different => "!="

/-- The name of a comparison. -/
def title : Comparison → String
  | .below => "less"
  | .atMost => "less_equal"
  | .atLeast => "greater_equal"
  | .equal => "equal"
  | .different => "not_equal"

/-- Whether the comparison only asks for equality. -/
def isEquality : Comparison → Bool
  | .equal | .different => true
  | _ => false

/-- Whether a comparison holds, given an order and an equality. -/
def holds {α : Type} (less equal : α → α → Bool) (c : Comparison) (a b : α) : Bool :=
  match c with
  | .below => less a b
  | .atMost => less a b || equal a b
  | .atLeast => less b a || equal a b
  | .equal => equal a b
  | .different => !equal a b

end Comparison

/-- How numbers are held. -/
inductive Width
  | truth
  | integer
  | single
  | double
deriving DecidableEq

/-- A number of fixed width, as numerical arrays hold them, or a comparison of such numbers. -/
inductive MachineNumber
  | double (x : Float)
  | single (x : Float)
  | integer (n : Int)
  | truth (b : Bool)

/-- An integer brought into the range of 64 bits. -/
def wrapped (n : Int) : Int := Int.bmod n 18446744073709551616

namespace MachineNumber

/-- How the number is held. -/
def width : MachineNumber → Width
  | .double _ => .double
  | .single _ => .single
  | .integer _ => .integer
  | .truth _ => .truth

/-- The exact value. -/
def exact : MachineNumber → Exact
  | .double x | .single x => .ofFloat x
  | .integer n => .ofRat n
  | .truth b => .ofRat (if b then 1 else 0)

/-- The value as a double. -/
def toFloat : MachineNumber → Float
  | .double x | .single x => x
  | .integer n => Number.nearestInt n
  | .truth b => if b then 1.0 else 0.0

/-- The value as an integer, its fraction cut off. -/
def toInt : MachineNumber → Int
  | .double x | .single x => match Number.Binary.ofFloat? x with
    | some b =>
      let n : Int := (b.ratio.1 / b.ratio.2 : Nat)
      if b.negative then -n else n
    | none => 0
  | .integer n => n
  | .truth b => if b then 1 else 0

/-- The text of the number. -/
def toText : MachineNumber → String
  | .double x => Number.plain x
  | .single x => Number.plainSingle x
  | .integer n => toString n
  | .truth b => if b then "True" else "False"

/-- Whether the number is zero. -/
def isZero (n : MachineNumber) : Bool := n.exact.isZero

/-- The number held in another way, rounded or wrapped around if it does not fit. -/
def convert (w : Width) (n : MachineNumber) : MachineNumber :=
  match w with
  | .truth => .truth (!n.isZero)
  | .integer => .integer (wrapped n.toInt)
  | .single => .single (Number.toSingle n.toFloat)
  | .double => .double n.toFloat

end MachineNumber

namespace Width

/-- The smallest width that holds numbers of two widths. -/
def join : Width → Width → Width
  | .truth, w | w, .truth => w
  | .integer, .integer => .integer
  | .single, .single => .single
  | _, _ => .double

/-- The name of a width. -/
def title : Width → String
  | .truth => "bool"
  | .integer => "int64"
  | .single => "float32"
  | .double => "float64"

/-- The width of quotients of numbers of a width. -/
def ofQuotients : Width → Width
  | .single => .single
  | _ => .double

/-- An operation on two numbers at a width; truth values have no differences. -/
def combine? (w : Width) (op : Operation) (a b : MachineNumber) : Option MachineNumber :=
  match op with
  | .div => match w.ofQuotients with
    | .single => some (single op a b)
    | _ => some (.double (op.onDoubles a.toFloat b.toFloat))
  | op => match w with
    | .truth => match op with
      | .add => some (.truth (!a.isZero || !b.isZero))
      | .mul => some (.truth (!a.isZero && !b.isZero))
      | _ => none
    | .integer => some (.integer (wrapped (op.onExact a.toInt b.toInt).num))
    | .single => some (single op a b)
    | .double => some (.double (op.onDoubles a.toFloat b.toFloat))
where
  /-- The operation in single precision. -/
  single (op : Operation) (a b : MachineNumber) : MachineNumber :=
    .single (Number.toSingle
      (op.onDoubles (a.convert .single).toFloat (b.convert .single).toFloat))

/-- Whether a comparison holds between two numbers at a width. -/
def compare (w : Width) (c : Comparison) (a b : MachineNumber) : Bool :=
  match w with
  | .truth | .integer => c.holds (· < ·) (· == ·) a.toInt b.toInt
  | w => c.holds (· < ·) (· == ·) (a.convert w).toFloat (b.convert w).toFloat

/-- The larger of two numbers at a width; a NaN wins. -/
def maximum (w : Width) (a b : MachineNumber) : MachineNumber :=
  let a := a.convert w
  let b := b.convert w
  if a.exact.isNaN then a else if b.exact.isNaN then b
  else if w.compare .below a b then b else a

end Width
end LinModel
