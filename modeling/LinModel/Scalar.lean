/-!
# The numbers of a model

Models are written once for every kind of number that has arithmetic, an order and infinities.
`Scalar` lists what the rest of the library uses and nothing more: comparisons are Boolean and
follow the rules for doubles, so that a NaN is neither below, above nor equal to anything. The
instance for `Float` is the one that runs.

Key definitions: `Scalar`, `Scalar.maximum`, `Scalar.distanceToInteger`, `Scalar.isZero`,
`Scalar.LawfulUnits`, `Scalar.LawfulBounds`, `Scalar.LawfulZeros`, `Scalar.LawfulSums`,
`Scalar.LawfulOperations`.
-/
namespace LinModel

/-- Numbers with arithmetic, Boolean comparisons, infinities and rounding to an integer. -/
class Scalar (K : Type) extends Add K, Sub K, Mul K, Div K, Neg K where
  zero : K
  one : K
  infinity : K
  ofNat : Nat → K
  beq : K → K → Bool
  lt : K → K → Bool
  le : K → K → Bool
  isFinite : K → Bool
  isNaN : K → Bool
  abs : K → K
  /-- The nearest integer, the even one of two. -/
  round : K → K

namespace Scalar

variable {K : Type} [Scalar K]

/-- The larger of two numbers; a NaN wins. -/
def maximum (a b : K) : K :=
  if isNaN a then a else if isNaN b then b else if lt a b then b else a

/-- The larger of a number and zero, never a negative zero; a NaN wins. -/
def positivePart (a : K) : K :=
  if isNaN a then a else if lt zero a then a else zero

/-- Whether a number is zero, of either sign. -/
def isZero (a : K) : Bool := beq a zero

/-- How far a number is from the nearest integer. -/
def distanceToInteger (a : K) : K := abs (a - round a)

/-- The sum of the products of two lists, from the left. -/
def dot (row x : List K) : K :=
  (row.zip x).foldl (fun total (a, b) => total + a * b) zero

/-- Numbers of which zero and one are finite. -/
class LawfulUnits (K : Type) [Scalar K] : Prop where
  isFinite_zero : isFinite (zero : K) = true
  isFinite_one : isFinite (one : K) = true

/-- Numbers whose finite ones are ordered between the infinities, as doubles are. -/
class LawfulBounds (K : Type) [Scalar K] : Prop extends LawfulUnits K where
  isNaN_of_isFinite {a : K} : isFinite a = true → isNaN a = false
  isFinite_neg {a : K} : isFinite a = true → isFinite (-a) = true
  isFinite_infinity : isFinite (infinity : K) = false
  isFinite_neg_infinity : isFinite (-infinity : K) = false
  isFinite_eq_of_beq {a b : K} : beq a b = true → isFinite a = isFinite b
  beq_self {a : K} : isFinite a = true → beq a a = true
  le_self {a : K} : isFinite a = true → le a a = true
  le_infinity {a : K} : isFinite a = true → le a infinity = true
  neg_infinity_le {a : K} : isFinite a = true → le (-infinity) a = true
  zero_le_one : le (zero : K) one = true
  le_of_not_lt {a b : K} : isNaN a = false → isNaN b = false → lt b a = false → le a b = true

/-- Numbers whose zeros add, multiply and divide as those of doubles do: up to the sign of zero,
they add nothing and stay zero. -/
class LawfulZeros (K : Type) [Scalar K] : Prop extends LawfulUnits K where
  isZero_zero : isZero (zero : K) = true
  isFinite_of_isZero {z : K} : isZero z = true → isFinite z = true
  isFinite_neg_one : isFinite (-one : K) = true
  isZero_neg {z : K} : isZero z = true → isZero (-z) = true
  zero_add {z : K} (a : K) : isZero z = true → z + a = a ∨ isZero a = true ∧ isZero (z + a) = true
  isZero_mul {z a : K} : isZero z = true → isFinite a = true → isZero (z * a) = true
  mul_isZero {a z : K} : isFinite a = true → isZero z = true → isZero (a * z) = true
  isZero_div {z a : K} :
    isZero z = true → isFinite a = true → isZero a = false → isZero (z / a) = true

/-- Numbers that add as doubles do: a zero adds nothing on either side, one is a factor that
changes nothing, and what is added to an infinity or a NaN does not make it finite. -/
class LawfulSums (K : Type) [Scalar K] : Prop extends LawfulZeros K where
  add_zero {z : K} (a : K) : isZero z = true → a + z = a ∨ isZero a = true ∧ isZero (a + z) = true
  one_mul (a : K) : one * a = a
  isFinite_of_add {a b : K} : isFinite (a + b) = true → isFinite a = true

/-- Numbers whose operations behave as those of doubles: the order of two operands of a sum or a
product does not matter, subtraction adds the negated number, and a quotient of an infinity or a NaN
is not finite. -/
class LawfulOperations (K : Type) [Scalar K] : Prop extends LawfulSums K where
  add_comm (a b : K) : a + b = b + a
  mul_comm (a b : K) : a * b = b * a
  neg_one_mul (a : K) : -one * a = -a
  add_neg (a b : K) : a + -b = a - b
  isFinite_of_div {a b : K} : isFinite (a / b) = true → isFinite a = true

end Scalar

/-- The integer nearest to a double, the even one of two. -/
def roundDouble (x : Float) : Float :=
  let a := x.abs
  let below := a.floor
  let rest := a - below
  let nearest :=
    if rest < 0.5 then below
    else if 0.5 < rest then below + 1.0
    else if (below / 2.0).floor * 2.0 == below then below
    else below + 1.0
  if x < 0.0 then -nearest else nearest

instance : Scalar Float where
  zero := 0.0
  one := 1.0
  infinity := 1.0 / 0.0
  ofNat := Float.ofNat
  beq a b := a == b
  lt a b := a < b
  le a b := a ≤ b
  isFinite := Float.isFinite
  isNaN := Float.isNaN
  abs := Float.abs
  round := roundDouble

end LinModel
