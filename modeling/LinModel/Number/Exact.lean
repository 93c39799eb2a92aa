import LinModel.Number.Decimal

/-!
# Exact numbers

Numbers of different kinds are compared by their exact values: a rational times a power of ten, an
infinity, or no number at all, which neither equals nor is below anything. Powers of ten are only
computed to compare numbers of about one size, so that decimals of any exponent can be compared.

Key definitions: `Exact`, `Exact.equal`, `Exact.less`, `Exact.toFloat`.
-/
namespace LinModel

/-- The exact value of a number. -/
inductive Exact
  /-- `q · 10 ^ tens`. -/
  | finite (q : Rat) (tens : Int)
  | infinite (negative : Bool)
  | notANumber

namespace Exact

/-- A rational number. -/
def ofRat (q : Rat) : Exact := .finite q 0

/-- The exact value of a double. -/
def ofFloat (x : Float) : Exact :=
  match Number.Binary.ofFloat? x with
  | some b => ofRat b.toRat
  | none => if x.isNaN then .notANumber else .infinite (x < 0.0)

/-- The exact value of a decimal. -/
def ofDecimal : Number.Decimal → Exact
  | .finite negative c e => .finite (if negative then -(c : Rat) else c) e
  | .infinite negative => .infinite negative
  | .notANumber .. => .notANumber

/-- The power of ten that a nonzero number is near to; its logarithm is less than one away. -/
def size (q : Rat) (tens : Int) : Int :=
  let digits := fun n : Nat => ((Nat.toDigits 10 n).length : Int)
  digits q.num.natAbs - digits q.den + tens

/-- The order of two rationals. -/
def orderRat (p q : Rat) : Ordering := if p < q then .lt else if p = q then .eq else .gt

/-- The order of `p · 10 ^ s` and `q · 10 ^ t`: signs and sizes decide if they differ, else both are
brought to one power of ten. -/
def orderFinite (p : Rat) (s : Int) (q : Rat) (t : Int) : Ordering :=
  if s = t || p == 0 || q == 0 || decide (p < 0) != decide (q < 0) then orderRat p q
  else if size p s + 2 ≤ size q t then orderRat 0 p
  else if size q t + 2 ≤ size p s then orderRat p 0
  else
    let low := min s t
    let raised := fun (r : Rat) (e : Int) => r * (Nat.pow 10 (e - low).toNat : Nat)
    orderRat (raised p s) (raised q t)

/-- Whether two numbers are equal; a NaN equals nothing. -/
def equal : Exact → Exact → Bool
  | .finite p s, .finite q t => orderFinite p s q t == .eq
  | .infinite a, .infinite b => a == b
  | _, _ => false

/-- Whether the first number is below the second. -/
def less : Exact → Exact → Bool
  | .finite p s, .finite q t => orderFinite p s q t == .lt
  | .finite .., .infinite negative => !negative
  | .infinite negative, .finite .. => negative
  | .infinite a, .infinite b => a && !b
  | _, _ => false

/-- Whether it is no number. -/
def isNaN : Exact → Bool
  | .notANumber => true
  | _ => false

/-- Whether the number is zero. -/
def isZero : Exact → Bool
  | .finite q _ => q == 0
  | _ => false

/-- The double nearest to the number. -/
def toFloat : Exact → Float
  | .finite q tens =>
    if tens < 0 then Number.nearest (q < 0) q.num.natAbs (q.den * Nat.pow 10 tens.natAbs)
    else Number.nearest (q < 0) (q.num.natAbs * Nat.pow 10 tens.natAbs) q.den
  | .infinite negative => if negative then -(1.0 / 0.0) else 1.0 / 0.0
  | .notANumber => 0.0 / 0.0

end Exact
end LinModel
