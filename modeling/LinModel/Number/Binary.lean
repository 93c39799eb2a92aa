/-!
# Doubles as exact numbers

A finite double is `± mantissa · 2 ^ exponent`; `Binary.ofFloat?` reads the three parts off its
bits. In the other direction `nearest` rounds a ratio of integers to the closest double, the even
one of two equally close, and `roundDivEven` is the integer form of that rule, shared with the
decimal printers.

Key definitions: `Binary`, `Binary.ofFloat?`, `Binary.toRat`, `roundDivEven`, `nearestBits`,
`nearest`.
-/
namespace LinModel.Number

/-- A finite double: `mantissa · 2 ^ exponent`, negated if `negative` (also for zero). -/
structure Binary where
  negative : Bool
  mantissa : Nat
  exponent : Int
deriving Repr, DecidableEq

namespace Binary

/-- The parts of a double, `none` for the infinities and NaN. -/
def ofFloat? (x : Float) : Option Binary :=
  let bits := x.toBits.toNat
  let negative := bits / Nat.pow 2 63 == 1
  let biased : Nat := bits / Nat.pow 2 52 % Nat.pow 2 11
  let fraction := bits % Nat.pow 2 52
  if biased = 2047 then none
  else if biased = 0 then some ⟨negative, fraction, -1074⟩
  else some ⟨negative, fraction + Nat.pow 2 52, Int.ofNat biased - 1075⟩

/-- The integer power of two as numerator and denominator. -/
def scale (exponent : Int) : Nat × Nat :=
  if exponent < 0 then (1, Nat.pow 2 exponent.natAbs) else (Nat.pow 2 exponent.natAbs, 1)

/-- The magnitude as a ratio of natural numbers. -/
def ratio (b : Binary) : Nat × Nat :=
  (b.mantissa * (scale b.exponent).1, (scale b.exponent).2)

/-- The exact value. -/
def toRat (b : Binary) : Rat :=
  let magnitude := mkRat b.ratio.1 b.ratio.2
  if b.negative then -magnitude else magnitude

/-- The value as an integer, if it is one. -/
def toInt? (b : Binary) : Option Int :=
  let (num, den) := b.ratio
  if num % den = 0 then
    some (if b.negative then -((num / den : Nat) : Int) else (num / den : Nat))
  else none

end Binary

/-- The integer nearest to `num / den`, the even one of two. -/
def roundDivEven (num den : Nat) : Nat :=
  let q := num / den
  let r := num % den
  if den < 2 * r ∨ (2 * r = den ∧ q % 2 = 1) then q + 1 else q

/-- The largest `e` with `2 ^ e ≤ num / den`, for positive `num` and `den`. -/
def floorLog2 (num den : Nat) : Int :=
  let guess : Int := (num.log2 : Int) - den.log2
  let (n, d) := Binary.scale guess
  if den * n ≤ num * d then guess else guess - 1

/-- The bits of an infinity, its sign apart; those of finite doubles come before, in order. -/
def infinityBits : Nat := 2047 * Nat.pow 2 52

/-- The bits of the double nearest to `num / den`, its sign apart. The leading digit of a mantissa,
and a mantissa that rounding makes longer, carry over into the exponent. -/
def nearestBits (num den : Nat) : Nat :=
  if num = 0 ∨ den = 0 then 0
  else
    let unit := max (floorLog2 num den - 52) (-1074)
    let (n, d) := Binary.scale unit
    min ((unit + 1074).toNat * Nat.pow 2 52 + roundDivEven (num * d) (den * n)) infinityBits

/-- The double nearest to `num / den`, the even one of two; infinite beyond the largest double. -/
def nearest (negative : Bool) (num den : Nat) : Float :=
  .ofBits (.ofNat (nearestBits num den + if negative then Nat.pow 2 63 else 0))

/-- The double nearest to an integer. -/
def nearestInt (n : Int) : Float := nearest (n < 0) n.natAbs 1

end LinModel.Number
