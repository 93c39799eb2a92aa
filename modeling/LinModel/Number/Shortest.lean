import LinModel.Number.Binary

/-!
# Shortest decimal digits

The fewest decimal digits that read back as a given number of a binary format, and of those the
closest to it; and a fixed number of digits, rounded half to even from the exact value. Both work
in exact integer arithmetic on `mantissa · 2 ^ exponent`.

Key definitions: `Digits`, `Precision`, `shortest`, `rounded`.
-/
namespace LinModel.Number

/-- The decimal `0.d₁d₂… · 10 ^ point`, where `coefficient` is written `d₁d₂…` in `count` digits. -/
structure Digits where
  coefficient : Nat
  count : Nat
  point : Int
deriving Repr, DecidableEq

/-- How many decimal digits a natural number has. -/
def digitCount (n : Nat) : Nat := (Nat.toDigits 10 n).length

/-- How often a positive ratio below one tenth can be multiplied by ten before it reaches it. -/
def leadingZeros : Nat → Nat → Nat → Nat
  | 0, _, _ => 0
  | fuel + 1, num, den => if den ≤ num * 10 then 0 else leadingZeros fuel (num * 10) den + 1

/-- The `p` with `10 ^ (p - 1) ≤ num / den < 10 ^ p`, for a positive double's ratio. -/
def decimalPoint (num den : Nat) : Int :=
  if den ≤ num then digitCount (num / den) else -(leadingZeros 400 num den : Int)

/-- Powers of ten as numerator and denominator. -/
def tens (e : Int) : Nat × Nat :=
  if e < 0 then (1, Nat.pow 10 e.natAbs) else (Nat.pow 10 e.natAbs, 1)

/-- The significant bits of a binary format, and the exponent of its smallest positive number. -/
structure Precision where
  bits : Nat
  lowest : Int

/-- The format of doubles. -/
def Precision.double : Precision := ⟨53, -1074⟩

/-- The format of single precision. -/
def Precision.single : Precision := ⟨24, -149⟩

/-- The reals that round to a number of a format, as ratios over one denominator; `closed` tells
whether the ends belong to it. -/
structure Interval where
  low : Nat
  high : Nat
  den : Nat
  closed : Bool

/-- The rounding interval of a positive number of a format. -/
def Binary.interval (p : Precision) (b : Binary) : Interval :=
  let (n, d) := scale (b.exponent - 2)
  let gap := if b.mantissa = Nat.pow 2 (p.bits - 1) ∧ p.lowest < b.exponent then 1 else 2
  ⟨(4 * b.mantissa - gap) * n, (4 * b.mantissa + 2) * n, d, b.mantissa % 2 == 0⟩

/-- Whether `num / den` lies in the interval. -/
def Interval.contains (i : Interval) (num den : Nat) : Bool :=
  if i.closed then i.low * den ≤ num * i.den && num * i.den ≤ i.high * den
  else i.low * den < num * i.den && num * i.den < i.high * den

/-- The grid point of `count` digits next to the number that reads back as it, if there is one. -/
def gridPoint (p : Precision) (b : Binary) (point : Int) (count : Nat) : Option Nat :=
  let (num, den) := b.ratio
  let (gn, gd) := tens (point - count)
  -- the value in units of the grid is `(num * gd) / (den * gn)`
  let below := (num * gd) / (den * gn)
  let interval := b.interval p
  let hit := fun k : Nat => interval.contains (k * gn) gd
  let remainder := num * gd % (den * gn)
  let nearerAbove := den * gn < 2 * remainder ∨ (2 * remainder = den * gn ∧ below % 2 = 1)
  match hit below, hit (below + 1) with
  | true, true => some (if nearerAbove then below + 1 else below)
  | true, false => some below
  | false, true => some (below + 1)
  | false, false => none

/-- Normalises a coefficient that was rounded up to one digit more. -/
def Digits.ofRounded (coefficient count : Nat) (point : Int) : Digits :=
  if coefficient = Nat.pow 10 count then ⟨Nat.pow 10 (count - 1), count, point + 1⟩
  else ⟨coefficient, count, point⟩

/-- Tries digit counts from `count` on, `fuel` of them. -/
def shortestFrom (p : Precision) (b : Binary) (point : Int) : Nat → Nat → Digits
  | 0, count => ⟨0, count, point⟩
  | fuel + 1, count =>
    match gridPoint p b point count with
    | some k => Digits.ofRounded k count point
    | none => shortestFrom p b point fuel (count + 1)

/-- The fewest digits that read back as a nonzero double: seventeen always suffice. -/
def shortest (b : Binary) : Digits :=
  shortestFrom .double b (decimalPoint b.ratio.1 b.ratio.2) 17 1

/-- The nonzero double to `count` digits, half to even. -/
def rounded (b : Binary) (count : Nat) : Digits :=
  let (num, den) := b.ratio
  let point := decimalPoint num den
  let (gn, gd) := tens (point - count)
  Digits.ofRounded (roundDivEven (num * gd) (den * gn)) count point

/-- Drops zeros at the end, keeping one digit. -/
def dropZeros : Nat → Nat → Nat × Nat
  | coefficient, 0 => (coefficient, 0)
  | coefficient, 1 => (coefficient, 1)
  | coefficient, count + 2 =>
    if coefficient % 10 = 0 then dropZeros (coefficient / 10) (count + 1)
    else (coefficient, count + 2)

/-- Without zeros at the end. -/
def Digits.trimmed (d : Digits) : Digits :=
  let (coefficient, count) := dropZeros d.coefficient d.count
  ⟨coefficient, count, d.point⟩

end LinModel.Number
