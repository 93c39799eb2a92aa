import LinModel.Number.Reading
import LinModel.Number.Shortest

/-!
# Decimals

A decimal keeps the digits it is written with: a sign, a coefficient and the exponent of its last
digit, so that `1.50` and `1.5` are equal but written apart. Besides the finite ones there are
infinities and NaNs, some of which signal. Results of arithmetic are rounded half to even to 28
digits; an operation without a result tells why.

Key definitions: `Decimal`, `Decimal.read?`, `Decimal.toText`, `Decimal.general`, `Decimal.add`,
`Decimal.mul`, `Decimal.div`, `Decimal.toRat?`.
-/
namespace LinModel.Number

/-- A decimal number. -/
inductive Decimal
  | finite (negative : Bool) (coefficient : Nat) (exponent : Int)
  | infinite (negative : Bool)
  /-- No number; `payload` are the digits written behind it. -/
  | notANumber (negative signaling : Bool) (payload : String)
deriving DecidableEq

/-- Why an operation on decimals has no result. -/
inductive DecimalError
  /-- A text that writes no decimal. -/
  | malformed
  | divisionByZero
  /-- Zero divided by zero. -/
  | divisionUndefined
  /-- An operation that has no meaning for its operands. -/
  | invalid
  | overflow
deriving DecidableEq

namespace Decimal

/-! ### Reading and writing -/

/-- The decimal that a text writes; underscores may stand anywhere. -/
def read? (s : String) : Option Decimal :=
  let (negative, body) := spanSign ((numberChars s).filter (· != '_'))
  let word := String.ofList (body.map Char.toLower)
  if word = "inf" ∨ word = "infinity" then some (.infinite negative)
  else
    let (signaling, rest) := match word.toList with
      | 's' :: rest => (true, rest)
      | rest => (false, rest)
    match rest with
    | 'n' :: 'a' :: 'n' :: payload =>
      if payload.all Char.isDigit then
        let digits := payload.dropWhile (· == '0')
        some (.notANumber negative signaling (String.ofList digits))
      else none
    | _ => (decimalParts? body).map fun (digits, e) => .finite negative (digitsValue digits) e

/-- The digits of a coefficient. -/
def digits (coefficient : Nat) : List Char := Nat.toDigits 10 coefficient

/-- Digits with the point `place` digits from the left, zeros filled in. -/
def pointed (ds : List Char) (place : Int) : String :=
  if place ≤ 0 then "0." ++ String.ofList (List.replicate place.natAbs '0' ++ ds)
  else
    let n := place.toNat
    if ds.length ≤ n then String.ofList (ds ++ List.replicate (n - ds.length) '0')
    else String.ofList (ds.take n) ++ "." ++ String.ofList (ds.drop n)

/-- An exponent with its mark and sign, left out if it is zero. -/
def exponentText (mark : String) (e : Int) : String :=
  if e = 0 then "" else mark ++ (if e < 0 then "-" else "+") ++ toString e.natAbs

/-- The text with an exponent mark: positional unless digits would be lost or too many zeros
needed. -/
def textWith (mark : String) (d : Decimal) : String :=
  let sign := fun negative : Bool => if negative then "-" else ""
  match d with
  | .infinite negative => sign negative ++ "Infinity"
  | .notANumber negative signaling payload =>
    sign negative ++ (if signaling then "sNaN" else "NaN") ++ payload
  | .finite negative c e =>
    let ds := digits c
    let left := e + ds.length
    let place : Int := if e ≤ 0 ∧ -6 < left then left else 1
    sign negative ++ pointed ds place ++ exponentText mark (left - place)

/-- The text of a decimal. -/
def toText (d : Decimal) : String := d.textWith "E"

/-- The largest exponent of a first digit that can be held. -/
def widestExponent : Int := 999999999999999999

/-- Whether a decimal can be held. -/
def isHeld : Decimal → Bool
  | .finite _ c e =>
    let first := if c = 0 then e else e + (digits c).length - 1
    first ≤ widestExponent && 1 - 2 * widestExponent ≤ e
  | _ => true

/-! ### Rounding -/

/-- A finite decimal to at most `count` digits, half to even. -/
def roundTo (count : Nat) (negative : Bool) (c : Nat) (e : Int) : Decimal :=
  let size := (digits c).length
  if size ≤ count then .finite negative c e
  else
    let drop := size - count
    let q := roundDivEven c (Nat.pow 10 drop)
    if q = Nat.pow 10 count then .finite negative (Nat.pow 10 (count - 1)) (e + drop + 1)
    else .finite negative q (e + drop)

/-- At most `count` significant digits, or all of them; zeros at the end stay. -/
def general (count : Option Nat) (d : Decimal) : String :=
  match d, count with
  | .finite negative c e, some n => (roundTo (max n 1) negative c e).textWith "e"
  | _, _ => d.textWith "e"

/-- The digits that results keep. -/
def precision : Nat := 28

/-- The largest exponent of a result's first digit. -/
def largestExponent : Int := 999999

/-- The least exponent of a result's last digit. -/
def leastExponent : Int := -largestExponent - precision + 1

/-- A coefficient at a larger exponent, rounded half to even. -/
def lifted (c : Nat) (e high : Int) : Nat :=
  let drop := (high - e).toNat
  if (digits c).length < drop then 0 else roundDivEven c (Nat.pow 10 drop)

/-- A result rounded to the precision in force. Zeros have exponents within the limits; what is too
small for all its digits is rounded at the least exponent. -/
def rounded (negative : Bool) (c : Nat) (e : Int) : Except DecimalError Decimal :=
  if c = 0 then .ok (.finite negative 0 (min (max e leastExponent) largestExponent))
  else
    let low := max (e + (digits c).length - precision) leastExponent
    let (c, e) := if low ≤ e then (c, e)
      else
        let q := lifted c e low
        if q = Nat.pow 10 precision then (q / 10, low + 1) else (q, low)
    if largestExponent < e + (digits c).length - 1 then .error .overflow
    else .ok (.finite negative c e)

/-- A NaN as the result of an operation: a signaling one has none. -/
def quiet (negative signaling : Bool) (payload : String) : Except DecimalError Decimal :=
  if signaling then .error .invalid else .ok (.notANumber negative false payload)

/-! ### Arithmetic -/

/-- The signed coefficient at a lower exponent. -/
def scaled (negative : Bool) (c : Nat) (e low : Int) : Int :=
  let n : Int := if c = 0 then 0 else c * Nat.pow 10 (e - low).toNat
  if negative then -n else n

/-- The sum of two finite decimals, the first of which has the larger exponent. A summand too small
to reach the digits that a result keeps only counts as small. -/
def addLower (n : Bool) (c : Nat) (e : Int) (n' : Bool) (c' : Nat) (e' : Int) :
    Except DecimalError Decimal :=
  let least := e + min (-1) (((digits c).length : Int) - precision - 2)
  let (c', e') :=
    if c = 0 then (c', e')
    else if c' = 0 then (0, max e' (e - precision - 1))
    else if (digits c').length + e' - 1 < least then (1, least)
    else (c', e')
  let total := scaled n c e e' + scaled n' c' e' e'
  if total = 0 then rounded (n && n') 0 e' else rounded (total < 0) total.natAbs e'

/-- The sum. -/
def add : Decimal → Decimal → Except DecimalError Decimal
  | .notANumber n s p, .notANumber _ s' _ => quiet n (s || s') p
  | .notANumber n s p, _ => quiet n s p
  | _, .notANumber n s p => quiet n s p
  | .infinite a, .infinite b => if a = b then .ok (.infinite a) else .error .invalid
  | .infinite a, _ => .ok (.infinite a)
  | _, .infinite b => .ok (.infinite b)
  | .finite n c e, .finite n' c' e' =>
    if e' ≤ e then addLower n c e n' c' e' else addLower n' c' e' n c e

/-- The opposite, without rounding. -/
def opposite : Decimal → Decimal
  | .finite n c e => .finite (!n) c e
  | .infinite n => .infinite (!n)
  | .notANumber n s p => .notANumber n s p

/-- The difference. -/
def sub (a b : Decimal) : Except DecimalError Decimal := add a b.opposite

/-- The product. -/
def mul : Decimal → Decimal → Except DecimalError Decimal
  | .notANumber n s p, .notANumber _ s' _ => quiet n (s || s') p
  | .notANumber n s p, _ => quiet n s p
  | _, .notANumber n s p => quiet n s p
  | .infinite a, .infinite b => .ok (.infinite (a != b))
  | .infinite a, .finite b c _ | .finite b c _, .infinite a =>
    if c = 0 then .error .invalid else .ok (.infinite (a != b))
  | .finite n c e, .finite n' c' e' => rounded (n != n') (c * c') (e + e')

/-- Drops zeros at the end while the exponent is below `ideal`. -/
def towards (ideal : Int) : Nat → Nat → Int → Nat × Int
  | 0, c, e => (c, e)
  | fuel + 1, c, e =>
    if e < ideal ∧ c % 10 = 0 then towards ideal fuel (c / 10) (e + 1) else (c, e)

/-- The quotient; an exact one has the exponent nearest to the difference of the exponents. -/
def div : Decimal → Decimal → Except DecimalError Decimal
  | .notANumber n s p, .notANumber _ s' _ => quiet n (s || s') p
  | .notANumber n s p, _ => quiet n s p
  | _, .notANumber n s p => quiet n s p
  | .infinite _, .infinite _ => .error .invalid
  | .infinite a, .finite b _ _ => .ok (.infinite (a != b))
  | .finite a _ _, .infinite b => .ok (.finite (a != b) 0 leastExponent)
  | .finite n c e, .finite n' c' e' =>
    let negative := n != n'
    let ideal := e - e'
    if c' = 0 then .error (if c = 0 then .divisionUndefined else .divisionByZero)
    else if c = 0 then rounded negative 0 ideal
    else
      let shift := (digits c').length + precision + 1 - (digits c).length
      let num := c * Nat.pow 10 shift
      let q := num / c'
      let e := ideal - shift
      if num % c' = 0 then
        let (q, e) := towards ideal q q e
        rounded negative q e
      else rounded negative (if q % 5 = 0 then q + 1 else q) e

/-- The opposite, rounded; zero has no negative. -/
def neg : Decimal → Except DecimalError Decimal
  | .finite n c e => rounded (!n && c != 0) c e
  | .infinite n => .ok (.infinite (!n))
  | .notANumber n s p => quiet n s p

/-- The number itself, rounded; zero has no negative. -/
def pos : Decimal → Except DecimalError Decimal
  | .finite n c e => rounded (n && c != 0) c e
  | .infinite n => .ok (.infinite n)
  | .notANumber n s p => quiet n s p

/-! ### Other numbers -/

/-- The exact value of a finite decimal. -/
def toRat? : Decimal → Option Rat
  | .finite negative c e =>
    let (num, den) := tens e
    let q := mkRat (c * num) den
    some (if negative then -q else q)
  | _ => none

/-- The nearest double; infinities and NaNs stay. -/
def toFloat : Decimal → Float
  | .finite negative c e => ofDecimal negative (digits c) e
  | .infinite negative => if negative then -(1.0 / 0.0) else 1.0 / 0.0
  | .notANumber .. => 0.0 / 0.0

/-- An integer as a decimal. -/
def ofInt (n : Int) : Decimal := .finite (n < 0) n.natAbs 0

end Decimal
end LinModel.Number
