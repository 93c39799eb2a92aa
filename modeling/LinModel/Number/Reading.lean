import LinModel.Number.Binary
import LinModel.Text.DecimalDigit

/-!
# Reading numbers

A number is written as an optional sign and either digits with at most one point and an optional
exponent, or a word for an infinity or NaN in any case. Single underscores may stand between
digits, and blanks around the whole; the digits may be those of any script. The value is the
double nearest to the decimal.

Key definitions: `read?`, `readInt?`.
-/
namespace LinModel.Number

/-- Blanks that may surround a number. -/
def isBlank (c : Char) : Bool :=
  let n := c.toNat
  (9 ≤ n && n ≤ 13) || (28 ≤ n && n ≤ 32) || n == 0x85 || n == 0xA0 || n == 0x1680 ||
    (0x2000 ≤ n && n ≤ 0x200A) || n == 0x2028 || n == 0x2029 || n == 0x202F || n == 0x205F ||
    n == 0x3000

/-- Without the blanks around it. -/
def strip (cs : List Char) : List Char :=
  ((cs.dropWhile isBlank).reverse.dropWhile isBlank).reverse

/-- Whether every underscore stands between two digits. -/
def underscoresFit : Bool → List Char → Bool
  | _, [] => true
  | afterDigit, '_' :: c :: rest => afterDigit && c.isDigit && underscoresFit true rest
  | _, ['_'] => false
  | _, c :: rest => underscoresFit c.isDigit rest

/-- The digits at the front, and what follows them. -/
def spanDigits (cs : List Char) : List Char × List Char :=
  (cs.takeWhile Char.isDigit, cs.dropWhile Char.isDigit)

/-- The value of a list of digits. -/
def digitsValue (cs : List Char) : Nat :=
  cs.foldl (fun n c => n * 10 + (c.toNat - '0'.toNat)) 0

/-- An exponent mark with its integer, or nothing. -/
def exponent? : List Char → Option Int
  | [] => some 0
  | c :: rest =>
    if c != 'e' && c != 'E' then none
    else
      let (negative, digits) := match rest with
        | '-' :: ds => (true, ds)
        | '+' :: ds => (false, ds)
        | ds => (false, ds)
      if digits.isEmpty || !digits.all Char.isDigit then none
      else some (if negative then -(digitsValue digits : Int) else digitsValue digits)

/-- `digits · 10 ^ e` rounded to a double; far outside the doubles' range no power is computed. -/
def ofDecimal (negative : Bool) (digits : List Char) (e : Int) : Float :=
  let n := digitsValue digits
  let size : Int := (digits.dropWhile (· == '0')).length + e
  if n = 0 ∨ size < -400 then nearest negative 0 1
  else if 400 < size then nearest negative (Nat.pow 2 1100) 1
  else if e < 0 then nearest negative n (Nat.pow 10 e.natAbs)
  else nearest negative (n * Nat.pow 10 e.natAbs) 1

/-- The parts of an unsigned decimal: its digits and the exponent of the last one. -/
def decimalParts? (cs : List Char) : Option (List Char × Int) :=
  let (whole, rest) := spanDigits cs
  let (fraction, rest) := match rest with
    | '.' :: r => spanDigits r
    | r => ([], r)
  if whole.isEmpty && fraction.isEmpty then none
  else (exponent? rest).map fun e => (whole ++ fraction, e - fraction.length)

/-- The sign in front, and what follows it. -/
def spanSign : List Char → Bool × List Char
  | '-' :: rest => (true, rest)
  | '+' :: rest => (false, rest)
  | cs => (false, cs)

/-- The characters of a written number: no blanks around it, and digits of one script. -/
def numberChars (s : String) : List Char := strip (s.toList.map Text.westernDigit)

/-- The double that a text writes. -/
def read? (s : String) : Option Float :=
  let (negative, body) := spanSign (numberChars s)
  let word := String.ofList (body.map Char.toLower)
  if word = "inf" ∨ word = "infinity" then some (if negative then -(1.0 / 0.0) else 1.0 / 0.0)
  else if word = "nan" then some (0.0 / 0.0)
  else if !underscoresFit false body then none
  else (decimalParts? (body.filter (· != '_'))).map fun (digits, e) => ofDecimal negative digits e

/-- The integer that a text writes: a sign and digits, with single underscores between them. -/
def readInt? (s : String) : Option Int :=
  let (negative, body) := spanSign (numberChars s)
  let digits := body.filter (· != '_')
  if !underscoresFit false body || digits.isEmpty || !digits.all Char.isDigit then none
  else some (if negative then -(digitsValue digits : Int) else digitsValue digits)

end LinModel.Number
