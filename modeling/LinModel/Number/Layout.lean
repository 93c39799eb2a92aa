import LinModel.Number.Shortest

/-!
# How numbers are written

`plain` writes a double with the fewest digits that read back: positional while the decimal
exponent is between -4 and 15, else with an exponent of at least two digits, always with a
fraction or an exponent. `general` writes at most a given number of significant digits and no
zeros at the end. `numeral` writes integral doubles as whole numbers and the others `plain`.

Key definitions: `plain`, `numeral`, `general`, `padLeft`, `padRight`, `padBoth`.
-/
namespace LinModel.Number

/-- The coefficient's digits, with zeros in front up to `count`. -/
def Digits.chars (d : Digits) : List Char :=
  let cs := Nat.toDigits 10 d.coefficient
  List.replicate (d.count - cs.length) '0' ++ cs

/-- An exponent with its sign and at least two digits. -/
def exponentText (e : Int) : String :=
  let digits := Nat.toDigits 10 e.natAbs
  let wide := if digits.length < 2 then '0' :: digits else digits
  (if e < 0 then "e-" else "e+") ++ String.ofList wide

/-- One digit, the point and the others if there are any, and the exponent. -/
def Digits.scientific (d : Digits) : String :=
  let body := match d.chars with
    | [] => "0"
    | [c] => String.ofList [c]
    | c :: rest => String.ofList (c :: '.' :: rest)
  body ++ exponentText (d.point - 1)

/-- Digits around the point; `whole` is what follows an integral value. -/
def Digits.positional (d : Digits) (whole : String) : String :=
  let cs := d.chars
  if d.point ≤ 0 then
    "0." ++ String.ofList (List.replicate d.point.natAbs '0' ++ cs)
  else
    let n := d.point.natAbs
    if cs.length ≤ n then
      String.ofList (cs ++ List.replicate (n - cs.length) '0') ++ whole
    else
      String.ofList (cs.take n) ++ "." ++ String.ofList (cs.drop n)

/-- The text of the infinities and NaN, and otherwise the sign before what `body` writes of the
magnitude. -/
def signed (x : Float) (zero : String) (body : Binary → String) : String :=
  match Binary.ofFloat? x with
  | none => if x.isNaN then "nan" else if x < 0 then "-inf" else "inf"
  | some b =>
    let magnitude := if b.mantissa = 0 then zero else body b
    if b.negative then "-" ++ magnitude else magnitude

/-- The fewest digits that read back, always with a fraction or an exponent. -/
def plain (x : Float) : String :=
  signed x "0.0" fun b =>
    let d := shortest b
    if -4 ≤ d.point - 1 ∧ d.point - 1 < 16 then d.positional ".0" else d.scientific

/-- At most `count` significant digits, without zeros at the end. -/
def general (count : Nat) (x : Float) : String :=
  signed x "0" fun b =>
    let d := rounded b count
    let e := d.point - 1
    let d := d.trimmed
    if -4 ≤ e ∧ e < (count : Int) then d.positional "" else d.scientific

/-- Integral doubles as whole numbers (also `-0.0`, as `0`), the others `plain`. -/
def numeral (x : Float) : String :=
  match (Binary.ofFloat? x).bind Binary.toInt? with
  | some n => toString n
  | none => plain x

/-- Blanks in front, up to a width. -/
def padLeft (width : Nat) (s : String) : String :=
  String.ofList (List.replicate (width - s.length) ' ') ++ s

/-- Blanks at the end, up to a width. -/
def padRight (width : Nat) (s : String) : String :=
  s ++ String.ofList (List.replicate (width - s.length) ' ')

/-- Blanks on both sides, up to a width, the odd one at the end. -/
def padBoth (width : Nat) (s : String) : String :=
  let missing := width - s.length
  String.ofList (List.replicate (missing / 2) ' ') ++ s ++
    String.ofList (List.replicate (missing - missing / 2) ' ')

end LinModel.Number
