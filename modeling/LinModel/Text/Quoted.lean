import LinModel.Text.Printable

/-!
# Quoted text

A quoted text stands between single quotes, or between double quotes if it holds a single quote
and no double one. The quote, the backslash, line feed, carriage return and tab are written with a
backslash, and every other character that is not shown as itself by its code in hexadecimal.

Key definitions: `quote`.
-/
namespace LinModel.Text

/-- The hexadecimal code with zeros in front up to a width. -/
def hexadecimal (width n : Nat) : List Char :=
  let digits := Nat.toDigits 16 n
  List.replicate (width - digits.length) '0' ++ digits

/-- A character that is not shown as itself, by its code. -/
def escapeCode (n : Nat) : List Char :=
  if n < 0x100 then '\\' :: 'x' :: hexadecimal 2 n
  else if n < 0x10000 then '\\' :: 'u' :: hexadecimal 4 n
  else '\\' :: 'U' :: hexadecimal 8 n

/-- One character inside quotes `q`. -/
def escape (q c : Char) : List Char :=
  if c = q ∨ c = '\\' then ['\\', c]
  else if c = '\n' then ['\\', 'n']
  else if c = '\r' then ['\\', 'r']
  else if c = '\t' then ['\\', 't']
  else if isPrintable c then [c]
  else escapeCode c.toNat

/-- The quote that a text is put in. -/
def quoteMark (s : String) : Char :=
  if s.toList.contains '\'' && !s.toList.contains '"' then '"' else '\''

/-- The text in quotes. -/
def quote (s : String) : String :=
  let q := quoteMark s
  String.ofList (q :: s.toList.flatMap (escape q) ++ [q])

end LinModel.Text
