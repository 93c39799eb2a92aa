import LinModel.Number.Machine

/-!
# Numbers in columns

The texts of numbers that stand in rows or columns, all of one width. Doubles have their points
below each other and the fewest digits that tell each apart, but no more than eight after the
point; if their sizes are too far apart all have an exponent, with as many digits as the longest.
Integers and truth values are filled with blanks.

Key definitions: `NumberStyle`, `realColumns`, `columns`.
-/
namespace LinModel.Number

/-- A format of numbers: their fewest digits, and rounding to it. -/
structure NumberStyle where
  digits : Binary → Digits
  round : Float → Float

/-- The style of doubles. -/
def NumberStyle.double : NumberStyle := ⟨shortest, id⟩

/-- The style of single precision. -/
def NumberStyle.single : NumberStyle := ⟨shortestSingle, toSingle⟩

/-- The digits of a finite number before and after the point, the latter at most eight. -/
def pointParts (style : NumberStyle) (x : Float) : String × String :=
  let text := signed x "0." fun b =>
    let d := style.digits b
    let d := if 8 < d.count - d.point then
        let size := (d.point + 8).toNat
        if size = 0 then ⟨0, 1, 1⟩ else (rounded b size).trimmed
      else d
    d.positional "."
  match text.splitOn "." with
  | [whole, fraction] => (whole, fraction)
  | _ => (text, "")

/-- A finite number with an exponent: the mantissa's digits before and after the point, the sign of
the exponent and its digits. -/
structure ExponentParts where
  whole : String
  fraction : String
  sign : String
  exponent : String

/-- The parts of a finite number with an exponent. -/
def exponentParts (style : NumberStyle) (x : Float) : ExponentParts :=
  let text := signed x "0e+00" fun b =>
    let d := style.digits b
    (if 9 < d.count then (rounded b 9).trimmed else d).scientific
  let parts := fun (mantissa e : String) =>
    let (sign, exponent) := match e.toList with
      | c :: digits => (String.ofList [c], String.ofList digits)
      | [] => ("", "")
    match mantissa.splitOn "." with
    | [whole, fraction] => ⟨whole, fraction, sign, exponent⟩
    | _ => ⟨mantissa, "", sign, exponent⟩
  match text.splitOn "e" with
  | [mantissa, e] => parts mantissa e
  | _ => parts text ""

/-- Whether numbers are written with an exponent: some are very large or small, or they are too far
apart. -/
def needExponent (style : NumberStyle) (xs : List Float) : Bool :=
  let sizes := (xs.map Float.abs).filter (0.0 < ·)
  match sizes with
  | [] => false
  | x :: rest =>
    let high := rest.foldl max x
    let low := rest.foldl min x
    1e8 ≤ high || low < style.round 0.0001 || 1000.0 < style.round (high / low)

/-- The longest of some texts. -/
def widest (texts : List String) : Nat := (texts.map String.length).foldl max 0

/-- Zeros up to a width. -/
def zeros (width : Nat) (s : String) : String :=
  String.ofList (List.replicate (width - s.length) '0')

/-- Numbers of a format as texts of one width. -/
def realColumns (style : NumberStyle) (xs : List Float) : List String :=
  let finite := xs.filter Float.isFinite
  let special := fun x : Float => if x.isNaN then "nan" else if x < 0.0 then "-inf" else "inf"
  let specials := (xs.filter (!·.isFinite)).map special
  if needExponent style finite then
    let parts := finite.map (exponentParts style)
    let left := widest (parts.map (·.whole))
    let right := widest (parts.map (·.fraction))
    let size := widest (parts.map (·.exponent))
    let write := fun x =>
      let p := exponentParts style x
      padLeft left p.whole ++ "." ++ p.fraction ++ zeros right p.fraction ++ "e" ++ p.sign
        ++ zeros size p.exponent ++ p.exponent
    let width := max (widest (finite.map write)) (widest specials)
    xs.map fun x => padLeft width (if x.isFinite then write x else special x)
  else
    let parts := finite.map (pointParts style)
    let left := widest (parts.map (·.1))
    let right := widest (parts.map (·.2))
    let write := fun x =>
      let (whole, fraction) := pointParts style x
      padLeft left whole ++ "." ++ padRight right fraction
    let width := max (if finite.isEmpty then 0 else left + right + 1) (widest specials)
    xs.map fun x => padLeft width (if x.isFinite then write x else special x)

/-- Numbers of a width as texts of one length, that of the longest there can be or is. -/
def columns (w : Width) (ns : List MachineNumber) : List String :=
  match w with
  | .double => realColumns .double (ns.map MachineNumber.toFloat)
  | .single => realColumns .single (ns.map MachineNumber.toFloat)
  | .integer =>
    let texts := ns.map MachineNumber.toText
    texts.map (padLeft (widest texts))
  | .truth => ns.map fun n => padLeft "False".length n.toText

end LinModel.Number
