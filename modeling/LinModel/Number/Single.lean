import LinModel.Number.Layout

/-!
# Single precision

Numbers of single precision are held as the doubles that equal them. `toSingle` rounds a double to
the nearest of them, and their text has the fewest digits that tell one from its neighbours: it is
positional from one ten-thousandth on and below ten million, the largest power of ten that such a
number still counts in ones.

Key definitions: `toSingle`, `Binary.inSingle`, `shortestSingle`, `plainSingle`.
-/
namespace LinModel.Number

/-- The nearest number of single precision. -/
def toSingle (x : Float) : Float := x.toFloat32.toFloat

/-- A double of single precision with the mantissa and exponent of that format. -/
def Binary.inSingle (b : Binary) : Binary :=
  let shift := max 29 (Precision.single.lowest - b.exponent).toNat
  ⟨b.negative, b.mantissa / Nat.pow 2 shift, b.exponent + shift⟩

/-- The fewest digits that read back in single precision as a nonzero number. -/
def shortestSingle (b : Binary) : Digits :=
  shortestFrom .single b.inSingle (decimalPoint b.ratio.1 b.ratio.2) 9 1

/-- The fewest digits that read back in single precision, always with a fraction or an exponent. -/
def plainSingle (x : Float) : String :=
  signed x "0.0" fun b =>
    let d := shortestSingle b
    if 0.0001 ≤ x.abs ∧ d.point - 1 < 7 then d.positional ".0" else d.scientific

end LinModel.Number
