import LinModel.Number.Machine

/-!
# Real numbers

The numbers that arithmetic on expressions takes: doubles, and integers, fractions and numbers of
fixed width, which convert to the nearest double. An integer or a fraction beyond the largest double
has none. Unlike a double that is infinite already, it does not get as far as arithmetic.

Key definitions: `RealNumber`, `ConversionError`, `RealNumber.toDouble`.
-/
namespace LinModel

/-- A double, or a number that converts to one. -/
inductive RealNumber
  | double (x : Float)
  | integer (n : Int)
  | fraction (q : Rat)
  | machine (n : MachineNumber)

/-- Why a number has no double. -/
inductive ConversionError
  | integerTooLarge
  | quotientTooLarge

/-- The wording of an error. -/
def ConversionError.message : ConversionError → String
  | .integerTooLarge => "int too large to convert to float"
  | .quotientTooLarge => "integer division result too large for a float"

/-- The double nearest to a number, if that is not infinite. -/
def RealNumber.toDouble : RealNumber → Except ConversionError Float
  | .double x => .ok x
  | .integer n => unlessInfinite .integerTooLarge (Number.nearestInt n)
  | .fraction q => unlessInfinite .quotientTooLarge (Number.nearest (q < 0) q.num.natAbs q.den)
  | .machine n => .ok n.toFloat
where
  /-- What a number was rounded to. -/
  unlessInfinite (e : ConversionError) (x : Float) : Except ConversionError Float :=
    if x.isFinite then .ok x else .error e

end LinModel
