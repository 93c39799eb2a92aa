import LinModel.Scalar

/-!
# Decision variables

A variable has a nonempty name, a kind and bounds. Boolean variables are bounded by zero and one;
the bounds of the others may be infinite but neither NaN nor inverted.

Key definitions: `VariableName`, `VariableKind`, `Variable`, `Variable.declare`, `BoundsError`.
-/
namespace LinModel

/-- Different numbers are written differently. -/
theorem eq_of_toString_eq {m n : Nat} (h : toString m = toString n) : m = n := by
  have hdigits : Nat.toDigits 10 m = Nat.toDigits 10 n := by
    simpa [Nat.toString_eq_repr] using congrArg String.toList h
  calc m = Nat.ofDigitChars 10 (Nat.toDigits 10 m) 0 := Nat.ofDigitChars_ten_toDigits.symm
    _ = Nat.ofDigitChars 10 (Nat.toDigits 10 n) 0 := by rw [hdigits]
    _ = n := Nat.ofDigitChars_ten_toDigits

/-- The name of a decision variable: a nonempty text. -/
structure VariableName where
  text : String
  nonempty : text ≠ ""
deriving DecidableEq

namespace VariableName

/-- A nonempty text as a name. -/
def ofText? (text : String) : Option VariableName :=
  if h : text ≠ "" then some ⟨text, h⟩ else none

/-- The name with number `n` in the automatic sequence. -/
def automatic (n : Nat) : VariableName where
  text := "x" ++ toString n
  nonempty h := by
    have := congrArg String.length h
    simp at this

/-- Automatic names with different numbers are different. -/
theorem automatic_inj {m n : Nat} : automatic m = automatic n ↔ m = n := by
  constructor
  · intro h
    have htext : "x" ++ toString m = "x" ++ toString n := congrArg text h
    exact eq_of_toString_eq ((String.append_right_inj "x").mp htext)
  · rintro rfl
    rfl

@[simp] theorem ofText?_text (name : VariableName) : ofText? name.text = some name := by
  simp [ofText?, name.nonempty]

/-- A name is its text. -/
theorem eq_of_text_eq {a b : VariableName} (h : a.text = b.text) : a = b := by
  cases a
  cases b
  cases h
  rfl

end VariableName

/-- The domain of a variable. -/
inductive VariableKind
  | boolean
  | integer
  | numeric
deriving DecidableEq

/-- Whether values of the kind are integers. -/
def VariableKind.isDiscrete : VariableKind → Bool
  | .numeric => false
  | _ => true

/-- A decision variable. -/
structure Variable (K : Type) where
  name : VariableName
  kind : VariableKind
  lower : K
  upper : K

/-- Why bounds do not fit a variable. -/
inductive BoundsError (K : Type)
  /-- A boolean variable was given bounds other than zero and one. -/
  | notUnit (name : VariableName)
  | notANumber (name : VariableName)
  | inverted (name : VariableName) (lower upper : K)

namespace Variable

variable {K : Type} [Scalar K]

/-- Whether a given bound, if there is one, equals the fixed one. -/
def agrees (given : Option K) (fixed : K) : Bool :=
  match given with
  | none => true
  | some b => Scalar.beq b fixed

/-- A variable of a kind with the given bounds; a bound left out is infinite, and fixed for
boolean variables. -/
def declare (name : VariableName) (kind : VariableKind) (lower upper : Option K) :
    Except (BoundsError K) (Variable K) :=
  match kind with
  | .boolean =>
    if agrees lower Scalar.zero && agrees upper Scalar.one then
      .ok ⟨name, kind, Scalar.zero, Scalar.one⟩
    else .error (.notUnit name)
  | _ =>
    let low := lower.getD (-Scalar.infinity)
    let high := upper.getD Scalar.infinity
    if Scalar.isNaN low || Scalar.isNaN high then .error (.notANumber name)
    else if Scalar.lt high low then .error (.inverted name low high)
    else .ok ⟨name, kind, low, high⟩

end Variable

/-- The wording of an error; for a boolean variable the bounds are shown as they were given. -/
def BoundsError.message {K : Type} (write : K → String) (given : String × String) :
    BoundsError K → String
  | .notUnit name =>
    "Boolean variable '" ++ name.text ++ "' is bounded to [0, 1], got [" ++ given.1 ++ ", "
      ++ given.2 ++ "]"
  | .notANumber name => "Bounds of variable '" ++ name.text ++ "' must not be NaN"
  | .inverted name lower upper =>
    "Variable '" ++ name.text ++ "' has lower bound " ++ write lower ++ " above upper bound "
      ++ write upper

end LinModel
