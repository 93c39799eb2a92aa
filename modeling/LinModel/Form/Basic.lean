import LinModel.Scalar

/-!
# Forms over program variables

A form is what a program says of its variables: handles and numbers under sums, opposites,
products and quotients, kept as they were written. A form has a value where its handles have one,
a slope in each handle, and a sign that holds wherever the handles have the signs they are known
to have. Sums within sums count as one sum, whose values are added from left to right.

Key definitions: `Form`, `Form.value?`, `Form.slope`, `Form.sign`, `Form.ofTerms`.
-/
namespace LinModel

/-- A form over handles. -/
inductive Form (ν K : Type)
  | constant (value : K)
  | handle (h : ν)
  | sum (left right : Form ν K)
  | negation (form : Form ν K)
  | product (left right : Form ν K)
  | quotient (left right : Form ν K)

/-- What is known of the sign of a number: whether it is at least and at most zero. -/
structure Sign where
  isNonnegative : Bool
  isNonpositive : Bool
deriving DecidableEq

namespace Sign

/-- A number of which nothing is known. -/
def unknown : Sign := ⟨false, false⟩

/-- The sign of zero. -/
def zero : Sign := ⟨true, true⟩

/-- The sign of a sum. -/
def add (a b : Sign) : Sign :=
  ⟨a.isNonnegative && b.isNonnegative, a.isNonpositive && b.isNonpositive⟩

/-- The sign of the opposite. -/
def neg (a : Sign) : Sign := ⟨a.isNonpositive, a.isNonnegative⟩

/-- The sign of a product. -/
def mul (a b : Sign) : Sign :=
  let isZero := a = zero || b = zero
  ⟨isZero || (a.isNonnegative && b.isNonnegative) || (a.isNonpositive && b.isNonpositive),
    isZero || (a.isNonpositive && b.isNonnegative) || (a.isNonnegative && b.isNonpositive)⟩

end Sign

namespace Form

variable {ν K : Type}

/-- The handles that occur, from left to right. -/
def handles : Form ν K → List ν
  | .constant _ => []
  | .handle h => [h]
  | .negation a => a.handles
  | .sum a b | .product a b | .quotient a b => a.handles ++ b.handles

/-- Whether no handle occurs. -/
def isConstant (f : Form ν K) : Bool := f.handles.isEmpty

/-- Whether the form is a sum of numbers and of multiples of handles, by the way it is written. -/
def isAffine : Form ν K → Bool
  | .constant _ | .handle _ => true
  | .sum a b => a.isAffine && b.isAffine
  | .negation a => a.isAffine
  | .product a b => (a.isConstant || b.isConstant) && a.isAffine && b.isAffine
  | .quotient a b => b.isConstant && a.isAffine

variable [Scalar K]

/-- The value of a form on top of what comes before it in a sum, if its handles have values. -/
def valueAfter? (lookUp : ν → Option K) (before : Option K) : Form ν K → Option K
  | .constant k => some (onTop k)
  | .handle h => (lookUp h).map onTop
  | .sum a b => (a.valueAfter? lookUp before).bind fun x => b.valueAfter? lookUp (some x)
  | .negation a => (a.valueAfter? lookUp none).map fun x => onTop (-x)
  | .product a b => do return onTop ((← a.valueAfter? lookUp none) * (← b.valueAfter? lookUp none))
  | .quotient a b => do return onTop ((← a.valueAfter? lookUp none) / (← b.valueAfter? lookUp none))
where
  /-- A number on top of what comes before it. -/
  onTop (x : K) : K := match before with
    | some total => total + x
    | none => x

/-- The value of a form, if its handles have values. -/
def value? (lookUp : ν → Option K) (f : Form ν K) : Option K := f.valueAfter? lookUp none

/-- The value of a form where all handles are zero. -/
def valueAtZero (f : Form ν K) : K := (f.value? fun _ => some Scalar.zero).getD Scalar.zero

/-- The product of two numbers, zero as soon as one of them is. -/
def damped (a b : K) : K :=
  if Scalar.beq a Scalar.zero || Scalar.beq b Scalar.zero then Scalar.zero else a * b

/-- The slope of a form in a handle where all handles are zero. The slope of a quotient is the one
of its dividend, divided by the divisor if that is a constant other than zero; a constant divisor
of zero makes it zero. -/
def slope [BEq ν] (h : ν) : Form ν K → K
  | .constant _ => Scalar.zero
  | .handle g => if g == h then Scalar.one else Scalar.zero
  | .sum a b => a.slope h + b.slope h
  | .negation a => -a.slope h
  | .product a b =>
    if a.isConstant then damped a.valueAtZero (b.slope h)
    else if b.isConstant then damped b.valueAtZero (a.slope h)
    else damped b.valueAtZero (a.slope h) + damped a.valueAtZero (b.slope h)
  | .quotient a b =>
    if !b.isConstant then a.slope h
    else if Scalar.beq b.valueAtZero Scalar.zero then Scalar.zero
    else damped (a.slope h) (Scalar.one / b.valueAtZero)

/-- The sign of a number. -/
def signOf (k : K) : Sign := ⟨Scalar.le Scalar.zero k, Scalar.le k Scalar.zero⟩

/-- The sign of a form, given the signs of its handles. -/
def sign (ofHandle : ν → Sign) : Form ν K → Sign
  | .constant k => signOf k
  | .handle h => ofHandle h
  | .sum a b => (a.sign ofHandle).add (b.sign ofHandle)
  | .negation a => (a.sign ofHandle).neg
  | .product a b | .quotient a b => (a.sign ofHandle).mul (b.sign ofHandle)

/-- Numbers times handles, added up. -/
def ofTerms : List (ν × K) → Option (Form ν K)
  | [] => none
  | (h, c) :: rest => some (rest.foldl (fun total (h, c) =>
      .sum total (.product (.constant c) (.handle h))) (.product (.constant c) (.handle h)))

/-- Numbers times handles and a constant, which is left out if it is zero and there are others. -/
def ofTermsAnd (terms : List (ν × K)) (k : K) : Form ν K :=
  match ofTerms terms with
  | none => .constant k
  | some f => if Scalar.beq k Scalar.zero then f else .sum f (.constant k)

end Form
end LinModel
