import LinModel.Form.Curvature

/-!
# The text of forms

A form is written as it was put together: sums without parentheses, and sums and quotients within
products, quotients and opposites in parentheses where they could be misread. A form is described
by its curvature and its sign.

Key definitions: `Form.written`, `Form.describe`.
-/
namespace LinModel.Form

variable {ν K : Type}

/-- A text in parentheses if asked for. -/
def parenthesized (isWanted : Bool) (text : String) : String :=
  if isWanted then "(" ++ text ++ ")" else text

/-- Whether a form stands in parentheses as a factor. -/
def isParenthesized : Form ν K → Bool
  | .sum .. | .quotient .. => true
  | _ => false

/-- The text of a form, given the names of its handles and the texts of its numbers. -/
def written (name : ν → String) (numeral : K → String) : Form ν K → String
  | .constant k => numeral k
  | .handle h => name h
  | .sum a b => a.written name numeral ++ " + " ++ b.written name numeral
  | .negation a => "-" ++ parenthesized (isSum a) (a.written name numeral)
  | .product a b =>
    parenthesized a.isParenthesized (a.written name numeral) ++ " * "
      ++ parenthesized b.isParenthesized (b.written name numeral)
  | .quotient a b =>
    parenthesized a.isParenthesized (a.written name numeral) ++ " / "
      ++ parenthesized b.isParenthesized (b.written name numeral)
where
  /-- Whether a form is a sum. -/
  isSum : Form ν K → Bool
    | .sum .. => true
    | _ => false

/-- The word for a curvature. -/
def curvatureWord : Curvature → String
  | .constant => "CONSTANT"
  | .affine => "AFFINE"
  | .quasilinear => "QUASILINEAR"
  | .quasiconvex => "QUASICONVEX"
  | .quasiconcave => "QUASICONCAVE"
  | .unknown => "UNKNOWN"

/-- The word for a sign. -/
def signWord : Sign → String
  | ⟨true, true⟩ => "ZERO"
  | ⟨true, false⟩ => "NONNEGATIVE"
  | ⟨false, true⟩ => "NONPOSITIVE"
  | ⟨false, false⟩ => "UNKNOWN"

/-- The curvature and the sign of a form, given the signs of its handles. -/
def describe [Scalar K] (ofHandle : ν → Sign) (f : Form ν K) : String :=
  (match f with
    | .constant _ => "Constant("
    | _ => "Expression(") ++ curvatureWord (f.curvature ofHandle) ++ ", "
      ++ signWord (f.sign ofHandle) ++ ", ())"

end LinModel.Form
