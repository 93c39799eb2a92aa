import LinModel.Form.Basic

/-!
# The curvature of forms

What the way a form is written says of its curvature, given the signs of its handles. A form that
is not affine may still be known to have sublevel sets, or superlevel sets, that are convex: a
product of forms of known signs, a quotient by a form of known sign, and a monotone function of
one such form.

Key definitions: `LevelSets`, `Curvature`, `Form.levelSets`, `Form.curvature`.
-/
namespace LinModel

/-- Which level sets of a form are known to be convex. -/
structure LevelSets where
  /-- Those below a level. -/
  below : Bool
  /-- Those above a level. -/
  above : Bool

namespace LevelSets

/-- Nothing is known. -/
def unknown : LevelSets := ⟨false, false⟩

/-- The level sets of a function that grows with a form or falls with it, as far as a sign says
which. -/
def under (sign : Sign) (l : LevelSets) : LevelSets :=
  if sign.isNonnegative then l
  else if sign.isNonpositive then ⟨l.above, l.below⟩
  else unknown

end LevelSets

/-- What is known of the curvature of a form. -/
inductive Curvature
  | constant
  | affine
  | quasilinear
  | quasiconvex
  | quasiconcave
  | unknown
deriving DecidableEq

namespace Form

variable {ν K : Type} [Scalar K]

/-- The level sets of a form that are known to be convex. -/
def levelSets (ofHandle : ν → Sign) : Form ν K → LevelSets
  | .constant _ | .handle _ => ⟨true, true⟩
  | .sum a b =>
    if a.isConstant then b.levelSets ofHandle
    else if b.isConstant then a.levelSets ofHandle
    else affineOnly (a.isAffine && b.isAffine)
  | .negation a => ⟨(a.levelSets ofHandle).above, (a.levelSets ofHandle).below⟩
  | .product a b =>
    if a.isConstant then scaled (a.sign ofHandle) b (b.levelSets ofHandle)
    else if b.isConstant then scaled (b.sign ofHandle) a (a.levelSets ofHandle)
    else if a.isAffine && b.isAffine then
      let s := a.sign ofHandle
      let t := b.sign ofHandle
      ⟨(s.isNonnegative && t.isNonpositive) || (s.isNonpositive && t.isNonnegative),
        (s.isNonnegative && t.isNonnegative) || (s.isNonpositive && t.isNonpositive)⟩
    else .unknown
  | .quotient a b =>
    let s := a.sign ofHandle
    let t := b.sign ofHandle
    if b.isConstant then scaled t a (a.levelSets ofHandle)
    else if a.isConstant && (s.isNonnegative || s.isNonpositive) then
      (b.levelSets ofHandle).under s.neg
    else affineOnly ((t.isNonnegative || t.isNonpositive) && a.isAffine && b.isAffine)
where
  /-- All level sets or none. -/
  affineOnly (isKnown : Bool) : LevelSets := ⟨isKnown, isKnown⟩
  /-- The level sets of a multiple of a form. -/
  scaled (sign : Sign) (form : Form ν K) (l : LevelSets) : LevelSets :=
    if form.isAffine then affineOnly true else l.under sign

/-- What is known of the curvature of a form. -/
def curvature (ofHandle : ν → Sign) (f : Form ν K) : Curvature :=
  if f.isConstant then .constant
  else if f.isAffine then .affine
  else match f.levelSets ofHandle with
    | ⟨true, true⟩ => .quasilinear
    | ⟨true, false⟩ => .quasiconvex
    | ⟨false, true⟩ => .quasiconcave
    | ⟨false, false⟩ => .unknown

end Form
end LinModel
