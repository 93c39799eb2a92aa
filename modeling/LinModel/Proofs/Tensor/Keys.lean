import Mathlib.Data.Rat.Defs
import LinModel.Tensor.Grid

/-!
# Ordinary keys

The keys that tensors are mostly read by: nothing, texts, truth values, numbers other than NaN, and
tuples of these. A truth value is the same key as the number one or zero, alone and within a tuple,
so keys can be the same without being identical: what is stored under 1 is found by a truth value.
Keys are the same if they are written in the same way, truth values as numbers. That is an
equivalence.

Key definitions: `PlainKey`, `PlainKey.written`.
-/
namespace LinModel

/-- A key of a plain kind. -/
inductive PlainKey
  | nothing
  | text (s : String)
  | truth (b : Bool)
  | number (q : ℚ)
  | infinite (negative : Bool)
  | tuple (items : List PlainKey)

namespace PlainKey

/-- What keys are written with: atoms, and brackets around the items of a tuple. -/
inductive Mark
  | nothing
  | text (s : String)
  | number (q : ℚ)
  | infinite (negative : Bool)
  | opening
  | closing
deriving DecidableEq

/-- A key in writing, a truth value as its number. -/
def written : PlainKey → List Mark
  | .nothing => [.nothing]
  | .text s => [.text s]
  | .truth b => [.number (if b then 1 else 0)]
  | .number q => [.number q]
  | .infinite negative => [.infinite negative]
  | .tuple items => .opening :: all items ++ [.closing]
where
  /-- Keys in writing, one after the other. -/
  all : List PlainKey → List Mark
    | [] => []
    | k :: rest => written k ++ all rest

/-- Keys are the same if they are in writing, and all of them can be used. -/
instance : Key PlainKey where
  beq a b := decide (a.written = b.written)
  usable _ := true

theorem beq_iff {a b : PlainKey} : (a == b) = true ↔ a.written = b.written := decide_eq_true_iff

instance : EquivBEq PlainKey where
  rfl := beq_iff.mpr rfl
  symm h := beq_iff.mpr (beq_iff.mp h).symm
  trans h h' := beq_iff.mpr ((beq_iff.mp h).trans (beq_iff.mp h'))

example : (tuple [truth true, text "a"] == tuple [number 1, text "a"]) = true := by decide +kernel

end PlainKey
end LinModel
