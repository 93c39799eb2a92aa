import LinModel.NumArray.Select
import LinModel.Session.Text

/-!
# Indices and ranges

What counts as an index, how large an index may be, and the places that a range selects. A range
may leave out its start, its end and its step; negative ones count from the end.

Key definitions: `Value.index?`, `indexOf`, `checkedIndex`, `refuseChange`, `RangeBounds`,
`rangeBounds`, `RangeBounds.places`.
-/
namespace LinModel.Session

/-- The integer that a value is as an index. -/
def Value.index? : Value → Option Int
  | .truth b => some (if b then 1 else 0)
  | .integer n _ => some n
  | .machine (.integer n) _ => some n
  | _ => Option.none

/-- The integer that a value is as an index, if it is one. Of the arrays only a single integer on
the device is one. -/
def indexOf (v : Value) : Script (Option Int) := do
  match (← get).object? v with
  | some (.array a) =>
    if !a.onDevice then
      fault .type "only integer scalar arrays can be converted to a scalar index"
    match a.shape, a.numbers with
    | [], [.integer n] => return some n
    | _, _ => fail .type "Only integer scalar arrays can be converted to a scalar index."
  | _ => return v.index?

/-- The largest index that can be asked for. -/
def largestIndex : Int := 9223372036854775807

/-- An index that is neither too large nor too small. -/
def checkedIndex (i : Int) : Script Int :=
  if -largestIndex - 1 ≤ i ∧ i ≤ largestIndex then return i
  else fail .missingIndex "cannot fit 'int' into an index-sized integer"

/-- Whether the size of an index is checked before it turns out that a value has no items that can
be changed. -/
def Value.checksIndex : Value → Bool
  | .text .. | .name .. | .fraction .. | .tuple .. | .selector .. | .part .. | .member _ => true
  | .object c _ => match c with
    | .list | .dict | .callable | .iterator => false
    | _ => true
  | _ => false

/-- Refuses to change an item of what has none that can be changed. -/
def refuseChange {α : Type} (on k : Value) (message : String) : Script α := do
  if on.checksIndex then
    if let some i ← indexOf k then
      let _ ← checkedIndex i
  fault .type message

/-- The bounds of a range, with a step that is not zero. -/
structure RangeBounds where
  start : Option Int
  stop : Option Int
  step : Int

/-- The bounds that values are. -/
def rangeBounds (start stop step : Value) : Script RangeBounds := do
  let bound := fun (v : Value) => match v with
    | .none => pure none
    | v => do match ← indexOf v with
      | some i => pure (some i)
      | none => (fault .type
          "slice indices must be integers or None or have an __index__ method" :
          Script (Option Int))
  let step ← bound step
  if step = some 0 then fail .value "slice step cannot be zero"
  let start ← bound start
  let stop ← bound stop
  return ⟨start, stop, step.getD 1⟩

/-- The places that a range selects among `length` items, in order. -/
def RangeBounds.places (r : RangeBounds) (length : Nat) : List Nat :=
  let n : Int := length
  let clamp := fun (low high i : Int) =>
    let i := if i < 0 then i + n else i
    max low (min high i)
  let (first, last) := if 0 < r.step then
      ((r.start.map (clamp 0 n)).getD 0, (r.stop.map (clamp 0 n)).getD n)
    else ((r.start.map (clamp (-1) (n - 1))).getD (n - 1),
      (r.stop.map (clamp (-1) (n - 1))).getD (-1))
  let count := if 0 < r.step then (last - first + r.step - 1).toNat / r.step.toNat
    else (first - last - r.step - 1).toNat / (-r.step).toNat
  (List.range count).map fun (i : Nat) => (first + r.step * i).toNat

/-- The places that values select as the bounds of a range among `length` items. -/
def rangePlaces (start stop step : Value) (length : Nat) : Script (List Nat) := do
  return (← rangeBounds start stop step).places length

end LinModel.Session
