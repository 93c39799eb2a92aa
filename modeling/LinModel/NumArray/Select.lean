import LinModel.NumArray.Basic

/-!
# Parts of numerical arrays

What indices select in an array. Along its dimensions an index selects distances in the list of
numbers: a place selects one, a range several, and an array of places one for each of its places.
Arrays of places are spread to a common shape and share their dimensions, which stand where the
first of them stood if nothing but places stands between them, and in front otherwise. Outside the
device a place must exist. On it a single place that does not gives way to the nearest one, and one
in an array of places selects a filling.

Key definitions: `AxisIndex`, `AxisPart`, `Selection`, `axisParts`, `Selection.ofParts`,
`NumArray.select`, `NumArray.replacePart`.
-/
namespace LinModel

/-- An index along the dimensions of an array. -/
inductive AxisIndex
  /-- One place, counted from the end if it is negative. -/
  | place (i : Int)
  /-- Some places in order. -/
  | places (among : Nat → List Nat)
  /-- A new dimension, of one or of nothing. -/
  | newAxis (size : Nat)
  /-- Places under a shape, each counted from the end if it is negative. -/
  | gather (shape : List Nat) (places : List Int)
  /-- The places at which truth values under a shape hold. -/
  | mask (shape : List Nat) (truths : List Bool)

/-- What an index selects, as distances in the list of numbers; a missing one selects a filling. -/
inductive AxisPart
  | fixed (distance : Nat)
  /-- The places of a dimension. -/
  | along (distances : List Nat)
  /-- Places under a shape that several indices share. -/
  | shared (shape : List Nat) (distances : List (Option Nat))

/-- The place of an index, counted from the end if it is negative. -/
def NumArray.placeOf? (length : Nat) (i : Int) : Option Nat :=
  let place := if i < 0 then i + length else i
  if 0 ≤ place ∧ place < length then some place.toNat else none

namespace AxisIndex

/-- How many dimensions an index uses up. -/
def uses : AxisIndex → Nat
  | .newAxis _ => 0
  | .mask shape _ => shape.length
  | .place _ | .places _ | .gather .. => 1

/-- What an index selects along the dimensions that it uses up, whose places are `stride` numbers
apart. -/
def part (onDevice : Bool) (axis : Nat) (index : AxisIndex) (dims : List Nat) (stride : Nat) :
    Except ArrayError AxisPart :=
  match index, dims with
  | .newAxis size, _ => .ok (.along (List.replicate size 0))
  | .mask shape truths, dims =>
    if (shape.zip dims).all fun (m, n) => m = n || (onDevice && m = 0) then
      let held := (truths.zipIdx.filter Prod.fst).map fun (_, i) => some (i * stride)
      .ok (.shared [held.length] held)
    else .error (.mask onDevice axis shape dims)
  | _, [] => .error (.tooManyIndices onDevice axis (axis + 1))
  | .place i, n :: _ =>
    match NumArray.placeOf? n i with
    | some k => .ok (.fixed (k * stride))
    | none =>
      if !onDevice then .error (.place i axis n)
      else if n = 0 then .error (.emptyAxis axis)
      else .ok (.fixed (if i < 0 then 0 else (n - 1) * stride))
  | .places among, n :: _ => .ok (.along ((among n).map (· * stride)))
  | .gather shape among, n :: _ => do
    let distances ← among.mapM fun i => match NumArray.placeOf? n i with
      | some k => .ok (some (k * stride))
      | none => if onDevice then .ok none else .error (.place i axis n)
    return .shared shape distances

end AxisIndex

/-- All places of the dimensions of a shape. -/
def wholeParts : List Nat → List AxisPart
  | [] => []
  | n :: shape => .along ((List.range n).map (· * sizeOf shape)) :: wholeParts shape

/-- What indices select in a shape, from a dimension on. -/
def axisParts (onDevice : Bool) (axis : Nat) :
    List AxisIndex → List Nat → Except ArrayError (List AxisPart)
  | [], shape => .ok (wholeParts shape)
  | index :: rest, shape => do
    let left := shape.drop index.uses
    let part ← index.part onDevice axis (shape.take index.uses) (sizeOf left)
    return part :: (← axisParts onDevice (axis + index.uses) rest left)

/-- Whether a part keeps a dimension of its own. -/
def AxisPart.isAlong : AxisPart → Bool
  | .along _ => true
  | _ => false

/-- Distances in a list of numbers under a shape. -/
structure Selection where
  shape : List Nat
  distances : List (Option Nat)

namespace Selection

/-- Two distances one after the other; a missing one leaves none. -/
def plus (x y : Option Nat) : Option Nat := do return (← x) + (← y)

/-- The numbers of one selection at each number of another. -/
def times (a b : Selection) : Selection :=
  ⟨a.shape ++ b.shape, a.distances.flatMap fun x => b.distances.map (plus x)⟩

/-- Two selections that share their dimensions. -/
def share (onDevice : Bool) (a b : Selection) : Except ArrayError Selection :=
  match NumArray.commonShape? a.shape b.shape with
  | none => .error (if onDevice then .ranks a.shape b.shape else .indexShapes a.shape b.shape)
  | some shape =>
    let spread := fun s : Selection =>
      NumArray.spreadDims (NumArray.padShape shape.length s.shape) shape s.distances
    .ok ⟨shape, (spread a).zipWith plus (spread b)⟩

/-- What the parts along an array's dimensions select together. -/
def ofParts (onDevice : Bool) (parts : List AxisPart) : Except ArrayError Selection := do
  let fixed := parts.foldl (fun (total : Nat) part => match part with
    | .fixed distance => total + distance
    | _ => total) 0
  let shared ← (parts.filterMap fun
    | .shared shape distances => some (Selection.mk shape distances)
    | _ => none).foldlM (share onDevice) ⟨[], [some fixed]⟩
  let lines := fun parts : List AxisPart => parts.filterMap fun
    | .along distances => some (Selection.mk [distances.length] (distances.map some))
    | _ => none
  let behind := (parts.dropWhile (·.isAlong)).dropWhile (!·.isAlong)
  let selections := if behind.all (·.isAlong) then
      lines (parts.takeWhile (·.isAlong)) ++ shared :: lines behind
    else shared :: lines parts
  return selections.foldl times ⟨[], [some 0]⟩

end Selection

/-- The number that stands for one outside an array. -/
def Width.filling : Width → MachineNumber
  | .truth => .truth true
  | .integer => .integer (-9223372036854775808)
  | .single => .single (0.0 / 0.0)
  | .double => .double (0.0 / 0.0)

namespace NumArray

/-- What some indices select in an array. -/
def selection (a : NumArray) (indices : List AxisIndex) : Except ArrayError Selection := do
  let used := indices.foldl (fun (total : Nat) index => total + index.uses) 0
  if a.shape.length < used then throw (.tooManyIndices a.onDevice a.shape.length used)
  Selection.ofParts a.onDevice (← axisParts a.onDevice 0 indices a.shape)

/-- The part of an array under some indices. -/
def select (a : NumArray) (indices : List AxisIndex) : Except ArrayError NumArray := do
  let s ← a.selection indices
  let numbers := a.numbers.toArray
  return { a with
    shape := s.shape
    numbers := s.distances.map fun d => (d.bind (numbers[·]?)).getD a.width.filling }

/-- The array with the numbers of a part replaced by those of another, which is spread to the
part. -/
def replacePart (a : NumArray) (indices : List AxisIndex) (new : NumArray) :
    Except ArrayError NumArray := do
  let s ← a.selection indices
  if commonShape? s.shape new.shape != some s.shape then throw (.operands new.shape s.shape)
  let numbers := ((s.distances.zip (new.spread s.shape)).foldl
    (fun (all : Array MachineNumber) (d, x) => match d with
      | some i => all.setIfInBounds i (x.convert a.width)
      | none => all)
    a.numbers.toArray).toList
  return { a with numbers := numbers }

end NumArray
end LinModel
