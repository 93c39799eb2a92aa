/-!
# Merging two sorted runs

Two sorted runs are merged from that end at which the shorter one lies, which is held apart
meanwhile. At first the next items are compared one by one; as soon as one run has won often enough
in a row, the number of its items that go ahead is looked for by widening steps, and that goes on
while it pays. Items that already have their place at either end take no part.

The order is asked for in a monad, so that it may fail; where it is not an order at all, the result
still has all items, in the places that the answers lead to.

Key definitions: `countFront`, `Merging`, `mergeRuns`.
-/
namespace LinModel.Sorting

variable {m : Type → Type} [Monad m] {α : Type}

/-! ### Looking for the end of a front -/

/-- Tests the places `next`, `2 next + 1` and so on, up to the first that fails: the last place that
passes, and the first that may fail. -/
def widen (test : α → m Bool) (items : Array α) : (fuel last next : Nat) → m (Nat × Nat)
  | 0, last, next => return (last, next)
  | fuel + 1, last, next => do
    match items[next]? with
    | none => return (last, items.size)
    | some x =>
      if ← test x then widen test items fuel next (2 * next + 1) else return (last, next)

/-- Halves the places from `low` up to `high` until the first that fails is found. -/
def halve (fromEnd : Bool) (test : α → m Bool) (items : Array α) : (fuel low high : Nat) → m Nat
  | 0, low, _ => return low
  | fuel + 1, low, high => do
    if high ≤ low then return low
    let half := (high - low) / 2
    let middle := if fromEnd then high - 1 - half else low + half
    match items[middle]? with
    | none => return low
    | some x =>
      if ← test x then halve fromEnd test items fuel (middle + 1) high
      else halve fromEnd test items fuel low middle

/-- How many items at the front pass a test that no item behind the first failing one passes. If the
items are listed from their end, the halves are cut as in the order from the start. -/
def countFront (fromEnd : Bool) (test : α → m Bool) (items : List α) : m Nat := do
  let items := items.toArray
  match items[0]? with
  | none => return 0
  | some x =>
    if !(← test x) then return 0
    let (last, next) ← widen test items items.size 0 1
    halve fromEnd test items items.size (last + 1) next

/-! ### Merging -/

/-- How often in a row a run wins before steps widen, and how many items must go ahead at once for
that to pay. -/
def usualThreshold : Nat := 7

/-- Two runs while they are merged: what is left of the run that is held apart and of the other, and
what is merged already, last item first. -/
structure Merging (α : Type) where
  held : List α
  other : List α
  merged : List α

namespace Merging

/-- Moves items of the held run. -/
def takeHeld (s : Merging α) (count : Nat) : Merging α :=
  ⟨s.held.drop count, s.other, (s.held.take count).reverse ++ s.merged⟩

/-- Moves items of the other run. -/
def takeOther (s : Merging α) (count : Nat) : Merging α :=
  ⟨s.held, s.other.drop count, (s.other.take count).reverse ++ s.merged⟩

/-- The result, if one run is used up or the held one has only its last item left. -/
def finished? (s : Merging α) : Option (List α) :=
  match s.held, s.other with
  | held, [] => some (s.merged.reverse ++ held)
  | [], other => some (s.merged.reverse ++ other)
  | [a], other => some (s.merged.reverse ++ other ++ [a])
  | _, _ => none

section

variable (fromEnd : Bool) (beats : α → α → m Bool)

/-- Moves all items of the held run that go ahead of the other run, and counts them. -/
def gallopHeld (s : Merging α) : m (Nat × Merging α) := do
  match s.other with
  | [] => return (0, s)
  | b :: _ =>
    let count ← countFront fromEnd (fun a => do return !(← beats a b)) s.held
    return (count, s.takeHeld count)

/-- Moves all items of the other run that go ahead of the held run, and counts them. -/
def gallopOther (s : Merging α) : m (Nat × Merging α) := do
  match s.held with
  | [] => return (0, s)
  | a :: _ =>
    let count ← countFront fromEnd (fun b => beats a b) s.other
    return (count, s.takeOther count)

mutual

/-- Merges item by item until a run has won `threshold` times in a row. The result comes with the
threshold for the next merge. -/
def singly : (fuel threshold heldWins otherWins : Nat) → Merging α → m (List α × Nat)
  | 0, threshold, _, _, s => return (s.merged.reverse ++ s.held ++ s.other, threshold)
  | fuel + 1, threshold, heldWins, otherWins, s => do
    if let some result := s.finished? then return (result, threshold)
    match s.held, s.other with
    | a :: _, b :: _ =>
      if ← beats a b then
        let s := s.takeOther 1
        if let some result := s.finished? then return (result, threshold)
        if threshold ≤ otherWins + 1 then galloping fuel (threshold + 1) s
        else singly fuel threshold 0 (otherWins + 1) s
      else
        let s := s.takeHeld 1
        if let some result := s.finished? then return (result, threshold)
        if threshold ≤ heldWins + 1 then galloping fuel (threshold + 1) s
        else singly fuel threshold (heldWins + 1) 0 s
    | held, other => return (s.merged.reverse ++ held ++ other, threshold)

/-- Merges by widening steps while one of two counts is large enough. -/
def galloping : (fuel threshold : Nat) → Merging α → m (List α × Nat)
  | 0, threshold, s => return (s.merged.reverse ++ s.held ++ s.other, threshold)
  | fuel + 1, threshold, s => do
    let threshold := if 1 < threshold then threshold - 1 else threshold
    let (first, s) ← if fromEnd then s.gallopOther fromEnd beats else s.gallopHeld fromEnd beats
    if let some result := s.finished? then return (result, threshold)
    let s := if fromEnd then s.takeHeld 1 else s.takeOther 1
    if let some result := s.finished? then return (result, threshold)
    let (second, s) ← if fromEnd then s.gallopHeld fromEnd beats else s.gallopOther fromEnd beats
    if let some result := s.finished? then return (result, threshold)
    let s := if fromEnd then s.takeOther 1 else s.takeHeld 1
    if let some result := s.finished? then return (result, threshold)
    if usualThreshold ≤ first || usualThreshold ≤ second then galloping fuel threshold s
    else singly fuel (threshold + 1) 0 0 s

end

end

end Merging

/-- Two sorted runs as one; equal items keep their order. -/
def mergeRuns (less : α → α → m Bool) (threshold : Nat) (a b : List α) : m (List α × Nat) := do
  let ahead ← match b with
    | [] => pure a.length
    | y :: _ => countFront false (fun x => do return !(← less y x)) a
  let front := a.take ahead
  let a := a.drop ahead
  match a.getLast? with
  | none => return (front ++ b, threshold)
  | some x =>
    let behind ← countFront true (fun y => do return !(← less y x)) b.reverse
    let size := b.length - behind
    let back := b.drop size
    let b := b.take size
    let fuel := 2 * (a.length + size) + 2
    if size = 0 then return (front ++ a ++ back, threshold)
    else if a.length ≤ size then
      let start := (⟨a, b, []⟩ : Merging α).takeOther 1
      let (merged, threshold) ←
        start.singly false (fun x y => less y x) fuel threshold 0 0
      return (front ++ merged ++ back, threshold)
    else
      let start := (⟨b.reverse, a.reverse, []⟩ : Merging α).takeOther 1
      let (merged, threshold) ← start.singly true (fun y x => less y x) fuel threshold 0 0
      return (front ++ merged.reverse ++ back, threshold)

end LinModel.Sorting
