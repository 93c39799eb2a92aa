import LinModel.Sorting.Merge

/-!
# Sorting by runs

A list is cut into runs that are in order already, or strictly in the opposite order; short ones
are lengthened by inserting the items behind them. The runs wait on a stack and are merged with
their neighbours, deeper cuts of the list before shallower ones. Equal items keep their order.

Key definitions: `leadingRun`, `insertAll`, `cutDepth`, `Run`, `sort`.
-/
namespace LinModel.Sorting

variable {m : Type → Type} [Monad m] {α : Type}

/-! ### Runs -/

/-- The items at the front that are in order, or strictly in the opposite order, as a sorted list,
and those behind them. -/
def leadingRun (less : α → α → m Bool) : List α → m (List α × List α)
  | [] => return ([], [])
  | [a] => return ([a], [])
  | a :: b :: rest => do
    let descending ← less b a
    let (run, rest) ← grow descending b [b, a] rest
    return (if descending then run else run.reverse, rest)
where
  /-- Lengthens a run, last item first. -/
  grow (descending : Bool) (last : α) (run : List α) : List α → m (List α × List α)
    | [] => return (run, [])
    | c :: rest => do
      if (← less c last) == descending then grow descending c (c :: run) rest
      else return (run, c :: rest)

/-- Inserts an item into a sorted list, behind all that it is not below. -/
def insertItem (less : α → α → m Bool) (sorted : List α) (a : α) : m (List α) := do
  let place ← halve false (fun b => do return !(← less a b)) sorted.toArray (sorted.length + 1) 0
    sorted.length
  return sorted.take place ++ a :: sorted.drop place

/-- Inserts items into a sorted list one after the other. -/
def insertAll (less : α → α → m Bool) (sorted items : List α) : m (List α) :=
  items.foldlM (insertItem less) sorted

/-- The least length of runs in a list: the list's own if it is short, else between 32 and 64, so
that the list has a few runs less than a power of two. -/
def leastLength (n : Nat) : Nat := go n n 0
where
  /-- Halves a length, remembering whether anything was lost. -/
  go : (fuel n lost : Nat) → Nat
    | 0, n, lost => n + lost
    | fuel + 1, n, lost => if n < 64 then n + lost else go fuel (n / 2) (max lost (n % 2))

/-! ### The stack -/

/-- A run in a list: where it starts, its items, and the depth of the cut behind it. -/
structure Run (α : Type) where
  start : Nat
  items : List α
  depth : Nat

/-- How often a list of `n` items must be halved until a cut lies between the middles of two runs,
which are given by their doubled places. -/
def cutDepth (n : Nat) : (fuel a b depth : Nat) → Nat
  | 0, _, _, depth => depth
  | fuel + 1, a, b, depth =>
    if n ≤ a then cutDepth n fuel (2 * (a - n)) (2 * (b - n)) (depth + 1)
    else if n ≤ b then depth + 1
    else cutDepth n fuel (2 * a) (2 * b) (depth + 1)

/-- The stack of waiting runs, the last one first, with the threshold for merges. -/
structure Waiting (α : Type) where
  runs : List (Run α)
  threshold : Nat

section

variable (less : α → α → m Bool)

/-- Two neighbouring runs as one. -/
def joinRuns (threshold : Nat) (a b : Run α) : m (Run α × Nat) := do
  let (items, threshold) ← mergeRuns less threshold a.items b.items
  return (⟨a.start, items, a.depth⟩, threshold)

/-- Merges the last runs while the cut before the last one is deeper than a depth. -/
def settle (depth : Nat) : (fuel : Nat) → Waiting α → m (Waiting α)
  | 0, w => return w
  | fuel + 1, w => do
    match w.runs with
    | b :: a :: rest =>
      if depth < a.depth then
        let (run, threshold) ← joinRuns less w.threshold a b
        settle depth fuel ⟨run :: rest, threshold⟩
      else return w
    | _ => return w

/-- Puts a run on the stack, for a list of `n` items. -/
def pushRun (n start : Nat) (items : List α) (w : Waiting α) : m (Waiting α) := do
  match w.runs with
  | [] => return { w with runs := [⟨start, items, 0⟩] }
  | last :: _ =>
    let a := 2 * last.start + last.items.length
    let depth := cutDepth n (n + 1) a (a + last.items.length + items.length) 0
    let w ← settle less depth w.runs.length w
    return { w with runs := ⟨start, items, 0⟩ :: (match w.runs with
      | last :: rest => { last with depth := depth } :: rest
      | [] => []) }

/-- Cuts the items from place `start` on into runs on the stack. -/
def collectRuns (n : Nat) : (fuel start : Nat) → List α → Waiting α → m (Waiting α)
  | 0, _, _, w => return w
  | fuel + 1, start, items, w => do
    if items.isEmpty then return w
    let (run, rest) ← leadingRun less items
    let missing := leastLength n - run.length
    let run ← insertAll less run (rest.take missing)
    collectRuns n fuel (start + run.length) (rest.drop missing) (← pushRun less n start run w)

/-- Merges all runs, the shorter of two neighbours of a run first. -/
def mergeAll : (fuel : Nat) → Waiting α → m (List α)
  | 0, w => return w.runs.reverse.flatMap Run.items
  | fuel + 1, w => do
    match w.runs with
    | [] => return []
    | [run] => return run.items
    | c :: b :: a :: rest =>
      if a.items.length < c.items.length then
        let (run, threshold) ← joinRuns less w.threshold a b
        mergeAll fuel ⟨c :: run :: rest, threshold⟩
      else
        let (run, threshold) ← joinRuns less w.threshold b c
        mergeAll fuel ⟨run :: a :: rest, threshold⟩
    | [b, a] =>
      let (run, threshold) ← joinRuns less w.threshold a b
      mergeAll fuel ⟨[run], threshold⟩

/-- The items in order; equal ones keep their order. -/
def sort (items : List α) : m (List α) := do
  let n := items.length
  let w ← collectRuns less n n 0 items ⟨[], usualThreshold⟩
  mergeAll less (w.runs.length + 1) w

end

end LinModel.Sorting
