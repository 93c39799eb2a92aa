import LinModel.Entries

/-!
# Grids

A grid holds values under one key per dimension, as entries inside entries down to the depth of
its dimensions, so a stored value always has a key in every dimension. Grids may be sparse. A
choice per dimension, a key or none, narrows a grid to the dimensions without a key; narrowing by
a key in every dimension is looking a value up.

Key definitions: `Key`, `Grid`, `Grid.items`, `Grid.fold`, `Grid.store`, `Grid.generate`,
`Grid.narrow`, `Grid.lookup`, `product`.
-/
namespace LinModel

/-- What can address a value: compared by `==`; some values are not usable as keys at all. -/
class Key (κ : Type) extends BEq κ where
  usable : κ → Bool

/-- Values stored under one key per dimension. -/
def Grid (κ α : Type) : List (List κ) → Type
  | [] => α
  | _ :: dims => Entries κ (Grid κ α dims)

/-- All key tuples, the last dimension running fastest. -/
def product {κ : Type} : List (List κ) → List (List κ)
  | [] => [[]]
  | domain :: dims => domain.flatMap fun k => (product dims).map (k :: ·)

/-- The dimensions left by a choice of keys; a choice left out keeps its dimension. -/
def keptDimensions {κ : Type} : List (List κ) → List (Option κ) → List (List κ)
  | [], _ => []
  | domain :: dims, none :: choices => domain :: keptDimensions dims choices
  | _ :: dims, some _ :: choices => keptDimensions dims choices
  | domain :: dims, [] => domain :: keptDimensions dims []

namespace Grid

variable {κ α : Type}

/-- The grid that stores nothing, over at least one dimension. -/
def empty (domain : List κ) (dims : List (List κ)) : Grid κ α (domain :: dims) :=
  ([] : Entries κ (Grid κ α dims))

/-- Whether a grid below some dimension stores nothing. -/
def isBare : (dims : List (List κ)) → Grid κ α dims → Bool
  | [], _ => false
  | _ :: _, entries => List.isEmpty entries

/-- The stored values with their key tuples, depth first. -/
def items : (dims : List (List κ)) → Grid κ α dims → List (List κ × α)
  | [], value => [([], value)]
  | _ :: dims, entries =>
    List.flatMap (fun (k, child) => (items dims child).map fun (ks, v) => (k :: ks, v)) entries

/-- The grid's values as nested entries of another type. -/
def fold {β : Type} (leaf : α → β) (node : List (κ × β) → β) :
    (dims : List (List κ)) → Grid κ α dims → β
  | [], value => leaf value
  | _ :: dims, entries => node (List.map (fun (k, child) => (k, fold leaf node dims child)) entries)

variable [Key κ]

/-- A grid, if there is one, with a value stored under a key tuple. Branches that are not there are
made on the way, behind the others. -/
def store : (dims : List (List κ)) → List κ → α → Option (Grid κ α dims) → Grid κ α dims
  | [], _, value, _ => value
  | domain :: dims, [], _, grid => grid.getD (empty domain dims)
  | domain :: dims, k :: keys, value, grid =>
    let entries : Entries κ (Grid κ α dims) := grid.getD (empty domain dims)
    entries.put k (store dims keys value (entries.find? k))

/-- Asks for the values of key tuples and stores each before it asks for the next. -/
def fill {m : Type → Type} [Monad m] (provide : List κ → m α) (dims : List (List κ))
    (grid : Grid κ α dims) (tuples : List (List κ)) : m (Grid κ α dims) :=
  tuples.foldlM (fun grid keys => do return store dims keys (← provide keys) (some grid)) grid

/-- One value per key tuple, asked for and stored in the order of `product`. -/
def generate {m : Type → Type} [Monad m] (provide : List κ → m α) :
    (dims : List (List κ)) → m (Grid κ α dims)
  | [] => provide []
  | domain :: dims =>
    fill provide (domain :: dims) (empty domain dims) (product (domain :: dims))

/-- Narrows a grid by a choice of keys: a chosen key drops its dimension, a kept one lists its keys
in the order of the domain. `none` if nothing is stored there. -/
def narrow : (dims : List (List κ)) → (choices : List (Option κ)) → Grid κ α dims →
    Option (Grid κ α (keptDimensions dims choices))
  | [], _, value => some value
  | _ :: dims, some k :: choices, entries =>
    (Entries.find? k entries).bind (narrow dims choices)
  | domain :: dims, none :: choices, entries => keep domain (narrow dims choices) entries
  | domain :: dims, [], entries => keep domain (narrow dims []) entries
where
  /-- The narrowed children under the keys of the domain, if there are any. -/
  keep {γ δ : Type} (domain : List κ) (f : γ → Option δ) (entries : Entries κ γ) :
      Option (Entries κ δ) :=
    let children := domain.filterMap fun k =>
      ((Entries.find? k entries).bind f).map fun child => (k, child)
    if children.isEmpty then none else some children

/-- The value stored under a key tuple of the grid's length. -/
def lookup : (dims : List (List κ)) → List κ → Grid κ α dims → Option α
  | [], [], value => some value
  | _ :: dims, k :: ks, entries => (Entries.find? k entries).bind (lookup dims ks)
  | _, _, _ => none

end Grid
end LinModel
