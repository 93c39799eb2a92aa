import LinModel.Tensor.Grid

/-!
# Tensors addressed by keys

A tensor is a grid over declared domains of keys with an optional fallback for key tuples that
are not stored, and an optional wildcard. Selecting keys in some dimensions gives the tensor over
the others, whose fallback puts the selected keys back before it asks the provider.

A lookup only says what it found, a stored value or a provider with the full key tuple; calling
the provider is left to the caller, so the tensor does not depend on what providers are. Nor does it
depend on what an index is: an `IndexReader` says which items an index has and what they select, and
compares keys with the wildcard, which may take programs that fail.

Key definitions: `Tensor`, `Selector`, `Fallback`, `TensorError`, `IndexReader`, `Tensor.find`,
`Tensor.index`, `Tensor.subTensor`, `Tensor.ofNested`, `Tensor.generate`.
-/
namespace LinModel

/-- What is asked for in one dimension. -/
inductive Selector (κ : Type)
  | key (k : κ)
  /-- A key marked as exact: never taken for a wildcard. -/
  | exact (k : κ)
  /-- Keeps the dimension. -/
  | any
  /-- A range of keys, of which only the full one selects; `shown` stands for it in errors. -/
  | range (full : Bool) (shown : κ)

/-- The key itself, for selectors that are one. -/
def Selector.asKey? {κ : Type} : Selector κ → Option κ
  | .key k => some k
  | .exact k => some k
  | .any => none
  | .range _ shown => some shown

/-- Why a tensor cannot be built or read. -/
inductive TensorError (κ : Type)
  | noDimensions
  | unusableKey (key : κ)
  | repeatedKeys (dimension : Nat) (domain : List κ)
  | wildcardIsKey (wildcard : κ) (dimension : Nat)
  /-- A value that is not a mapping where one is needed; `found` names its type. -/
  | notNested (dimension : Nat) (found : String)
  | keyNotAllowed (key : κ) (dimension : Nat) (domain : List κ)
  | wrongKeyCount (expected : Nat) (keys : List (Selector κ))
  | needsExactKey (dimension : Nat)
  | notStored (keys : List κ)
  | partialRange (shown : κ) (dimension : Nat)
  | tooManySelectors (dimensions : Nat) (selectors : List (Selector κ))
  | allCollapsed (selectors : List (Selector κ))

/-- A provider of missing values with the keys already chosen: `none` marks the open places. -/
structure Fallback (κ δ : Type) where
  provider : δ
  choices : List (Option κ)

/-- A provider with every place open. -/
def Fallback.ofProvider {κ δ : Type} (provider : δ) (dims : List (List κ)) : Fallback κ δ :=
  ⟨provider, dims.map fun _ => none⟩

/-- Puts keys into the open places, in order; keys left over are dropped. -/
def fillChoices {κ : Type} : List (Option κ) → List κ → List κ
  | [], _ => []
  | some k :: choices, keys => k :: fillChoices choices keys
  | none :: choices, k :: keys => k :: fillChoices choices keys
  | none :: _, [] => []

/-- Puts choices into the open places, in order. -/
def refineChoices {κ : Type} : List (Option κ) → List (Option κ) → List (Option κ)
  | [], inner => inner
  | some k :: outer, inner => some k :: refineChoices outer inner
  | none :: outer, c :: inner => c :: refineChoices outer inner
  | none :: outer, [] => none :: refineChoices outer []

/-- A tensor over keys `κ` with values `α` and providers `δ`. -/
structure Tensor (κ δ α : Type) where
  dimensions : List (List κ)
  grid : Grid κ α dimensions
  fallback : Option (Fallback κ δ)
  wildcard : Option κ

/-- What a lookup finds: a stored value, or the provider to ask with the full key tuple. -/
inductive Found (κ δ α : Type)
  | stored (value : α)
  | missing (provider : δ) (keys : List κ)

/-- How programs in `m` read an index: its items, which are those of a tuple or the index itself;
an item as errors give it; what an item selects; and whether a key equals the wildcard. -/
structure IndexReader (m : Type → Type) (ι σ κ : Type) where
  items : ι → List σ
  given : σ → Selector κ
  selector : σ → m (Selector κ)
  equal : κ → κ → m Bool

/-- Selectors read as they are, the wildcard told by the sameness of keys. -/
def IndexReader.ofSelectors {κ : Type} [Key κ] :
    IndexReader Id (List (Selector κ)) (Selector κ) κ where
  items selectors := selectors
  given s := s
  selector s := s
  equal k w := k == w

namespace Tensor

variable {κ δ α : Type}

/-- The number of dimensions. -/
def rank (t : Tensor κ δ α) : Nat := t.dimensions.length

/-- The number of keys in each dimension. -/
def shape (t : Tensor κ δ α) : List Nat := t.dimensions.map List.length

/-- The stored values with their key tuples, depth first. -/
def items (t : Tensor κ δ α) : List (List κ × α) := t.grid.items

/-- How many values are stored. -/
def size (t : Tensor κ δ α) : Nat := t.items.length

variable [Key κ]

/-- Whether a key occurs twice. -/
def hasRepeats : List κ → Bool
  | [] => false
  | k :: rest => rest.contains k || hasRepeats rest

/-- Checks one domain: usable keys, no repeats, and not the wildcard. -/
def checkDomain (wildcard : Option κ) (index : Nat) (domain : List κ) :
    Except (TensorError κ) Unit := do
  if let some k := domain.find? (!Key.usable ·) then throw (.unusableKey k)
  if hasRepeats domain then throw (.repeatedKeys index domain)
  if let some w := wildcard then
    if !Key.usable w then throw (.unusableKey w)
    if domain.contains w then throw (.wildcardIsKey w index)

/-- Checks the domains from number `index` on. -/
def checkDomains (wildcard : Option κ) : Nat → List (List κ) → Except (TensorError κ) Unit
  | _, [] => .ok ()
  | index, domain :: rest => do
    checkDomain wildcard index domain
    checkDomains wildcard (index + 1) rest

/-- Checks the dimensions of a new tensor: there is at least one, and every domain is sound. -/
def checkDimensions (dims : List (List κ)) (wildcard : Option κ) :
    Except (TensorError κ) Unit :=
  if dims.isEmpty then .error .noDimensions else checkDomains wildcard 0 dims

/-- Checks that a key belongs to a dimension. -/
def checkKey (dimension : Nat) (domain : List κ) (key : κ) : Except (TensorError κ) Unit :=
  if domain.any (· == key) then .ok () else .error (.keyNotAllowed key dimension domain)

/-- How values are nested: the entries of a mapping, and the name of what is not one. -/
structure NestedView (κ α : Type) where
  entries? : α → Option (List (κ × α))
  typeName : α → String

/-- The grid of a nested value, from dimension `depth` on; branches without values are left out.
Where a key repeats, its last branch with values counts. -/
def gridOfNested (view : NestedView κ α) : (depth : Nat) → (dims : List (List κ)) → α →
    Except (TensorError κ) (Grid κ α dims)
  | _, [], value => .ok value
  | depth, domain :: dims, value =>
    match view.entries? value with
    | none => .error (.notNested depth (view.typeName value))
    | some entries => do
      let children ← collect (fun (k, v) => do
        checkKey depth domain k
        let child ← gridOfNested view (depth + 1) dims v
        return if Grid.isBare dims child then none else some (k, child)) entries
      return Entries.ofList children

/-- A tensor with the values of a nested mapping. -/
def ofNested (view : NestedView κ α) (dims : List (List κ)) (values : α) (provider : Option δ)
    (wildcard : Option κ) : Except (TensorError κ) (Tensor κ δ α) := do
  checkDimensions dims wildcard
  let grid ← gridOfNested view 0 dims values
  return ⟨dims, grid, provider.map (Fallback.ofProvider · dims), wildcard⟩

/-- A dense tensor with one value per key tuple, asked for in the order of `product`. -/
def generate {m : Type → Type} [Monad m] {ε : Type} [MonadExceptOf ε m]
    (refuse : TensorError κ → ε) (dims : List (List κ)) (provide : List κ → m α)
    (provider : Option δ) (wildcard : Option κ) : m (Tensor κ δ α) := do
  match checkDimensions dims wildcard with
  | .error e => throw (refuse e)
  | .ok () =>
    let grid ← Grid.generate provide dims
    return ⟨dims, grid, provider.map (Fallback.ofProvider · dims), wildcard⟩

/-- The keys of a lookup, checked one dimension after the other. -/
def exactKeys : Nat → List (List κ) → List (Selector κ) → Except (TensorError κ) (List κ)
  | index, domain :: dims, s :: selectors =>
    match s.asKey? with
    | none => .error (.needsExactKey index)
    | some k => do
      checkKey index domain k
      let rest ← exactKeys (index + 1) dims selectors
      return k :: rest
  | _, _, _ => .ok []

/-- Looks up one value by a key per dimension. -/
def find (t : Tensor κ δ α) (selectors : List (Selector κ)) :
    Except (TensorError κ) (Found κ δ α) := do
  if selectors.length ≠ t.rank then throw (.wrongKeyCount t.rank selectors)
  let keys ← exactKeys 0 t.dimensions selectors
  match t.grid.lookup t.dimensions keys, t.fallback with
  | some value, _ => return .stored value
  | none, some f => return .missing f.provider (fillChoices f.choices keys)
  | none, none => throw (.notStored keys)

/-- Whether a value is stored under a key tuple. -/
def contains (t : Tensor κ δ α) (keys : List κ) : Bool :=
  (t.grid.lookup t.dimensions keys).isSome

/-- Whether a selector keeps its dimension; `equal` compares its key with the wildcard. -/
def keepsBy {m : Type → Type} [Monad m] (equal : κ → κ → m Bool) (t : Tensor κ δ α) :
    Selector κ → m Bool
  | .key k => match t.wildcard with
    | some w => equal k w
    | none => return false
  | .exact _ => return false
  | .any => return true
  | .range full _ => return full

/-- The choice that one selector makes in one dimension, which it keeps or not. -/
def choiceOf (index : Nat) (domain : List κ) (kept : Bool) (s : Selector κ) :
    Except (TensorError κ) (Option κ) :=
  if kept then .ok none
  else match s with
    | .range _ shown => .error (.partialRange shown index)
    | .any => .ok none
    | .key k | .exact k => do
      checkKey index domain k
      return some k

/-- The empty grid, or nothing to keep. -/
def bareGrid? : (dims : List (List κ)) → Option (Grid κ α dims)
  | [] => none
  | domain :: dims => some (Grid.empty domain dims)

/-- The tensor over the dimensions that a choice of keys leaves, if it leaves any. -/
def narrow? (t : Tensor κ δ α) (choices : List (Option κ)) : Option (Tensor κ δ α) :=
  (bareGrid? (keptDimensions t.dimensions choices)).map fun bare =>
    { dimensions := keptDimensions t.dimensions choices
      grid := (Grid.narrow t.dimensions choices t.grid).getD bare
      fallback := t.fallback.map fun f => ⟨f.provider, refineChoices f.choices choices⟩
      wildcard := t.wildcard }

/-- What indexing gives: a single value, or a smaller tensor with the choices that lead to it. -/
inductive Indexed (κ δ α : Type)
  | value (found : Found κ δ α)
  | tensor (choices : List (Option κ)) (t : Tensor κ δ α)

section Items

variable {m : Type → Type} [Monad m] {ι σ : Type} (r : IndexReader m ι σ κ)

/-- The choices of all items, each of which is read once those before it are accepted; dimensions
without one are kept. -/
def chooseItems (t : Tensor κ δ α) : Nat → List (List κ) → List σ →
    ExceptT (TensorError κ) m (List (Option κ))
  | index, domain :: dims, item :: items => do
    let s ← (r.selector item : m _)
    let kept ← (t.keepsBy r.equal s : m _)
    let c ← choiceOf index domain kept s
    let rest ← t.chooseItems (index + 1) dims items
    return c :: rest
  | _, dims, _ => return dims.map fun _ => none

/-- The tensor over the dimensions that the items keep, with their choices. -/
def narrowItems (t : Tensor κ δ α) (items : List σ) :
    ExceptT (TensorError κ) m (List (Option κ) × Tensor κ δ α) := do
  if t.rank < items.length then throw (.tooManySelectors t.rank (items.map r.given))
  let choices ← t.chooseItems r 0 t.dimensions items
  match t.narrow? choices with
  | some narrowed => return (choices, narrowed)
  | none => throw (.allCollapsed (items.map r.given))

/-- Whether some item keeps its dimension; they are looked at up to the first that does. -/
def someKept (t : Tensor κ δ α) : List σ → m Bool
  | [] => return false
  | item :: items => do
    if ← t.keepsBy r.equal (← r.selector item) then return true
    t.someKept items

/-- Indexing looks a value up if every dimension has an item that keeps nothing, and selects
otherwise. -/
def index (t : Tensor κ δ α) (i : ι) : ExceptT (TensorError κ) m (Indexed κ δ α) := do
  let items := r.items i
  if items.length = t.rank then
    if !(← (t.someKept r items : m _)) then
      let selectors ← (items.mapM r.selector : m _)
      return .value (← t.find selectors)
  let (choices, narrowed) ← t.narrowItems r items
  return .tensor choices narrowed

end Items

/-! ### Selecting -/

/-- Whether a selector keeps its dimension, if the wildcard is told by the sameness of keys. -/
def keeps (t : Tensor κ δ α) (s : Selector κ) : Bool :=
  t.keepsBy IndexReader.ofSelectors.equal s

/-- The choice that one selector makes in one dimension. -/
def choose (t : Tensor κ δ α) (index : Nat) (domain : List κ) (s : Selector κ) :
    Except (TensorError κ) (Option κ) :=
  choiceOf index domain (t.keeps s) s

/-- The choices of all selectors; dimensions without one are kept. -/
def chooseAll (t : Tensor κ δ α) (index : Nat) (dims : List (List κ))
    (selectors : List (Selector κ)) : Except (TensorError κ) (List (Option κ)) :=
  t.chooseItems IndexReader.ofSelectors index dims selectors

/-- The tensor over the dimensions that the selectors keep. -/
def subTensor (t : Tensor κ δ α) (selectors : List (Selector κ)) :
    Except (TensorError κ) (Tensor κ δ α) :=
  Except.map Prod.snd (t.narrowItems IndexReader.ofSelectors selectors)

end Tensor

/-- The wording of an error, its keys written by `write`, its domains and key tuples by
`writeList` and `writeTuple`. -/
def TensorError.message {κ : Type} (write : κ → String) (writeList writeTuple : List κ → String)
    (writeSelectors : List (Selector κ) → String) (unusable : κ → String) :
    TensorError κ → String
  | .noDimensions => "A NamedTensor needs at least one dimension"
  | .unusableKey k => unusable k
  | .repeatedKeys index domain =>
    "Dimension " ++ toString index ++ " repeats keys: " ++ writeList domain
  | .wildcardIsKey w index =>
    "Wildcard " ++ write w ++ " collides with a key of dimension " ++ toString index
      ++ "; use the ANY selector instead"
  | .notNested index found =>
    "Expected a nested mapping at dimension " ++ toString index ++ ", got " ++ found
  | .keyNotAllowed k index domain =>
    "Key " ++ write k ++ " is not allowed in dimension " ++ toString index ++ ": "
      ++ writeList domain
  | .wrongKeyCount expected keys =>
    "The number of keys must be the same as the number of dimensions: expected "
      ++ toString expected ++ ", got " ++ toString keys.length ++ " (" ++ writeSelectors keys
      ++ ")"
  | .needsExactKey index =>
    "get() needs an exact key for dimension " ++ toString index
      ++ "; use sub_tensor() to keep it"
  | .notStored keys => "No value stored for keys " ++ writeTuple keys
  | .partialRange shown index =>
    "Only the full slice ':' can select dimension " ++ toString index ++ ", got " ++ write shown
  | .tooManySelectors dims selectors =>
    "Got " ++ toString selectors.length ++ " selectors for a tensor with " ++ toString dims
      ++ " dimensions"
  | .allCollapsed selectors =>
    "Selectors " ++ writeSelectors selectors
      ++ " collapse every dimension; use get() to read a single value"

end LinModel
