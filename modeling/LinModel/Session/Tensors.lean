import LinModel.Session.Builders

/-!
# Tensors in a session

Tensors whose keys, values and providers are session values. Selectors are read off plain keys,
marked keys and ranges, and errors carry the offending key and its dimension. A selector is the
wildcard if it equals it as session values do, so comparing an expression with a wildcard may fail.
The provider of a narrowed tensor is a callable of its own, which puts the chosen keys back.

Key definitions: `toSelector`, `indexReader`, `toDimensions`, `failTensor`, `makeTensor`,
`narrowTensor`, `getFromTensor`, `indexTensor`, `nestedValues`, `generateTensor`, `declareFamily`.
-/
namespace LinModel.Session

/-- Tensors over session values. -/
abbrev ValueTensor := Tensor Value Value Value

/-! ### Selectors -/

/-- What a session value asks for in one dimension, wildcards apart. -/
def toSelector (v : Value) : Script (Selector Value) := do
  match v with
  | .selector key isAny _ => return if ← truth isAny then .any else .exact key
  | .slice .none .none .none _ => return .range true v
  | .slice .. => return .range false v
  | _ => return .key v

/-- A tuple stands for its items. Keys are compared with the wildcard as session values are, and
ranges with the full one, which may fail where their bounds cannot be compared. -/
def indexReader : IndexReader Script Value Value Value where
  items
    | .tuple items _ => items
    | v => [v]
  given
    | .selector key _ _ => .exact key
    | .slice a b c id => .range false (.slice a b c id)
    | v => .key v
  selector v := do
    match ← toSelector v with
    | .range _ k =>
      return .range (← reading fun s => s.equal k (.slice .none .none .none .shared)) k
    | selector => return selector
  equal k w := reading fun s => s.equal k w

/-! ### Failures -/

/-- The keys that the wording of an error shows. -/
def shownKeys (given : List Value) : TensorError Value → List Value
  | .repeatedKeys _ domain => domain
  | .wildcardIsKey w _ => [w]
  | .keyNotAllowed k _ domain => k :: domain
  | .wrongKeyCount .. | .allCollapsed _ => given
  | .notStored keys => keys
  | .partialRange k _ => [k]
  | _ => []

/-- Fails as a tensor was refused, which was asked for the given selectors. -/
def failTensor {α : Type} (given : List Value) (e : TensorError Value) : Script α := do
  let _ ← (shownKeys given e).mapM shown
  let s ← get
  let write := s.shownOrBlank
  let message := e.message write (fun ks => listText (ks.map write))
    (fun ks => tupleText (ks.map write)) (fun _ => tupleText (given.map write))
    (fun k => unusableMessage (k.unusable?.getD k))
  let refuse := fun (kind : FailureKind) (key : Value) (dimension : Option Nat) =>
    (failWith kind message [("dimension", match dimension with
      | some i => .ofInt i
      | none => .none), ("key", key)] : Script α)
  match e with
  | .noDimensions | .repeatedKeys .. | .wildcardIsKey .. => fail .value message
  | .unusableKey _ | .notNested .. => fail .type message
  | .keyNotAllowed k i _ => refuse .invalidKey k (some i)
  | .wrongKeyCount .. => refuse .invalidKey (.ofTuple given) none
  | .needsExactKey i => refuse .invalidKey (given[i]?.getD .anyKey) (some i)
  | .notStored keys => refuse .invalidKey (.ofTuple keys) none
  | .partialRange k i => refuse .invalidKey k (some i)
  | .tooManySelectors .. => refuse .invalidKey (.ofTuple given) none
  | .allCollapsed _ => refuse .allCollapsed (.ofTuple given) none

/-- The result of an operation on tensors, asked for the given selectors. -/
def liftTensor {α : Type} (given : List Value) (r : Except (TensorError Value) α) : Script α :=
  match r with
  | .ok a => return a
  | .error e => failTensor given e

/-- The failure for a refused tensor, as seen from a store. -/
def tensorFailure (s : Store) (e : TensorError Value) : Failure :=
  match (failTensor (α := Unit) [] e).run.run s with
  | (.error f, _) => f
  | (.ok (), _) => ⟨.value, none, [], false⟩

/-! ### Making tensors -/

section Making

variable [Calling]

/-- Domains of keys, from a collection of collections. -/
def toDimensions (v : Value) : Script (List (List Value)) := do
  (← iterate v).mapM iterate

/-- A tensor with the values of a nested mapping. -/
def makeTensor (dimensions values provider wildcard : Value) : Script Value := do
  let dims ← toDimensions dimensions
  liftTensor [] (Tensor.checkDimensions dims (toLabel wildcard))
  let root ← if ← truth values then pure values else newDict []
  let s ← get
  let t ← liftTensor [] (Tensor.ofNested ⟨fun v => s.entries? v, Value.typeName⟩ dims root
    (toLabel provider) (toLabel wildcard))
  alloc (.tensor t provider)

/-- A dense tensor made by a provider. -/
def generateTensor (dimensions provider fallback wildcard : Value) : Script Value := do
  let dims ← toDimensions dimensions
  let s ← get
  let t ← Tensor.generate (tensorFailure s) dims (fun keys => callWith provider [.ofTuple keys])
    (toLabel fallback) (toLabel wildcard)
  alloc (.tensor t fallback)

/-- The stem of a family's names, if one is given; only a text can be joined to others. -/
def stemText : Value → Option (Script String)
  | .none => Option.none
  | .text t _ => some (return t)
  | v => some (fail .type
      ("sequence item 0: expected str instance, " ++ v.typeName ++ " found"))

/-- Nothing interrupts a session. -/
instance : Interruptible Failure := ⟨fun _ => false⟩

/-- A family of variables on a builder, its members made by `make` from their names. -/
def declareFamily (place : Nat) (keys stem : Value) (make : String → Script Value) :
    Script Value := do
  let family : OnBuilder ValueTensor :=
    Builder.namedFamily (K := Float) (L := Value) (ε := Failure) (toDimensions keys)
      (do return tensorFailure (← (getThe Store : Script Store)))
      (fun key => written key) ((stemText stem).map fun text => liftM text) fun name => make name
  let t ← family place
  alloc (.tensor t .none)

end Making

/-! ### Reading tensors -/

section Reading

variable [Calling]

/-- The result of an operation that reads the items of an index. -/
def liftIndex {α : Type} (given : List Value) (x : ExceptT (TensorError Value) Script α) :
    Script α := do
  liftTensor given (← x.run)

/-- Puts a narrowed tensor in the store; its provider puts the choices back. -/
def allocNarrowed (provider : Value) (choices : List (Option Value)) (narrowed : ValueTensor) :
    Script Value := do
  let forward ← match provider with
    | .none => pure .none
    | v => alloc (.callable (.filled v choices))
  alloc (.tensor narrowed forward)

/-- The tensor over the dimensions that some selectors keep. -/
def narrowTensor (t : ValueTensor) (provider : Value) (selectors : List Value) :
    Script Value := do
  let (choices, narrowed) ← liftIndex selectors (t.narrowItems indexReader selectors)
  allocNarrowed provider choices narrowed

/-- What was found: a stored value, or what the provider gives. -/
def foundValue : Found Value Value Value → Script Value
  | .stored v => return v
  | .missing provider keys => callWith provider [.ofTuple keys]

/-- The value under a key per dimension. -/
def getFromTensor (t : ValueTensor) (keys : List Value) : Script Value := do
  foundValue (← liftTensor keys (t.find (← keys.mapM toSelector)))

/-- What indexing gives, with a tuple or a single selector. -/
def indexTensor (t : ValueTensor) (provider k : Value) : Script Value := do
  match ← liftIndex (indexReader.items k) (t.index indexReader k) with
  | .value found => foundValue found
  | .tensor choices narrowed => allocNarrowed provider choices narrowed

/-- The keys behind a choice, which must have a key for every open place. -/
def fillOpen (choices : List (Option Value)) (keys : List Value) : Script (List Value) :=
  if keys.length < choices.countP (·.isNone) then fail .exhausted "generator raised StopIteration"
  else return fillChoices choices keys

/-- The stored values as nested mappings. -/
def nestedValues (t : ValueTensor) : Script Value :=
  t.grid.fold (β := Script Value) (fun v => return v)
    (fun children => do
      newDict (← children.mapM fun (k, child) => do return (k, ← child)))
    t.dimensions

end Reading

end LinModel.Session
