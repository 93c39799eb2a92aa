import LinModel.Session.Arguments
import LinModel.Session.Arrays
import LinModel.Session.Comparison

/-!
# Collections of session values

Going through a collection, taking a mapping's entries, looking for a value in a collection, and
reading and changing items by index or range. An iterator is used up as far as it is gone through.
A solution is gone through by asking it for the items zero, one, and so on.

Key definitions: `iterate`, `isIn`, `lengthOf`, `itemsOf`, `toEntries`, `sequenceItem`,
`writeItem`.
-/
namespace LinModel.Session

/-! ### Going through a collection -/

/-- A character as a text. -/
def charText (c : Char) : Value := .ofText (String.ofList [c])

/-- The rows of an array, or its numbers if it has one dimension. -/
def arrayItems (a : NumArray) : Script (List Value) := do
  match a.rows? with
  | some rows => rows.mapM arrayValue
  | none => fail .type "iteration over a 0-d array"

section Iterating

variable [Calling]

/-- The items of a value from a number on, until it has no further one. -/
def numberedItems (v : Value) : (fuel index : Nat) → Script (List Value)
  | 0, _ => fail .recursion "maximum recursion depth exceeded"
  | fuel + 1, index => do
    let next ← tryCatch (some <$> item v (.ofInt index)) fun e =>
      if e.kind = .missingIndex then return none else throw e
    match next with
    | some w => return w :: (← numberedItems v fuel (index + 1))
    | none => return []

/-- The items of a collection; those of an iterator are used up. -/
def iterate (v : Value) : Script (List Value) := do
  match v with
  | .tuple items _ => return items
  | .text t _ => return t.toList.map charText
  | .object _ place => match ← fetch place with
    | .list items | .listing _ items => return items
    | .dict entries | .view entries => return List.map Prod.fst entries
    | .tensor t _ => return t.items.map Prod.snd
    | .iterator rest =>
      replace place (.iterator [])
      return rest
    | .array a => arrayItems a
    | .programVariable .. | .form _ => return []
    | .record .solution _ => numberedItems v Store.comparisonDepth 0
    | _ => notIterable
  | _ => notIterable
where
  /-- Fails for what has no items. -/
  notIterable {α : Type} : Script α :=
    fault .type ("'" ++ v.longTypeName ++ "' object is not iterable")

/-- The items of a collection, with a wording of its own where a value has none. -/
def iterateOr (v : Value) (message : String) : Script (List Value) :=
  tryCatch (iterate v) fun e =>
    match v with
    | .object (.array _) _ => fault .type message
    | _ => if e.isFault then fault .type message else throw e

/-- Looks through the items of a value from a number on for one that is another value. -/
def numberedSearch (v wanted : Value) : (fuel index : Nat) → Script Bool
  | 0, _ => fail .recursion "maximum recursion depth exceeded"
  | fuel + 1, index => do
    let next ← tryCatch (some <$> item v (.ofInt index)) fun e =>
      if e.kind = .missingIndex then return none else throw e
    match next with
    | some w =>
      if ← sameValue w wanted then return true else numberedSearch v wanted fuel (index + 1)
    | none => return false

end Iterating

/-- Looks through an iterator, which keeps the items behind the one that is found. -/
def searchIterator (place : Nat) (wanted : Value) : List Value → Script Bool
  | [] => do
    replace place (.iterator [])
    return false
  | v :: rest => do
    replace place (.iterator rest)
    if ← sameValue v wanted then return true
    searchIterator place wanted rest

/-- Whether a text occurs in another. -/
def occursIn (part : List Char) : List Char → Bool
  | [] => part.isEmpty
  | c :: rest => part.isPrefixOf (c :: rest) || occursIn part rest

/-- Whether a value is stored in a tensor under a tuple of keys, or under a single key. -/
def tensorHas (t : Tensor Value Value Value) (k : Value) : Bool :=
  let keys := match k with
    | .tuple items _ => items
    | _ => [k]
  keys.length == t.rank && keys.all (fun k => k.unusable?.isNone) && t.contains keys

/-- Whether some number of an array, which a collection is, equals a value. -/
def isInArray (v collection : Value) (a : NumArray) : Script Bool := do
  if !a.onDevice then
    match ← reading fun s => s.placewise? .equal collection v with
    | some truths => return truths.numbers.any (!·.isZero)
    | none => return false
  match v with
  | .none | .text .. =>
    fail .type ("Array.__contains__: unsupported operand type " ++ classText v ++ ".")
  | .fraction .. | .decimal .. => failForeign v
  | .object (.array _) _ => do
    match (← get).array? v with
    | some x =>
      if x.shape.isEmpty then search x
      else fail .value ("Array.__contains__: query value must be a scalar, got query.shape="
        ++ shapeText x.shape)
    | none => return false
  | v => match ← plainNumber? a false v with
    | some x => search x
    | none => fail .type ("Array.__contains__ requires ndarray or scalar arguments, got "
        ++ classText v ++ " at position 0.")
where
  /-- Whether the array has a number. -/
  search (x : NumArray) : Script Bool := do
    return (← liftArray (a.compare .equal x)).numbers.any (!·.isZero)

/-- Whether a value is in a collection. -/
def isIn [Calling] (v collection : Value) : Script Bool := do
  match collection with
  | .text t _ => match v with
    | .text part _ => return occursIn part.toList t.toList
    | _ =>
      fault .type ("'in <string>' requires string as left operand, not " ++ v.longTypeName)
  | .tuple items _ => anyEqual v items
  | .object _ place => match ← fetch place with
    | .tensor t _ => return tensorHas t v
    | .dict entries | .view entries => do
      requireKeyAmong (List.map Prod.fst entries) v
      return Entries.has v entries
    | .listing "dict_keys" items => do
      requireKeyAmong items v
      return items.contains v
    | .list items | .listing _ items => anyEqual v items
    | .iterator rest => searchIterator place v rest
    | .array a => isInArray v collection a
    | .programVariable .. | .form _ => return false
    | .record .solution _ => numberedSearch collection v Store.comparisonDepth 0
    | _ => notSearchable
  | _ => notSearchable
where
  /-- Fails for what has no items. -/
  notSearchable {α : Type} : Script α :=
    fault .type ("argument of type '" ++ collection.longTypeName ++ "' is not iterable")

/-- How many items a value has. -/
def lengthOf (v : Value) : Script Nat := do
  match v with
  | .tuple items _ => return items.length
  | .text t _ => return t.length
  | .object _ place => match ← fetch place with
    | .list items | .listing _ items => return items.length
    | .dict entries | .view entries => return List.length entries
    | .tensor t _ => return t.size
    | .array a => match a.shape with
      | n :: _ => return n
      | [] => fail .type "len() of unsized object"
    | _ => noLength
  | _ => noLength
where
  /-- Fails for what has no length. -/
  noLength {α : Type} : Script α :=
    fault .type ("object of type '" ++ v.longTypeName ++ "' has no len()")

/-! ### Entries of mappings -/

section Entries

variable [Calling]

/-- The two parts of a pair. -/
def unpackPair (v : Value) : Script (Value × Value) := do
  let parts ← tryCatch (iterate v) fun e =>
    if e.isFault then
      fault .type ("cannot unpack non-iterable " ++ v.longTypeName ++ " object")
    else throw e
  match parts with
  | [a, b] => return (a, b)
  | [] | [_] =>
    fail .value ("not enough values to unpack (expected 2, got " ++ toString parts.length ++ ")")
  | _ => fail .value "too many values to unpack (expected 2)"

/-- The entries of a value that has some: what its operation `items` gives. -/
def itemsOf (v : Value) : Script (List (Value × Value)) := do
  match (← get).entries? v with
  | some entries => return entries
  | none => (← iterate (← callMethod v "items" [])).mapM unpackPair

/-- The entries that a mapping or a collection of pairs makes. -/
def toEntries (v : Value) : Script (Entries Value Value) := do
  match (← get).entries? v with
  | some entries => return entries
  | none =>
    let pairs ← (← iterate v).zipIdx.mapM fun (pair, i) => do
      let parts ← iterateOr pair ("cannot convert dictionary update sequence element #"
        ++ toString i ++ " to a sequence")
      match parts with
      | [k, w] =>
        requireKey k
        return (k, w)
      | parts => fail .value ("dictionary update sequence element #" ++ toString i
          ++ " has length " ++ toString parts.length ++ "; 2 is required")
    return Entries.ofList pairs

/-- A new mapping with the entries that a value makes. -/
def copyEntries (v : Value) : Script Value := do newDict (← toEntries v)

end Entries

/-! ### Items by index and range -/

/-- The item of a sequence at an index, or those in a range, which `gather` puts together. -/
def sequenceItem (title : String) (items : List Value) (gather : List Value → Script Value)
    (k : Value) : Script Value := do
  match k with
  | .slice a b c _ =>
    let places ← rangePlaces a b c items.length
    let array := items.toArray
    gather (places.map fun i => array[i]?.getD .none)
  | _ => match ← indexOf k with
    | some i =>
      match NumArray.placeOf? items.length (← checkedIndex i) with
      | some place => return items[place]?.getD .none
      | none => fail .missingIndex (title ++ " index out of range")
    | none =>
      if title == "string" then
        fault .type ("string indices must be integers, not '" ++ k.longTypeName ++ "'")
      else
        fault .type (title ++ " indices must be integers or slices, not " ++ k.longTypeName)

/-- Replaces the items at some places by others, which a range of step one may do with more or
fewer of them. -/
def replaceRange (items : List Value) (start stop step : Value) (others : List Value) :
    Script (List Value) := do
  let places ← rangePlaces start stop step items.length
  let stride ← match step with
    | .none => pure (some 1)
    | v => indexOf v
  if stride = some 1 then
    let behind ← rangePlaces start .none .none items.length
    let first := (places.head?.or behind.head?).getD items.length
    return items.take first ++ others ++ items.drop (first + places.length)
  else if places.length = others.length then
    return (places.zip others).foldl (fun all (i, v) => all.set i v) items
  else
    fail .value ("attempt to assign sequence of size " ++ toString others.length
      ++ " to extended slice of size " ++ toString places.length)

/-- Gives an item of a collection another value. -/
def writeItem [Calling] (on k v : Value) : Script Unit := do
  match on with
  | .object _ place => match ← fetch place with
    | .dict entries =>
      requireKeyAmong (List.map Prod.fst entries) k
      replace place (.dict (entries.put k v))
    | .list items => match k with
      | .slice a b c _ =>
        let _ ← rangePlaces a b c items.length
        let others ← iterateOr v "can only assign an iterable"
        replace place (.list (← replaceRange items a b c others))
      | _ => match ← indexOf k with
        | some i =>
          match NumArray.placeOf? items.length (← checkedIndex i) with
          | some at_ => replace place (.list (items.set at_ v))
          | none => fail .missingIndex "list assignment index out of range"
        | none =>
          fault .type ("list indices must be integers or slices, not " ++ k.longTypeName)
    | .array a => do replace place (.array (← writeToArray a k v))
    | _ => notAssignable
  | _ => notAssignable
where
  /-- Fails for what has no items that can be changed. -/
  notAssignable {α : Type} : Script α :=
    refuseChange on k ("'" ++ on.longTypeName ++ "' object does not support item assignment")

end LinModel.Session
