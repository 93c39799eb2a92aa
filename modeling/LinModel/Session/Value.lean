import LinModel.Builder.Family
import LinModel.Number.Real
import LinModel.Solving.Solution

/-!
# Session values

A session works on models with dynamically typed values: numbers of several kinds, texts, names,
tuples, selectors, compiled parts, and objects that live in a store and are known by their place
in it. An object value also tells the object's class, which never changes.

Values that are equal need not be one value. Each carries an identity, which a session can ask for
and which makes a NaN the same key as itself, though it equals nothing. Apart from that, two values
address the same entry if they are equal, and numbers of different kinds are equal if their exact
values are.

Key definitions: `Identity`, `Value`, `ObjectClass`, `Value.number?`, `Value.isSame`,
`Value.sameKey`, `Value.unusable?`.
-/
namespace LinModel.Session

/-- What tells apart values with the same content. -/
inductive Identity
  /-- Nothing but the content does. -/
  | shared
  /-- The value made with a number of its own. -/
  | made (n : Nat)
  /-- The object at a place. -/
  | place (n : Nat)
  /-- A part of a whole. -/
  | part (whole : Identity) (name : String)
deriving DecidableEq

/-- A member of one of the closed sets of options. -/
inductive Member
  | relationship (r : Relationship)
  | goal (g : Goal)
  | kind (k : VariableKind)
  | solver (s : Solver)
  | status (s : SolveStatus)
  | missing (p : MissingPart)
deriving DecidableEq

/-- The classes of immutable records: the parts of a compiled model. -/
inductive PartClass
  | variable
  | constraint
  | objective
  | model
deriving DecidableEq

/-- The classes whose objects are records of fields that can change. -/
inductive RecordClass
  | solverConfig
  | devConfig
  | config
  | solution
  | violations
  | fixedBackend
  | denseModel
  | program
deriving DecidableEq

/-- What a form over program variables is at its top. -/
inductive FormShape
  | constant
  | product
  | sum
  | negation
  | quotient
deriving DecidableEq

/-- The classes of failures that are objects of a session. -/
inductive ErrorClass
  | incomplete (part : Option MissingPart)
  | unknownVariable
  | invalidKey
  | allCollapsed
deriving DecidableEq

/-- The classes of objects in a store. -/
inductive ObjectClass
  | list
  | dict
  /-- A mapping that cannot be changed. -/
  | view
  /-- The keys, values or entries of a mapping, under the name of the collection. -/
  | listing (title : String)
  | variable
  | parameter
  | linear
  /-- An expression without coefficients of its own. -/
  | blank
  | constraint
  | objective
  | tensor
  | builder
  | record (c : RecordClass)
  /-- An array of numbers, kept by the device that evaluates dense models or outside it. -/
  | array (onDevice : Bool)
  | programVariable
  | form (shape : FormShape)
  | relation (isEquation : Bool)
  | programObjective (goal : Goal)
  | denseLowerer
  | programLowerer
  | backend
  | problem
  | callable
  | iterator
  | block
  | error (c : ErrorClass)
deriving DecidableEq

/-- A session value. -/
inductive Value
  | none
  | truth (b : Bool)
  | integer (n : Int) (id : Identity)
  | real (x : Float) (id : Identity)
  /-- A fraction in lowest terms. -/
  | fraction (q : Rat) (id : Identity)
  | machine (n : MachineNumber) (id : Identity)
  /-- A decimal: no number for expressions, but it can be converted to one. -/
  | decimal (d : Number.Decimal) (id : Identity)
  | text (s : String) (id : Identity)
  | name (n : VariableName) (id : Identity)
  | tuple (items : List Value) (id : Identity)
  | slice (start stop step : Value) (id : Identity)
  /-- A selector by its two fields, which may hold anything. -/
  | selector (key isAny : Value) (id : Identity)
  /-- A part of a compiled model by its fields. -/
  | part (c : PartClass) (fields : List Value) (id : Identity)
  /-- An operation of a value, which can be called. -/
  | method (on : Value) (operation : String) (id : Identity)
  | member (m : Member)
  | object (c : ObjectClass) (place : Nat)

instance : Inhabited Value := ⟨.none⟩

namespace Value

/-- An integer. -/
def ofInt (n : Int) : Value := .integer n .shared

/-- A double. -/
def ofReal (x : Float) : Value := .real x .shared

/-- A text. -/
def ofText (s : String) : Value := .text s .shared

/-- A name. -/
def ofName (n : VariableName) : Value := .name n .shared

/-- A tuple. -/
def ofTuple (items : List Value) : Value := .tuple items .shared

/-- The selector that keeps a dimension. -/
def anyKey : Value := .selector .none (.truth true) .shared

/-- The identity of a value whose content does not settle it. -/
def identity : Value → Identity
  | .integer _ id | .real _ id | .fraction _ id | .machine _ id | .decimal _ id | .text _ id
  | .name _ id | .tuple _ id | .slice _ _ _ id | .selector _ _ id | .part _ _ id
  | .method _ _ id => id
  | .object _ place => .place place
  | .none | .truth _ | .member _ => .shared

/-- The same content under another identity. -/
def identified (id : Identity) : Value → Value
  | .integer n _ => .integer n id
  | .real x _ => .real x id
  | .fraction q _ => .fraction q id
  | .machine n _ => .machine n id
  | .decimal d _ => .decimal d id
  | .text s _ => .text s id
  | .name n _ => .name n id
  | .tuple items _ => .tuple items id
  | .slice a b c _ => .slice a b c id
  | .selector k a _ => .selector k a id
  | .part c fields _ => .part c fields id
  | .method on m _ => .method on m id
  | v => v

end Value

/-! ### Numbers -/

/-- The exact value of a number of any kind; truth values count as one and zero. -/
def Value.number? : Value → Option Exact
  | .truth b => some (.ofRat (if b then 1 else 0))
  | .integer n _ => some (.ofRat n)
  | .real x _ => some (.ofFloat x)
  | .fraction q _ => some (.ofRat q)
  | .machine n _ => some n.exact
  | .decimal d _ => some (.ofDecimal d)
  | _ => Option.none

/-! ### Identity and keys -/

/-- Whether a text is so short that all of its kind are one value. -/
def isSharedText (s : String) : Bool :=
  match s.toList with
  | [] => true
  | [c] => c.toNat < 256
  | _ => false

/-- Whether an integer is so small that all of its kind are one value. -/
def isSharedInteger (n : Int) : Bool := -5 ≤ n && n ≤ 256

/-- Whether two values are one. -/
def Value.isSame (a b : Value) : Bool :=
  match a, b with
  | .none, .none => true
  | .truth x, .truth y => x == y
  | .member x, .member y => x == y
  | .object _ x, .object _ y => x == y
  | .integer x i, .integer y j => x == y && (isSharedInteger x || i == j)
  | .real x i, .real y j => x.toBits == y.toBits && i == j
  | .fraction x i, .fraction y j => x == y && i == j
  | .machine (.double x) i, .machine (.double y) j
  | .machine (.single x) i, .machine (.single y) j => x.toBits == y.toBits && i == j
  | .machine (.integer x) i, .machine (.integer y) j => x == y && i == j
  | .machine (.truth x) _, .machine (.truth y) _ => x == y
  | .decimal x i, .decimal y j => x == y && i == j
  | .text x i, .text y j => x == y && (isSharedText x || i == j)
  | .name x i, .name y j => x == y && i == j
  | .tuple x i, .tuple y j => x.length == y.length && (x.isEmpty || (i == j && i != .shared))
  | .slice _ _ _ i, .slice _ _ _ j => i == j
  | .selector _ _ i, .selector _ _ j => i == j
  | .part c _ i, .part d _ j => c == d && i == j
  | .method _ x i, .method _ y j => x == y && i == j
  | _, _ => false

/-- Whether a key that is looked up cannot be compared with a key that is there: a decimal is asked
whether it equals an integer of fixed width, which has no decimal. -/
def Value.refusesKey (there wanted : Value) : Bool :=
  match there, wanted with
  | .decimal d _, .machine (.integer n) _ => (Exact.ofDecimal d).equal (.ofRat n)
  | _, _ => false

/-- Whether a key that is there is addressed by a key that is looked up. -/
def Value.sameKey : Value → Value → Bool
  | .none, .none => true
  | .text a _, .text b _ => a == b
  | .name a _, .name b _ => a == b
  | .tuple as i, .tuple bs j => (i == j && i != .shared) || sameKeys as bs
  | .slice a b c i, .slice a' b' c' j =>
    (i == j && i != .shared) || (sameKey a a' && sameKey b b' && sameKey c c')
  | .selector a x i, .selector b y j => (i == j && i != .shared) || (sameKey a b && sameKey x y)
  | .part c as i, .part d bs j => (i == j && i != .shared) || (c == d && sameKeys as bs)
  | .method a x _, .method b y _ => x == y && a.isSame b
  | .member a, .member b => a == b
  | .object _ a, .object _ b => a == b
  | .decimal .., .machine (.integer _) _ => false
  | a, b => a.isSame b || match a.number?, b.number? with
    | some x, some y => x.equal y
    | _, _ => false
where
  /-- Whether two tuples have the same keys, place by place. -/
  sameKeys : List Value → List Value → Bool
    | [], [] => true
    | a :: as, b :: bs => sameKey a b && sameKeys as bs
    | _, _ => false

/-- Whether objects of a class can be keys. -/
def ObjectClass.isUsableKey : ObjectClass → Bool
  | .list | .dict | .view | .array _ => false
  | .listing title => title != "dict_keys" && title != "dict_items"
  | .record c => c == .fixedBackend
  | _ => true

/-- Why a value cannot be a key: the part of it that cannot. -/
def Value.unusable? : Value → Option Value
  | .tuple items _ => unusableItem? items
  | .slice a b c id => some (.slice a b c id)
  | .selector key isAny _ => match unusable? key with
    | some v => some v
    | Option.none => unusable? isAny
  | .part _ fields _ => unusableItem? fields
  | .decimal (.notANumber n true p) id => some (.decimal (.notANumber n true p) id)
  | .object c place => if c.isUsableKey then Option.none else some (.object c place)
  | _ => Option.none
where
  /-- The first such part among the items of a tuple. -/
  unusableItem? : List Value → Option Value
    | [] => Option.none
    | a :: rest => match unusable? a with
      | some v => some v
      | Option.none => unusableItem? rest

instance : BEq Value := ⟨Value.sameKey⟩

instance : Key Value where
  usable v := v.unusable?.isNone

end LinModel.Session
