import LinModel.Session.Object

/-!
# Session programs

A session program changes a store and may fail. A failure keeps the store as it was reached: what
was declared, printed or warned of before it stays. A failure has a kind, a wording and, in some
kinds, details that a caller can inspect.

An operation that does not apply to its operands is at first only a fault of whoever applied it,
and nobody has vouched for its wording. If that happens inside one of the library's own operations,
the wording belongs to that operation and is kept (`inside`); if a step of the session applied it
directly, the wording is dropped (`outside`).

Key definitions: `FailureKind`, `Failure`, `Script`, `inside`, `outside`, `fetch`, `replace`,
`alloc`, `stamp`, `Calling`.
-/
namespace LinModel.Session

/-- The kinds of failures. -/
inductive FailureKind
  /-- A value of the wrong type. -/
  | type
  /-- An operation or attribute that a value does not have. -/
  | operation
  /-- A value of the right type that does not fit. -/
  | value
  | divisionByZero
  | overflow
  | missingKey
  | missingIndex
  /-- Fewer items than are asked for. -/
  | exhausted
  | notSupported
  /-- Calls within calls without end. -/
  | recursion
  /-- More memory than there is. -/
  | memory
  /-- An attempt to change a field that cannot change. -/
  | frozenField
  /-- An operation on decimals without a result. -/
  | decimal (e : Number.DecimalError)
  | duplicateName
  | unknownVariable
  | invalidKey
  | allCollapsed
  | incomplete (part : MissingPart)
  /-- The solver's side failed. -/
  | backend
  /-- A register that holds nothing was read. -/
  | unsetRegister
  /-- A program without a direction was handed to a solver. -/
  | program
  /-- An operation on numbers of fixed width that has no form for the other operand. -/
  | noNumericForm
  /-- A relation between program expressions that was asked for its truth. -/
  | relationTruth
deriving DecidableEq

/-- Why a session program has no result. -/
structure Failure where
  kind : FailureKind
  message : Option String
  details : List (String × Value)
  /-- Whether the failure is a fault of whoever applied an operation. -/
  isFault : Bool

/-- Programs over a store; a failure keeps the store reached so far. -/
abbrev Script := ExceptT Failure (StateM Store)

/-- What only reads a store, and may fail. -/
abbrev Reading := Except Failure

section Failing

variable {m : Type → Type} [MonadExceptOf Failure m] {α : Type}

/-- Fails with a wording. -/
def fail (kind : FailureKind) (message : String) : m α := throw ⟨kind, some message, [], false⟩

/-- Fails with a wording and details. -/
def failWith (kind : FailureKind) (message : String) (details : List (String × Value)) : m α :=
  throw ⟨kind, some message, details, false⟩

/-- Fails because an operation does not apply to its operands. -/
def fault (kind : FailureKind) (message : String) : m α := throw ⟨kind, some message, [], true⟩

end Failing

/-- Runs what one of the library's own operations does. -/
def inside {α : Type} (program : Script α) : Script α :=
  tryCatch program fun e => throw { e with isFault := false }

/-- Runs what a step of a session does itself. -/
def outside {α : Type} (program : Script α) : Script α :=
  tryCatch program fun e =>
    throw (if e.isFault then { e with message := none, isFault := false } else e)

/-- The result of what only reads the store. -/
def reading {α : Type} (program : Store → Reading α) : Script α := do
  match program (← get) with
  | .ok a => return a
  | .error e => throw e

/-! ### The store -/

/-- The object at a place. -/
def fetch (place : Nat) : Script Object := do
  match (← get).objects[place]? with
  | some o => return o
  | none => fault .operation ""

/-- Puts an object at a place that has one. -/
def replace (place : Nat) (o : Object) : Script Unit :=
  modify fun s => { s with objects := s.objects.setIfInBounds place o }

/-- Puts an object at a new place. -/
def alloc (o : Object) : Script Value :=
  modifyGet fun s => (.object o.objectClass s.objects.size, { s with objects := s.objects.push o })

/-- Gives a value an identity of its own if it has none. -/
def stamp (v : Value) : Script Value := do
  if v.identity != .shared then return v
  modifyGet fun s => (v.identified (.made s.made), { s with made := s.made + 1 })

/-- Prints a line. -/
def printLine (line : String) : Script Unit :=
  modify fun s => { s with printed := s.printed ++ line ++ "\n" }

/-- Warns of something. -/
def warn (kind : WarningKind) (text : String) : Script Unit :=
  modify fun s => { s with warnings := s.warnings ++ [(kind, text)] }

/-- A new list. -/
def newList (items : List Value) : Script Value := alloc (.list items)

/-- A new mapping. -/
def newDict (entries : Entries Value Value) : Script Value := alloc (.dict entries)

/-- A new mapping that cannot be changed. -/
def newView (entries : Entries Value Value) : Script Value := alloc (.view entries)

/-- A new record. -/
def newRecord (c : RecordClass) (fields : Entries String Value) : Script Value :=
  alloc (.record c fields)

/-- A new array of one dimension on the device. -/
def newVector (numbers : List Float) : Script Value :=
  alloc (.array (.ofDoubles true [numbers.length] numbers))

/-! ### Calls -/

/-- The arguments of a call, by position and by name. -/
structure Arguments where
  positional : List Value
  named : List (String × Value)

/-- How a program calls a value, reads and changes an attribute of one, and reads an item of one.
Each can lead to any operation of the session, so programs that use them are written over this
interface. -/
class Calling where
  call : Value → Arguments → Script Value
  read : Value → String → Script Value
  write : Value → String → Value → Script Unit
  item : Value → Value → Script Value

export Calling (call read write item)

/-- Calls a value with arguments by position. -/
def callWith [Calling] (f : Value) (arguments : List Value) : Script Value := call f ⟨arguments, []⟩

/-- Calls an operation of a value with arguments by position. -/
def callMethod [Calling] (on : Value) (name : String) (arguments : List Value) : Script Value := do
  callWith (← read on name) arguments

end LinModel.Session
