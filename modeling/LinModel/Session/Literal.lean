import LinModel.Session.Functions

/-!
# Literals

What a step writes down to stand for a value: numbers, texts, collections, registers, names,
selectors, members of closed sets and providers. Reading a literal makes the objects it needs, and
every value that is read is one of its own, also if it equals another.

Key definitions: `Literal`, `Literal.eval`.
-/
namespace LinModel.Session

/-- A written value. -/
inductive Literal
  | none
  | truth (b : Bool)
  | integer (n : Int)
  | real (x : Float)
  /-- An integer or a double as text. -/
  | numeral (isInteger : Bool) (s : String)
  | text (s : String)
  | list (items : List Literal)
  | tuple (items : List Literal)
  | dict (entries : List (Literal × Literal))
  | register (name : String)
  | name (value : Literal)
  | anyKey
  | exactKey (key : Literal)
  | slice (start stop step : Literal)
  | member (set name : String)
  | fraction (num den : Literal)
  | decimal (value : Literal)
  /-- A number of fixed width. -/
  | machine (width : String) (value : Literal)
  | provider (kind : String) (arguments : List Literal)
deriving Inhabited

/-! ### Registers -/

/-- The value in a register. -/
def readRegister (name : String) : Script Value := do
  match (← get).registers.find? name with
  | some v => return v
  | none => fail .unsetRegister name

/-- Puts a value into a register. -/
def writeRegister (name : String) (v : Value) : Script Unit := do
  let v ← stamp v
  modify fun s => { s with registers := s.registers.put name v }

/-! ### Numbers -/

/-- How many digits an integer may be written with. -/
def largestDigitCount : Nat := 4300

/-- The number that a text writes. -/
def readNumeral (isInteger : Bool) (s : String) : Script Value := do
  if isInteger then
    let count := s.toList.countP (·.isDigit)
    if largestDigitCount < count then
      fail .value ("Exceeds the limit (4300 digits) for integer string conversion: value has "
        ++ toString count ++ " digits; use sys.set_int_max_str_digits() to increase the limit")
    return .ofInt (← toInteger (.ofText s))
  else return .ofReal (← toDouble (.ofText s))

/-- A number of fixed width made of a value. -/
def makeMachine (width : String) (v : Value) : Script MachineNumber := do
  let double : Script Float := match v with
    | .none => return 0.0 / 0.0
    | v => tryCatch (toDouble v) fun e =>
      if e.kind = .overflow then fault .type (e.message.getD "") else throw e
  match width with
  | "float32" => return .single (Number.toSingle (← double))
  | "int64" =>
    let n ← toInteger v
    if wrapped n = n then return .integer n
    else fail .overflow "Python int too large to convert to C long"
  | _ => return .double (← double)

/-- A fraction of two integers. -/
def makeFraction (num den : Value) : Script Value := do
  let integer := fun v : Value => match v with
    | .integer n _ => some n
    | .truth b => some (if b then 1 else 0)
    | _ => none
  match integer num, integer den with
  | some n, some d =>
    if d = 0 then fail .divisionByZero ("Fraction(" ++ toString n ++ ", 0)")
    return .fraction (mkRat (if d < 0 then -n else n) d.natAbs) .shared
  | _, _ => fail .type "both arguments should be Rational instances"

/-- A decimal made of a value. -/
def makeDecimal (v : Value) : Script Value := do
  match v with
  | .text s _ => match Number.Decimal.read? s with
    | some d => if d.isHeld then return .decimal d .shared else failDecimal .invalid
    | none => failDecimal .malformed
  | .integer n _ => return .decimal (.ofInt n) .shared
  | v => fault .type ("conversion from " ++ v.typeName ++ " to Decimal is not supported")

/-! ### Members and providers -/

/-- The member of a set with a name. -/
def findMember (set name : String) : Script Member :=
  match Member.all.find? fun m => m.setName == set && m.parts.2.1 == name with
  | some m => return m
  | none => fail .missingKey (Text.quote name)

/-- The provider of a kind. -/
def makeProvider (kind : String) (arguments : List Value) : Script Provider := do
  match kind, arguments with
  | "keys", _ => return .echo
  | "const", [v] => return .constant v
  | "join", _ => return .join
  | "count", _ => return .count
  | "raise", [k] => return .failAt k
  | "var", b :: rest => return .declare b rest.head?
  | "auto", b :: rest => return .declareAutomatic b rest.head?
  | _, _ => fault .operation ("no provider '" ++ kind ++ "'")

/-! ### Reading literals -/

namespace Literal

mutual

/-- The value that a literal stands for. -/
def eval : Literal → Script Value
  | .none => return .none
  | .truth b => return .truth b
  | .integer n => stamp (.ofInt n)
  | .real x => stamp (.ofReal x)
  | .numeral isInteger s => do stamp (← readNumeral isInteger s)
  | .text s => stamp (.ofText s)
  | .list items => do newList (← evalAll items)
  | .tuple items => do stamp (.ofTuple (← evalAll items))
  | .dict entries => do newDict (Entries.ofList (← evalEntries entries))
  | .register r => readRegister r
  | .name value => do stamp (← makeName (← eval value))
  | .anyKey => return .anyKey
  | .exactKey key => do stamp (.selector (← eval key) (.truth false) .shared)
  | .slice a b c => do stamp (.slice (← eval a) (← eval b) (← eval c) .shared)
  | .member set m => do return .member (← findMember set m)
  | .fraction num den => do stamp (← makeFraction (← eval num) (← eval den))
  | .decimal value => do stamp (← makeDecimal (← eval value))
  | .machine width value => do stamp (.machine (← makeMachine width (← eval value)) .shared)
  | .provider kind arguments => do
    let p ← makeProvider kind (← evalAll arguments)
    alloc (.callable (.provider p 0))

/-- The values of literals, from left to right. -/
def evalAll : List Literal → Script (List Value)
  | [] => return []
  | l :: rest => do return (← eval l) :: (← evalAll rest)

/-- The values of entries, whose keys must be usable. -/
def evalEntries : List (Literal × Literal) → Script (List (Value × Value))
  | [] => return []
  | (k, v) :: rest => do
    let k ← eval k
    let v ← eval v
    requireKey k
    return (k, v) :: (← evalEntries rest)

end

end Literal
end LinModel.Session
