import LinModel.Session.Conversion

/-!
# Arguments of calls

A call has arguments by position and by name. Binding matches them with the parameters of what is
called, fills in defaults, and refuses calls with unknown, repeated, too many or missing ones. A
refused call is a fault of the caller.

Key definitions: `Parameter`, `bindArguments`, `positionalOnly`.
-/
namespace LinModel.Session

/-- A parameter with its default, if it has one. -/
structure Parameter where
  name : String
  fallback : Option Value

/-- A parameter that must be given. -/
def required (name : String) : Parameter := ⟨name, none⟩

/-- A parameter that may be left out. -/
def optional (name : String) (fallback : Value) : Parameter := ⟨name, some fallback⟩

/-- Quoted names as a list in words. -/
def listInWords (names : List String) : String :=
  match names.map fun n => "'" ++ n ++ "'" with
  | [] => ""
  | [a] => a
  | [a, b] => a ++ " and " ++ b
  | quoted => String.intercalate ", " quoted.dropLast ++ ", and " ++ (quoted.getLast?.getD "")

/-- A count of things in words. -/
def counted (n : Nat) (thing : String) : String :=
  toString n ++ " " ++ thing ++ (if n = 1 then "" else "s")

/-- Binds the arguments of a call to `title`, which has `implicit` arguments of its own, and gives
the value of every parameter. -/
def bindArguments (title : String) (implicit : Nat) (parameters : List Parameter)
    (arguments : Arguments) : Script (String → Value) := do
  let given := arguments.positional.length
  let total := parameters.length
  let needed := (parameters.filter (·.fallback.isNone)).length
  let byPosition := parameters.zip arguments.positional |>.map fun (p, v) => (p.name, v)
  for (name, _) in arguments.named do
    if !parameters.any (·.name == name) then
      fault .type (title ++ "() got an unexpected keyword argument '" ++ name ++ "'")
    if byPosition.any (·.1 == name) then
      fault .type (title ++ "() got multiple values for argument '" ++ name ++ "'")
  if total < given then
    let span := if needed = total then counted (total + implicit) "positional argument"
      else "from " ++ toString (needed + implicit) ++ " to "
        ++ counted (total + implicit) "positional argument"
    fault .type (title ++ "() takes " ++ span ++ " but " ++ toString (given + implicit)
      ++ (if given + implicit = 1 then " was given" else " were given"))
  let bound := byPosition ++ arguments.named
  let missing := parameters.filter fun p => p.fallback.isNone && !bound.any (·.1 == p.name)
  if !missing.isEmpty then
    fault .type (title ++ "() missing " ++ counted missing.length "required positional argument"
      ++ ": " ++ listInWords (missing.map (·.name)))
  return fun name => match bound.find? (·.1 == name) with
    | some (_, v) => v
    | none => ((parameters.find? (·.name == name)).bind (·.fallback)).getD .none

/-- The arguments of a call that takes any number of them by position. -/
def positionalOnly (title : String) (arguments : Arguments) : Script (List Value) :=
  match arguments.named with
  | [] => return arguments.positional
  | (name, _) :: _ =>
    fault .type (title ++ "() got an unexpected keyword argument '" ++ name ++ "'")

end LinModel.Session
