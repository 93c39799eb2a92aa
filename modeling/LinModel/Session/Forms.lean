import LinModel.Session.Arrays

/-!
# Forms in a session

Program variables and what is built of them: forms, equations and inequalities. Their operators
apply to each other and to whatever converts to a double, which stands for a constant; nothing
stands for a NaN, and a collection for its numbers. Sums, differences and so on are kept as they are
written, except that adding a constant of zero changes nothing. Relations between forms have no
truth value, and there are no strict ones.

Key definitions: `Store.form?`, `Store.constantOf`, `combineForms?`, `negateForm?`, `relateForms?`,
`Store.makesRelation`, `Store.formValue?`.
-/
namespace LinModel.Session

/-- Whether a value is a program variable or a form. -/
def Value.isForm : Value → Bool
  | .object .programVariable _ | .object (.form _) _ => true
  | _ => false

namespace Store

/-- The form that a value is. -/
def form? (s : Store) (v : Value) : Option (Form Nat Float) :=
  match v with
  | .object .programVariable place => some (.handle place)
  | .object (.form _) place => match s.objects[place]? with
    | some (.form f) => some f
    | _ => none
  | _ => none

/-- The number that a value stands for among forms; a collection of numbers stands for its only
one, and has no single number if it has several. -/
def constantOf (s : Store) (v : Value) : Reading Float := do
  match ← (← s.nestedItems v).2.mapM s.itemDouble with
  | [x] => return x
  | _ => return 0.0 / 0.0

/-- Whether a value stands for any number of numbers but one. -/
def isSpread (s : Store) (v : Value) : Reading Bool := do
  return (← s.nestedItems v).2.length ≠ 1

/-- The form that a value stands for: a form itself, or a constant. -/
def toForm (s : Store) (v : Value) : Reading (Form Nat Float) := do
  if let some f := s.form? v then return f
  if let some (.list items) := s.object? v then
    if items.any Value.isForm then
      fail .value ("The input must be a single CVXPY Expression, not a list. Combine Expressions "
        ++ "using atoms such as bmat, hstack, and vstack.")
  return .constant (← s.constantOf v)

/-- Whether comparing two values would make a relation between forms; fails if one of them is a form
and the other stands for none. -/
def makesRelation (s : Store) (a b : Value) : Reading Bool := do
  if !a.isForm && !b.isForm then return false
  let _ ← s.toForm a
  let _ ← s.toForm b
  return true

end Store

/-- A form as a value. -/
def newForm : Form Nat Float → Script Value
  | .handle place => return .object .programVariable place
  | f => alloc (.form f)

/-- Whether a form is the constant zero. -/
def isZeroForm : Form Nat Float → Bool
  | .constant k => k == 0.0
  | _ => false

/-- Fails if one of two values has several numbers: what is made of them is not shown. -/
def requireSingle (a b : Value) : Script Unit := do
  if (← reading (·.isSpread a)) || (← reading (·.isSpread b)) then
    fault .type "only 0-dimensional arrays can be converted to Python scalars"

/-- An operation of a form with a value; nothing if neither value is a form. A number of zero adds
nothing to a form. -/
def combineForms? (op : Operation) (a b : Value) : Script (Option Value) := do
  if !a.isForm && !b.isForm then return none
  let f ← reading fun s => s.toForm a
  let g ← reading fun s => s.toForm b
  requireSingle a b
  some <$> newForm (match op with
    | .add => if isZeroForm g then f else if !a.isForm && isZeroForm f then g else .sum f g
    | .sub => .sum f (.negation g)
    | .mul => .product f g
    | .div => .quotient f g)

/-- The opposite of a form; nothing for other values. -/
def negateForm? (v : Value) : Script (Option Value) := do
  match (← get).form? v with
  | some f => some <$> newForm (.negation f)
  | none => return none

/-- The equation or inequality between a form and a value; nothing if neither value is a form. Of an
equation the form stands on the left. -/
def relateForms? (relationship : Relationship) (a b : Value) : Script (Option Value) := do
  if !a.isForm && !b.isForm then return none
  let f ← reading fun s => s.toForm a
  let g ← reading fun s => s.toForm b
  requireSingle a b
  some <$> alloc (.relation (match relationship with
    | .eq => if a.isForm then ⟨true, f, g⟩ else ⟨true, g, f⟩
    | .le => ⟨false, f, g⟩
    | .ge => ⟨false, g, f⟩))

/-- Fails because there are no strict relations between forms. -/
def failStrict {m : Type → Type} [MonadExceptOf Failure m] {α : Type} : m α :=
  fail .notSupported "Strict inequalities are not allowed."

namespace Store

/-- The value of a program variable. -/
def programValue? (s : Store) (place : Nat) : Option Float :=
  match s.objects[place]? with
  | some (.programVariable _ _ _ value) => value
  | _ => none

/-- The value of a form, if all its variables have one. -/
def formValue? (s : Store) (f : Form Nat Float) : Option Float := f.value? s.programValue?

end Store
end LinModel.Session
