import LinModel.Session.Records

/-!
# Compiling in a session

Variables, constraints and objectives in normal form, against a collection of known names. What is
a constraint or an objective of expressions is compiled as such; anything else is asked for the
attributes that compiling needs, so that an object whose fields were changed compiles to what it
then says.

Key definitions: `Store.constraint?`, `knownNames?`, `compileVariableValue`,
`compileConstraintValue`, `compileObjectiveValue`.
-/
namespace LinModel.Session

/-! ### Typed readings -/

/-- The constraint that an object holds, if its sides are expressions. -/
def Store.constraint? (s : Store) (v : Value) : Option (Constraint Float Value) :=
  match s.object? v with
  | some (.constraint c) => match c.relationship with
    | .member (.relationship r) => do
      return ⟨← s.expression? c.left, ← s.expression? c.right, r, toLabel c.label⟩
    | _ => none
  | _ => none

/-- The objective that an object holds, if it is one of an expression. -/
def Store.objective? (s : Store) (v : Value) : Option (Objective Float) :=
  match s.object? v with
  | some (.objective o) => match o.goal with
    | .member (.goal g) => do return ⟨← s.expression? o.expression, g⟩
    | _ => none
  | _ => none

/-- The identities of the names in a constraint's difference or an objective. -/
def Store.partIdentities (s : Store) (v : Value) : Entries VariableName Identity :=
  match s.object? v with
  | some (.constraint c) => List.append (s.identities c.left) (s.identities c.right)
  | some (.objective o) => s.identities o.expression
  | _ => []

/-- The names in a collection whose items are simply compared with a name. -/
def Store.knownNames? (s : Store) (known : Value) : Option (List VariableName) :=
  let names := fun items : List Value => items.filterMap fun v => match v with
    | .name n _ => some n
    | _ => none
  match known with
  | .tuple items _ => some (names items)
  | _ => match s.object? known with
    | some (.list items) | some (.listing _ items) => some (names items)
    | some (.dict entries) | some (.view entries) => some (names (List.map Prod.fst entries))
    | _ => none

/-! ### Failures -/

/-- Fails because a name is not known. -/
def failUnknown {α : Type} (name place : String) : Script α :=
  failWith .unknownVariable (unknownVariableMessage name place) [("name", .ofText name)]

/-- Fails as compiling failed. -/
def failCompile {α : Type} (e : CompileError Float Value) : Script α := do
  match e with
  | .expression e => failExpression e
  | .unknownVariable name place =>
    let s ← get
    failUnknown name.text (place.describe s.insertedOrBlank s.shownOrBlank)

/-! ### Compiling -/

section Compiling

variable [Calling]

/-- A variable in normal form. -/
def compileVariableValue (v : Value) : Script Value := do
  let s ← get
  match s.expression? v, s.identities v with
  | some (.variable x), (_, id) :: _ => ofCompiledVariable (compileVariable x) id v.identity
  | _, _ =>
    match ← read v "kind" with
    | .member (.kind .boolean) =>
      newPart .variable [← read v "name", ← read v "kind", .ofReal 0.0, .ofReal 1.0]
    | _ =>
      newPart .variable [← read v "name", ← read v "kind", ← read v "lower_bound",
        ← read v "upper_bound"]

/-- The nonzero coefficients that an expression has, all of whose names must be known. -/
def knownCoefficients (expression known : Value) (place : String) :
    Script (Entries Value Value) := do
  let entries ← itemsOf (← read expression "coefficients")
  let kept ← collect (fun (name, value) => do
    if !(← isIn name known) then failUnknown (← written name) place
    if ← truth (← differValues value (.ofReal 0.0)) then return some (name, value)
    return none) entries
  return Entries.ofList kept

/-- A constraint in normal form, under a label of its own if one is given. -/
def compileConstraintValue (c known label : Value) : Script Value := do
  let label ← match label with
    | .none => read c "name"
    | v => pure v
  let s ← get
  match s.constraint? c, s.knownNames? known with
  | some content, some names =>
    let _ ← liftExpression content.difference
    if let some l := toLabel label then
      let _ ← inserted l
    match compileConstraint names content (toLabel label) with
    | .ok compiled => ofCompiledConstraint compiled (s.partIdentities c)
    | .error e => failCompile e
  | _, _ =>
    let delta ← callMethod c "normalized" []
    let place ← match label with
      | .none => do pure ("constraint " ++ (← inserted c))
      | v => do pure ("constraint '" ++ (← inserted v) ++ "'")
    let coefficients ← newDict (← knownCoefficients delta known place)
    let bound ← negValue (← read delta "constant")
    let (lower, upper) := match ← read c "relationship" with
      | .member (.relationship .eq) => (bound, bound)
      | .member (.relationship .ge) => (bound, .ofReal (1.0 / 0.0))
      | _ => (.ofReal (-(1.0 / 0.0)), bound)
    makeCompiledConstraint label coefficients lower upper

/-- The identity of the constant of an objective's expression. -/
def offsetIdentity (o : Value) : Script Identity := do
  return (← read (← read o "expression") "constant").identity

/-- An objective in normal form. -/
def compileObjectiveValue (o known : Value) : Script Value := do
  let s ← get
  match s.objective? o, s.knownNames? known with
  | some content, some names =>
    match compileObjective (L := Value) names content with
    | .ok compiled => ofCompiledObjective compiled (s.partIdentities o) (← offsetIdentity o)
    | .error e => failCompile e
  | _, _ =>
    let expression ← read o "expression"
    let coefficients ← newDict (← knownCoefficients expression known "objective")
    makeCompiledObjective coefficients (← read o "goal") (← read expression "constant")

end Compiling

end LinModel.Session
