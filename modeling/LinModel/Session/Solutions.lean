import LinModel.Session.DenseModels
import LinModel.Solving.Report

/-!
# Solutions in a session

Verifying, reading and printing solutions. A solution may have been made by hand, with any values
as its fields; each is asked for what is needed of it, in the order in which it is needed. What is
typed is measured by the library's own verification.

Key definitions: `makeSolution`, `verifySolution`, `reportIsClean`, `readSolution`,
`valueInSolution`, `printSummary`, `printTable`, `modelVariable`.
-/
namespace LinModel.Session

/-- A solution. -/
def makeSolution (status objective values duals model : Value) : Script Value :=
  newRecord .solution [("status", status), ("objective_value", objective), ("values", values),
    ("dual_values", duals), ("model", model)]

/-! ### Reports -/

/-- Labels with amounts as a mapping; the labels must be usable as keys. -/
def newAmounts (entries : List (Value × Float)) : Script Value := do
  newDict (← entries.mapM fun (label, amount) => do
    requireKey label
    return (label, ← stamp (.ofReal amount)))

/-- A report with a tolerance in the form in which it was given. -/
def ofViolations (v : Violations Float Value) (tolerance : Value) : Script Value := do
  let byText := fun entries : Entries String Float =>
    entries.map fun (name, x) => (Value.ofText name, x)
  newRecord .violations [
    ("constraints", ← newAmounts v.constraints),
    ("bounds", ← newAmounts (byText v.bounds)),
    ("integrality", ← newAmounts (byText v.integrality)),
    ("max_violation", .ofReal v.worst),
    ("tolerance", tolerance)]

/-- Whether an amount is above a tolerance of any kind. -/
def exceeds (tolerance : Value) (amount : Float) : Script Bool := do
  match ← reading fun _ => commonNumbers? (.machine (.double amount) .shared) tolerance with
  | some (x, y) =>
    if tolerance.isDecimal && (x.isNaN || y.isNaN) then failDecimal .invalid
    return y.less x
  | none =>
    if let .text t _ := tolerance then
      fault .noNumericForm (noLoopMessage "greater" (typeText .double) (textType t))
    fault .type
      ("'>' not supported between instances of 'float' and '" ++ tolerance.longTypeName ++ "'")

/-- The entries above a tolerance of any kind. -/
def beyondValue {α : Type} [BEq α] (tolerance : Value) (toKey : α → Value) (labels : List α)
    (amounts : List Float) : Script (Entries α Float) := do
  let kept ← (labels.zip amounts).filterM fun (label, amount) => do
    let above ← exceeds tolerance amount
    if above then requireKey (toKey label)
    return above
  return Entries.ofList kept

/-- The label of the constraint with number `i`. -/
def numberLabel (i : Nat) : Value := .ofText ("#" ++ toString i)

/-- Fails as verifying failed. -/
def failVerify {α : Type} (e : VerifyError Float) : Script α :=
  match e with
  | .noModel => fail .value "Solution has no compiled model to verify against"
  | .dense e => failDense e
  | .missingValues names =>
    failMissing ("No value for variables " ++ listText (names.map Text.quote))

/-- The failure for a verification error, as seen from a store. -/
def verifyFailure (s : Store) (e : VerifyError Float) : Failure :=
  match (failVerify (α := Unit) e).run.run s with
  | (.error f, _) => f
  | (.ok (), _) => ⟨.value, none, [], false⟩

section Verifying

variable [Calling]

/-- The report on the values of a model, both asked for their parts one by one. -/
def verifyParts (model values tolerance : Value) : Script (Violations Float Value) := do
  let forms ← lowerModel model
  let d := forms.dense
  let x ← assignmentVector d.order values
  let labels ← (← iterate (← read model "constraints")).zipIdx.mapM fun (c, i) => do
    return (toLabel (← read c "name")).getD (numberLabel i)
  match tolerance with
  | .real t _ => return .measured labels d x t
  | _ => return {
      constraints := ← beyondValue tolerance id labels (d.constraintViolation x)
      bounds := ← beyondValue tolerance .ofText d.order (d.boundViolation x)
      integrality := ← beyondValue tolerance .ofText d.order (d.integralityViolation x)
      worst := (Violations.measured labels d x 0.0).worst
      tolerance := 0.0 }

/-- Whether a report has no entries. -/
def reportIsClean (report : Value) : Script Bool := do
  for title in ["constraints", "bounds", "integrality"] do
    if ← truth (← read report title) then return false
  return true

/-- Verifies a solution against its model, with a tolerance of its own if one is given. A report
that is not clean gives a warning. -/
def verifySolution (solution tolerance : Value) : Script Value := do
  let model ← read solution "model"
  if let .none := model then failVerify .noModel
  let tolerance ← match tolerance with
    | .none => read model "tolerance"
    | v => do stamp (.ofReal (← toDouble v))
  let status ← read solution "status"
  if !(← truth (← read status "has_solution")) then return ← ofViolations (.none 0.0) tolerance
  let values ← read solution "values"
  let s ← get
  let report ← match s.toProblem? model, status, tolerance with
    | some problem, .member (.status status), .real t _ =>
      verifyWith (verifyFailure s) (assignmentVector · values) numberLabel problem status t
    | _, _, _ => verifyParts model values tolerance
  let v ← ofViolations report tolerance
  if !(← reportIsClean v) then warn .violated (← written v)
  return v

end Verifying

/-! ### Reading -/

section Reading

variable [Calling]

/-- The name that a key of a solution stands for: a variable's own, and any other key itself. An
expression that is not a single variable stands for none. -/
def solutionKey (key : Value) : Script Value := do
  let s ← get
  match s.expression? key with
  | some (.variable v) => return .ofName v.name
  | some (.term name c) => if c == 1.0 then return .ofName name else refuse
  | some _ => refuse
  | none => if key.isExpression then refuse else return key
where
  /-- Fails for an expression that is not a single variable. -/
  refuse {α : Type} : Script α := do
    fail .type ("Index a solution with a variable, use value() for " ++ (← shown key))

/-- The value of a variable in a solution. -/
def readSolution (solution key : Value) : Script Value := do
  let name ← solutionKey key
  let values ← read solution "values"
  let text ← written name
  tryCatch (item values (.ofText text)) fun e => do
    if e.kind != .missingKey && e.kind != .unknownVariable then throw e
    let shown ← inserted name
    let status ← inserted (← read (← read solution "status") "value")
    failMissing ("No value for variable '" ++ shown ++ "' (" ++ status ++ ")")

/-- The value of an expression or a number in a solution. -/
def valueInSolution (solution expression : Value) : Script Value := do
  let e ← toSide expression
  evaluateValue e (← read solution "values")

/-- The variable of a name in a model. -/
def modelVariable (model name : Value) : Script Value := do
  for v in ← iterate (← read model "variables") do
    let text ← written (← read v "name")
    if text == (← written name) then return v
  failMissing (UnlistedName.message ⟨← inserted name⟩)

/-- The labelled constraints of a model by label; of equal labels, the last one. -/
def namedConstraints (model : Value) : Script Value := do
  let labelled ← collect (fun c => do
    match ← read c "name" with
    | .none => return none
    | label =>
      requireKey label
      return some (label, c)) (← iterate (← read model "constraints"))
  newDict (Entries.ofList labelled)

end Reading

/-! ### Printing -/

section Printing

variable [Calling]

/-- The kind of a variable, which must be one. -/
def countedKind (v : Value) : Script VariableKind := do
  match ← read v "kind" with
  | .member (.kind k) => return k
  | other =>
    requireKey other
    fail .missingKey (← shown other)

/-- Prints the summary of a model. -/
def printSummary (model : Value) : Script Unit := do
  let kinds ← (← iterate (← read model "variables")).mapM countedKind
  let equations ← (← iterate (← read model "constraints")).mapM fun c => do
    truth (← read c "is_equality")
  Report.summaryHead.forM printLine
  let solver ← read (← read model "solver") "value"
  let goal ← read (← read (← read model "objective") "goal") "value"
  let cell := fun v => reading fun s => s.cell v
  let body := Report.summaryBody (← cell solver) (← cell goal) (.ofParts kinds equations)
  body.forM printLine

/-- How a session's solutions are printed, with the bounds of their model if they have one. -/
def tableStyle (solution : Value) : Report.Style Script Value Value where
  print := printLine
  label v := reading fun s => s.cell v
  number v := reading fun s => s.general (some 6) v
  bounds name := do
    match ← read solution "model" with
    | .none => return ("", "")
    | model =>
      let v ← callMethod model "variable" [name]
      let bound := fun (title : String) => do
        let x ← read v title
        reading fun s => s.general none x
      return (← bound "lower_bound", ← bound "upper_bound")

/-- A part of a solution's table, from a field with entries. -/
def tableSection (solution : Value) (name : String) : Report.Section Script Value Value where
  isShown := do truth (← read solution name)
  entries := do itemsOf (← read solution name)

/-- Prints the table of a solution. -/
def printTable (solution : Value) : Script Unit := do
  let status ← read solution "status"
  match ← read status "value" with
  | .text .. => pure ()
  | word => noAttribute word "upper"
  match status with
  | .member (.status s) =>
    Report.printSolution (tableStyle solution) s (toLabel (← read solution "objective_value"))
      (tableSection solution "values") (tableSection solution "dual_values")
  | other =>
    requireKey other
    fail .missingKey (← shown other)

end Printing

end LinModel.Session
