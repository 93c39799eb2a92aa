import LinModel.Session.Display

/-!
# Sessions

A session runs steps one after the other over one store. Each step reads its literals, does one
thing, and answers with what it gave or how it failed, together with the warnings and the printed
text it caused and, for a step on a builder in a register, the text of the builder. A failing step
does not end the session; what only the step itself did wrong has no wording. A register takes its
result before the result is shown, so it has it even if that fails.

A block is a step with steps of its own: constraints that these register without a label get the
block's, until the block ends, also if it ends by a failure.

Key definitions: `Step`, `Answer`, `runStep`, `runSteps`, `runSession`.
-/
namespace LinModel.Session

/-! ### Steps -/

/-- The written arguments of a call. -/
structure LiteralArguments where
  positional : List Literal
  named : List (String × Literal)

/-- What a step does. -/
inductive Action
  | construct (className : String) (arguments : LiteralArguments)
  | function (f : String) (arguments : LiteralArguments)
  | operator (o : String) (operands : List Literal)
  | convert (c : String) (operands : List Literal)
  | echo (v : Literal)
  | method (on : Literal) (m : String) (arguments : LiteralArguments)
  | apply (on : Literal) (arguments : LiteralArguments)
  | attribute (on : Literal) (name : String)
  | index (on k : Literal)
  | assignItem (on k v : Literal)
  | assignPath (on : Literal) (path : List String) (v : Literal)

/-- A step: an action, or a block of steps, with the register for the result. -/
inductive Step
  | act (action : Action) (register : Option String)
  | block (on name : Literal) (steps : List Step) (fails : Bool)

instance : Inhabited Step := ⟨.block .none .none [] false⟩

/-- The values of written arguments. -/
def LiteralArguments.eval (a : LiteralArguments) : Script Arguments := do
  let positional ← Literal.evalAll a.positional
  let named ← a.named.mapM fun (name, l) => do return (name, ← l.eval)
  return ⟨positional, named⟩

/-- Assigns the attribute at the end of a path of attributes. -/
def writePath (on : Value) (v : Value) : List String → Script Unit
  | [] => fault .operation ""
  | [name] => write on name v
  | name :: rest => do writePath (← read on name) v rest

/-- Does what a step does. -/
def Action.run : Action → Script Value
  | .construct className arguments => do Session.construct className (← arguments.eval)
  | .function f arguments => do callFunction f (← arguments.eval)
  | .operator o operands => do operate o (← Literal.evalAll operands)
  | .convert c operands => do
    match ← Literal.evalAll operands with
    | v :: _ => Session.convert c v
    | [] => fault .operation ""
  | .echo v => v.eval
  | .method on m arguments => do
    let arguments ← arguments.eval
    call (← read (← on.eval) m) arguments
  | .apply on arguments => do
    let arguments ← arguments.eval
    call (← on.eval) arguments
  | .attribute on name => do read (← on.eval) name
  | .index on k => do
    let on ← on.eval
    item on (← k.eval)
  | .assignItem on k v => do
    let on ← on.eval
    let k ← k.eval
    writeItem on k (← v.eval)
    return .none
  | .assignPath on path v => do
    let on ← on.eval
    writePath on (← v.eval) path
    return .none

/-! ### Answers -/

/-- A failure as an answer shows it. -/
structure ShownFailure where
  kind : FailureKind
  message : Option String
  details : List (String × Display)

/-- What a step answers besides its result. -/
structure Remarks where
  /-- The text of the builder that the step was about. -/
  state : Option String
  warnings : List (WarningKind × String)
  printed : String

/-- The answer of a step. -/
inductive Answer
  | ok (result : Display) (remarks : Remarks)
  | block (answers : List Answer) (remarks : Remarks)
  | failed (failure : ShownFailure) (remarks : Remarks)

/-- The register that a step is about. -/
def Step.subject : Step → Option String
  | .act action _ => match action with
    | .method (.register r) .. | .apply (.register r) _ | .attribute (.register r) _
    | .index (.register r) _ | .assignItem (.register r) .. | .assignPath (.register r) .. =>
      some r
    | _ => none
  | .block (.register r) .. => some r
  | .block .. => none

/-- The result of a program, or its failure. -/
def attempt {α : Type} (program : Script α) : Script (Except Failure α) :=
  tryCatch (Except.ok <$> program) fun e => return .error e

/-- The text of the builder in a register, if there is one that has a text. -/
def builderState (register : Option String) : Script (Option String) := do
  let s ← get
  match register.bind fun r => s.registers.find? r with
  | some (.object .builder place) => match s.shown (.object .builder place) with
    | .ok text => return some text
    | .error _ => return none
  | _ => return none

/-- The remarks on a step, which clear what the store has warned of and printed. -/
def takeRemarks (subject : Option String) : Script Remarks := do
  let state ← builderState subject
  modifyGet fun s => (⟨state, s.warnings, s.printed⟩, { s with warnings := [], printed := "" })

/-- The answer for a failure. -/
def answerFailure (subject : Option String) (e : Failure) : Script Answer := do
  let details ← e.details.mapM fun (name, v) => do
    match ← attempt (display v) with
    | .ok shown => return (name, shown)
    | .error _ => return (name, .null)
  return .failed ⟨e.kind, e.message, details⟩ (← takeRemarks subject)

/-! ### Running steps -/

/-- Runs a program inside a block of constraints. -/
def inBlock {α : Type} (manager : Value) (program : Script α) : Script α := do
  match (← get).object? manager with
  | some (.block (.object .builder place) label) =>
    (Builder.within (K := Float) (L := Value) (m := OnBuilder) (toLabel label)
      fun _ => program) place
  | _ => fault .type ("'" ++ manager.typeName ++ "' object does not support the context manager "
      ++ "protocol")

mutual

/-- Runs a step. -/
def runStep (step : Step) : Script Answer := do
  let subject := step.subject
  match step with
  | .act action register => do
    let result ← attempt (outside do
      let v ← action.run
      if let some r := register then writeRegister r v
      display v)
    match result with
    | .ok shown => return .ok shown (← takeRemarks subject)
    | .error e => answerFailure subject e
  | .block on name steps fails => do
    let result ← attempt (outside do
      let on ← on.eval
      let name ← name.eval
      inBlock (← callMethod on "constraint" [name]) do
        let answers ← runSteps steps
        if fails then fail .value "leaving the block"
        return answers)
    match result with
    | .ok answers => return .block answers (← takeRemarks subject)
    | .error e => answerFailure subject e

/-- Runs steps one after the other. -/
def runSteps (steps : List Step) : Script (List Answer) := do
  match steps with
  | [] => return []
  | step :: rest => return (← runStep step) :: (← runSteps rest)

end

/-- The answers of a session that starts with an empty store. -/
def runSession (steps : List Step) : List Answer :=
  match (runSteps steps).run.run Store.empty with
  | (.ok answers, _) => answers
  | (.error _, _) => []

end LinModel.Session
