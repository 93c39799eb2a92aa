import LinModel.Solving.Optimize
import LinModel.Solving.Report

/-!
# Solving and printing

The summary of a model and the table of a solution as programs that print lines, and the recipe of
`optimize` with them: the summary before the solve, the table at the end. The table looks up the
bounds of every name that a solution has a value for, and fails at a name that its model lacks.

Key definitions: `Report.Printer`, `Report.printSummary`, `Report.printTable`, `Transcript`,
`Pipeline.withPrinting`, `optimizePrinting`.
-/
namespace LinModel

namespace Report

/-- A program that prints lines, unless a name cannot be looked up. -/
abbrev Printer := ExceptT UnlistedName (StateM (List String))

/-- Prints a line below those before. -/
def printLine (line : String) : Printer Unit := modify (· ++ [line])

/-- How the parts of typed solutions are written. -/
structure Writing (K L : Type) where
  /-- A number with six significant digits. -/
  number : K → String
  bound : K → String
  label : L → String

variable {K L : Type}

/-- Prints the summary of a model. -/
def printSummary [Scalar K] (model : CompiledModel K L) : Printer Unit := do
  summaryHead.forM printLine
  let counts := Counts.ofParts (model.vars.map (·.kind)) (model.constraints.map (·.isEquality))
  (summaryBody model.solver.name model.objective.goal.word counts).forM printLine

/-- The bounds of a name in a model. -/
def boundsIn (w : Writing K L) (model : CompiledModel K L) (name : String) :
    Printer (String × String) :=
  match model.variable name with
  | .ok v => return (w.bound v.lower, w.bound v.upper)
  | .error e => throw e

/-- The style for solutions with the given model. -/
def styleFor (w : Writing K L) (model : Option (CompiledModel K L)) : Style Printer String K where
  print := printLine
  label := pure
  number v := pure (w.number v)
  bounds name := match model with
    | none => return ("", "")
    | some model => boundsIn w model name

/-- Entries as a part of a table, which is shown if there are any. -/
def sectionOf (entries : Entries String K) : Section Printer String K :=
  ⟨return !entries.isEmpty, return entries⟩

/-- Prints the table of a solution. -/
def printTable (w : Writing K L) (s : Solution K L) : Printer Unit :=
  printSolution (styleFor w s.model) s.status s.objectiveValue (sectionOf s.values)
    (sectionOf (s.duals.map fun (label, dual) => (w.label label, dual)))

end Report

/-- What a run that may print leaves behind: reports with violations, and printed lines. -/
structure Transcript (K L : Type) where
  journal : Journal K L
  printed : List String

/-- Why a run that may print ends without a solution. -/
inductive PrintingError (K L ε : Type)
  | run (e : RunError K L ε)
  | table (e : UnlistedName)

variable {K L ε α : Type}

/-- A run that does not print. -/
def silently (x : ExceptT (RunError K L ε) (StateM (Journal K L)) α) :
    ExceptT (PrintingError K L ε) (StateM (Transcript K L)) α :=
  ExceptT.mk fun t =>
    let (result, journal) := x.run t.journal
    (result.mapError .run, { t with journal })

/-- A run that only prints. -/
def aloud (x : Report.Printer α) :
    ExceptT (PrintingError K L ε) (StateM (Transcript K L)) α :=
  ExceptT.mk fun t =>
    let (result, printed) := x.run t.printed
    (result.mapError .table, { t with printed })

/-- The same steps with a summary and a table, where `lift` runs a step of the old ones. -/
def Pipeline.withPrinting {m n : Type → Type} {M S : Type} (p : Pipeline m M S)
    (lift : (α : Type) → m α → n α) (summarize : M → n Unit) (tabulate : S → n Unit) :
    Pipeline n M S where
  build := lift _ p.build
  summarize := summarize
  solve model := lift _ (p.solve model)
  attach model s := lift _ (p.attach model s)
  hasAssignment s := lift _ (p.hasAssignment s)
  verify model s := lift _ (p.verify model s)
  tabulate := tabulate

/-- Solves a builder's model with a backend and verifies the solution; the summary of the model and
the table of the solution are printed if asked for. -/
def optimizePrinting [Scalar K] [BEq L] (w : Report.Writing K L) (printing : Bool)
    (byIndex : Nat → L) (b : Builder K L) (settings : Builder.Settings K)
    (backend : CompiledModel K L → Except ε (Solution K L)) :
    ExceptT (PrintingError K L ε) (StateM (Transcript K L)) (Solution K L) :=
  ((Pipeline.ofBuilder byIndex b settings backend).withPrinting (fun _ => silently)
    (fun model => aloud (Report.printSummary model)) (fun s => aloud (Report.printTable w s))).run
    fun _ => pure printing

end LinModel
