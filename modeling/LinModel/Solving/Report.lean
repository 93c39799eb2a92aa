import LinModel.Compiled
import LinModel.Number.Layout
import LinModel.Solving.Solution

/-!
# Printed tables

The summary of a model and the table of a solution, in columns of fixed width between coloured
rules. The table is printed line by line, so a line that cannot be written leaves the ones before
it in place. How a value is written, and which bounds a name has, is up to the caller.

Key definitions: `Counts`, `summaryHead`, `summaryBody`, `printSection`, `printSolution`.
-/
namespace LinModel.Report

open LinModel.Number

/-- A colour of the terminal. -/
inductive Colour
  | red | green | yellow | magenta | cyan

/-- The code of a colour. -/
def Colour.code : Colour → String
  | .red => "31" | .green => "32" | .yellow => "33" | .magenta => "35" | .cyan => "36"

/-- The sequence that sets an attribute of the terminal. -/
def setAttribute (code : String) : String := "\x1b[" ++ code ++ "m"

/-- Text in a colour. -/
def coloured (c : Colour) (s : String) : String :=
  setAttribute c.code ++ s ++ setAttribute "0"

/-- Bold text in a colour. -/
def bold (c : Colour) (s : String) : String := setAttribute "1" ++ coloured c s

/-- The line between the parts of a table. -/
def rule : String := coloured .cyan (String.ofList (List.replicate 72 '-'))

/-- The word for a status. -/
def statusWord : SolveStatus → String
  | .optimal => "optimal"
  | .feasible => "feasible"
  | .infeasible => "infeasible"
  | .unbounded => "unbounded"
  | .abnormal => "abnormal"
  | .notSolved => "not_solved"

/-- The colour of a status. -/
def statusColour : SolveStatus → Colour
  | .optimal => .green
  | .feasible => .yellow
  | .infeasible | .unbounded | .abnormal => .red
  | .notSolved => .magenta

/-- Cells with a bar between them. -/
def row (cells : List String) : String := String.intercalate " | " cells

/-- The line of four centred cells. -/
def summaryRow (solver vars constraints goal : String) : String :=
  row [padBoth 24 solver, padBoth 14 vars, padBoth 14 constraints, padBoth 12 goal]

/-- The line of a variable: name, value and bounds. -/
def valueRow (name value lower upper : String) : String :=
  row [padRight 30 name, padLeft 14 value, padLeft 10 lower, padLeft 10 upper]

/-- The line of a dual. -/
def dualRow (name dual : String) : String := row [padRight 30 name, padLeft 14 dual]

/-- How many variables of each kind and how many constraints a summary speaks of. -/
structure Counts where
  numeric : Nat
  integer : Nat
  boolean : Nat
  constraints : Nat
  equalities : Nat

namespace Counts

/-- Counts variables by their kinds, and constraints by whether they are equations. -/
def ofParts (kinds : List VariableKind) (equations : List Bool) : Counts where
  numeric := kinds.count .numeric
  integer := kinds.count .integer
  boolean := kinds.count .boolean
  constraints := equations.length
  equalities := equations.count true

/-- How many variables there are. -/
def vars (c : Counts) : Nat := c.numeric + c.integer + c.boolean

end Counts

/-- The head of a summary. -/
def summaryHead : List String :=
  [rule, summaryRow "Solver" "Variables" "Constraints" "Goal", rule]

/-- The lines of a summary below its head. -/
def summaryBody (solver goal : String) (c : Counts) : List String :=
  [summaryRow solver (toString c.vars) (toString c.constraints) goal,
    "Variables:   " ++ toString c.numeric ++ " numeric, " ++ toString c.integer ++ " integer, "
      ++ toString c.boolean ++ " boolean",
    "Constraints: " ++ toString c.equalities ++ " equality, "
      ++ toString (c.constraints - c.equalities) ++ " inequality",
    rule]

/-- How the parts of a solution are written. -/
structure Style (m : Type → Type) (A V : Type) where
  print : String → m Unit
  label : A → m String
  /-- A number with six significant digits. -/
  number : V → m String
  /-- The bounds of a name, blank without a model. -/
  bounds : A → m (String × String)

/-- A part of a solution's table: whether it is shown, and its entries. -/
structure Section (m : Type → Type) (A V : Type) where
  isShown : m Bool
  entries : m (List (A × V))

section Printing

variable {m : Type → Type} [Monad m] {A V : Type}

/-- The line of a variable with its bounds. -/
def Style.valueLine (style : Style m A V) (name : A) (value : V) : m String := do
  let (lower, upper) ← style.bounds name
  let label ← style.label name
  return valueRow label (← style.number value) lower upper

/-- The line of a dual. -/
def Style.dualLine (style : Style m A V) (name : A) (dual : V) : m String := do
  let label ← style.label name
  return dualRow label (← style.number dual)

/-- Prints a part of a table, if it is shown: its head and a line for each entry. -/
def printSection (style : Style m A V) (head : String) (line : A → V → m String)
    (part : Section m A V) : m Unit := do
  if ← part.isShown then
    style.print rule
    style.print head
    style.print rule
    for (name, value) in ← part.entries do style.print (← line name value)

/-- Prints the table of a solution. -/
def printSolution (style : Style m A V) (status : SolveStatus) (objective : Option V)
    (values duals : Section m A V) : m Unit := do
  style.print rule
  style.print ("Status: " ++ bold (statusColour status) (statusWord status).toUpper)
  if let some v := objective then style.print ("Objective value: " ++ (← style.number v))
  printSection style (valueRow "Variable" "Value" "Lower" "Upper") style.valueLine values
  printSection style (dualRow "Constraint" "Dual value") style.dualLine duals
  style.print rule

end Printing

end LinModel.Report
