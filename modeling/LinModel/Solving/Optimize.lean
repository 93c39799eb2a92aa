import LinModel.Builder.Basic
import LinModel.Solving.Solution

/-!
# Solving from start to end

Building, solving and verifying a model in one go. The steps are written over any kind of model
and solution, so that the same recipe serves typed models and sessions: the model is built and
summarised, the backend's solution gets the model if it carries none, an assignment is verified
with the model's tolerance, and the solution is tabled. `optimize` is the recipe for a builder.

Key definitions: `Pipeline`, `Pipeline.run`, `Journal`, `Pipeline.ofBuilder`, `optimize`.
-/
namespace LinModel

/-- The steps of a solve, over models `M` and solutions `S`. -/
structure Pipeline (m : Type → Type) (M S : Type) where
  build : m M
  summarize : M → m Unit
  solve : M → m S
  /-- Gives a solution the model unless it carries one. -/
  attach : M → S → m S
  hasAssignment : S → m Bool
  verify : M → S → m Unit
  tabulate : S → m Unit

/-- Runs the steps; the summary and the table only when printing. -/
def Pipeline.run {m : Type → Type} {M S : Type} [Monad m] (p : Pipeline m M S)
    (printing : M → m Bool) : m S := do
  let model ← p.build
  let printing ← printing model
  if printing then p.summarize model
  let solution ← p.solve model
  let solution ← p.attach model solution
  if ← p.hasAssignment solution then p.verify model solution
  if printing then p.tabulate solution
  return solution

/-- Why a run ends without a solution. -/
inductive RunError (K L ε : Type)
  | build (e : BuildError K L)
  | backend (e : ε)
  | verify (e : VerifyError K)

/-- What a run leaves behind besides its result: reports with violations, in order. -/
abbrev Journal (K L : Type) := List (Violations K L)

/-- The steps for a builder and a backend. Nothing is printed; a report that is not clean goes into
the journal. -/
def Pipeline.ofBuilder {K L ε : Type} [Scalar K] [BEq L] (byIndex : Nat → L) (b : Builder K L)
    (settings : Builder.Settings K) (backend : CompiledModel K L → Except ε (Solution K L)) :
    Pipeline (ExceptT (RunError K L ε) (StateM (Journal K L))) (CompiledModel K L)
      (Solution K L) where
  build := liftExcept ((b.build settings).mapError .build)
  summarize _ := pure ()
  solve model := liftExcept ((backend model).mapError .backend)
  attach model s := pure { s with model := s.model.or (some model) }
  hasAssignment s := pure s.status.hasSolution
  verify model s := do
    let report ← liftExcept ((s.verify byIndex model.tolerance).mapError .verify)
    if !report.isClean then modify (· ++ [report])
  tabulate _ := pure ()
where
  /-- A result that may fail, as a step of the run. -/
  liftExcept {α : Type} (r : Except (RunError K L ε) α) :
      ExceptT (RunError K L ε) (StateM (Journal K L)) α :=
    match r with
    | .ok a => return a
    | .error e => throw e

/-- Solves a builder's model with a backend and verifies the solution; a report that is not clean
goes into the journal. -/
def optimize {K L ε : Type} [Scalar K] [BEq L] (byIndex : Nat → L) (b : Builder K L)
    (settings : Builder.Settings K) (backend : CompiledModel K L → Except ε (Solution K L)) :
    ExceptT (RunError K L ε) (StateM (Journal K L)) (Solution K L) :=
  (Pipeline.ofBuilder byIndex b settings backend).run fun _ => pure false

end LinModel
