import LinModel.Solving.Program
import LinModel.Solving.Solution

/-!
# Reading a solver's outcome

A solver's word for how it ended is mapped to a status. With an assignment, every variable must
have a value, or the solve counts as abnormal. Each labelled constraint gets the sum of the duals
of its relations; constraints that share a label are told apart by their number among them.

Key definitions: `SolveStatus.ofWord`, `Outcome`, `readValues`, `numberedText`, `readDuals`,
`readOutcome`, `SolveFailure`, `solveWith`, `CompiledModel.solve`.
-/
namespace LinModel

/-- The status for a solver's word; no word means that nothing was solved. -/
def SolveStatus.ofWord : Option String → SolveStatus
  | none => .notSolved
  | some word => match word with
    | "optimal" => .optimal
    | "optimal_inaccurate" => .feasible
    | "user_limit" => .feasible
    | "infeasible" => .infeasible
    | "infeasible_inaccurate" => .infeasible
    | "unbounded" => .unbounded
    | "unbounded_inaccurate" => .unbounded
    | "infeasible_or_unbounded" => .infeasible
    | _ => .abnormal

/-- What a solver leaves behind: its word, the objective's value, values of variables, and a dual
for each relation in order, where it has one. -/
structure Outcome (ν K : Type) where
  word : Option String
  objectiveValue : K
  value? : ν → Option K
  duals : List (Option K)

section Reading

variable {ν K L : Type} [Scalar K]

/-- The value of every name, if they all have one. -/
def readValues (value? : ν → Option K) (vars : Entries String ν) :
    Option (Entries String K) :=
  vars.mapM fun (name, handle) => (value? handle).map fun v => (name, v)

/-- The sum of a group's duals, if all have one. -/
def groupDual (duals : List (Option K)) : Option K :=
  duals.foldlM (fun total dual => dual.map (total + ·)) Scalar.zero

/-- The groups' labels with their duals; a missing dual at the end counts as none. -/
def groupDuals : List (Option L × List (Relation ν K)) → List (Option K) →
    List (Option L × Option K)
  | [], _ => []
  | (label, group) :: rest, duals =>
    let own := (List.range group.length).map fun i => (duals[i]?).join
    (label, groupDual own) :: groupDuals rest (duals.drop group.length)

/-- A text with a number in brackets. -/
def numberedText (label : String) (i : Nat) : String := label ++ "[" ++ toString i ++ "]"

/-- Labels with duals, where `numbered label i` names the one with number `i` of those that share
a label. `seen` are the labels met so far, `all` those of the whole model. -/
def labelDuals [BEq L] (numbered : L → Nat → L) (all : List L) :
    (seen : List L) → List (Option L × Option K) → List (L × K)
  | _, [] => []
  | seen, (none, _) :: rest => labelDuals numbered all seen rest
  | seen, (some label, dual) :: rest =>
    let shown := if 1 < all.count label then numbered label (seen.count label) else label
    let later := labelDuals numbered all (label :: seen) rest
    match dual with
    | some d => (shown, d) :: later
    | none => later

/-- The duals by label; of labels that come out equal, the last one's. -/
def readDuals [BEq L] (numbered : L → Nat → L) (p : Program ν K L) (duals : List (Option K)) :
    Entries L K :=
  let all := p.groups.filterMap Prod.fst
  Entries.ofList (labelDuals numbered all [] (groupDuals p.groups (duals.drop p.bounds.length)))

/-- The solution that an outcome gives for a program. -/
def readOutcome [BEq L] (numbered : L → Nat → L) (p : Program ν K L) (o : Outcome ν K) :
    Solution K L :=
  let status := SolveStatus.ofWord o.word
  if !status.hasSolution then ⟨status, none, [], [], none⟩
  else match readValues o.value? p.vars with
    | none => ⟨.abnormal, none, [], [], none⟩
    | some values =>
      ⟨status, some o.objectiveValue, values, readDuals numbered p o.duals, none⟩

/-- Why a solve does not come to an outcome. -/
inductive SolveFailure
  | unsupportedKinds (solver : Solver)
  | unmapped (e : UnmappedName)

/-- The wording of a failure. -/
def SolveFailure.message : SolveFailure → String
  | .unsupportedKinds solver =>
    "Solver " ++ solver.name ++ " does not support integer or boolean variables"
  | .unmapped e => e.message

/-- The wording when the engine itself fails. -/
def engineFailureMessage (solver reason : String) : String :=
  "CVXPY failed to solve the model with " ++ solver ++ ": " ++ reason

/-- Hands a problem to an engine and reads its outcome. The engine's variables are made first, one
per variable of the problem. -/
def solveWith {m : Type → Type} {ε : Type} [Monad m] [MonadExceptOf ε m] [BEq ν] [BEq L]
    (refuse : SolveFailure → ε) (numbered : L → Nat → L)
    (makeVariables : List ProgramVariable → m (List ν))
    (engine : Program ν K L → m (Outcome ν K)) (solver : Solver) (p : Problem K L) :
    m (Solution K L) := do
  if p.isMixedInteger && !solver.supportsIntegers then throw (refuse (.unsupportedKinds solver))
  let handles ← makeVariables (p.vars.map (·.programVariable))
  match Program.ofProblem handles p with
  | .error e => throw (refuse (.unmapped e))
  | .ok program => return readOutcome numbered program (← engine program)

/-- Solves a model with the solver it is meant for; the solution carries the model. -/
def CompiledModel.solve {m : Type → Type} {ε : Type} [Monad m] [MonadExceptOf ε m] [BEq ν] [BEq L]
    (refuse : SolveFailure → ε) (numbered : L → Nat → L)
    (makeVariables : List ProgramVariable → m (List ν))
    (engine : Program ν K L → m (Outcome ν K)) (model : CompiledModel K L) :
    m (Solution K L) := do
  let solution ← solveWith refuse numbered makeVariables engine model.solver model.toProblem
  return { solution with model := some model }

end Reading
end LinModel
