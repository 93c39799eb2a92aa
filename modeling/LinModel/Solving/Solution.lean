import LinModel.Dense

/-!
# Solutions and their verification

A solution has a status and, if an assignment was found, values by name. Verifying it measures the
assignment against the dense form of the problem and reports every constraint, bound and
integrality that is violated by more than the tolerance.

Key definitions: `SolveStatus`, `Solution`, `Violations`, `Violations.measured`,
`Violations.ofAssignment`, `verifyWith`, `Solution.value`, `Solution.verify`, `violationsText`.
-/
namespace LinModel

/-- How a solve ended. -/
inductive SolveStatus
  | optimal
  | feasible
  | infeasible
  | unbounded
  | abnormal
  | notSolved
deriving DecidableEq

/-- Whether a solve that ended this way has an assignment. -/
def SolveStatus.hasSolution : SolveStatus → Bool
  | .optimal | .feasible => true
  | _ => false

/-- What a solve gives: a status, the objective's value, values by name and duals by label, and
the model that was solved. -/
structure Solution (K L : Type) where
  status : SolveStatus
  objectiveValue : Option K
  values : Entries String K
  duals : Entries L K
  model : Option (CompiledModel K L)

/-- What an assignment violates by more than a tolerance. -/
structure Violations (K L : Type) where
  constraints : Entries L K
  bounds : Entries String K
  integrality : Entries String K
  /-- The largest violation, also of what is within the tolerance. -/
  worst : K
  tolerance : K

namespace Violations

variable {K L : Type}

/-- Whether nothing is violated. -/
def isClean (v : Violations K L) : Bool :=
  v.constraints.isEmpty && v.bounds.isEmpty && v.integrality.isEmpty

variable [Scalar K]

/-- The report on nothing. -/
def none (tolerance : K) : Violations K L := ⟨[], [], [], Scalar.zero, tolerance⟩

/-- The entries above the tolerance; of a label that occurs twice, the last one's. -/
def beyond {α : Type} [BEq α] (labels : List α) (amounts : List K) (tolerance : K) :
    Entries α K :=
  Entries.ofList ((labels.zip amounts).filter fun (_, v) => Scalar.lt tolerance v)

/-- The largest amount, at least zero; a NaN wins. -/
def largest (amounts : List K) : K := amounts.foldl Scalar.maximum Scalar.zero

/-- The first number unless a later one is larger. -/
def firstLargest (a b c : K) : K :=
  let m := if Scalar.lt a b then b else a
  if Scalar.lt m c then c else m

/-- The label of each constraint, `byIndex` for those without. -/
def labels (byIndex : Nat → L) (constraints : List (CompiledConstraint K L)) : List L :=
  constraints.zipIdx.map fun (c, i) => c.label.getD (byIndex i)

/-- The report on an assignment, given in the order of the variables, with a label for each
constraint. -/
def measured [BEq L] (labels : List L) (d : DenseModel K) (x : List K) (tolerance : K) :
    Violations K L :=
  let constraints := d.constraintViolation x
  let bounds := d.boundViolation x
  let integrality := d.integralityViolation x
  { constraints := beyond labels constraints tolerance
    bounds := beyond d.order bounds tolerance
    integrality := beyond d.order integrality tolerance
    worst := firstLargest (largest constraints) (largest bounds) (largest integrality)
    tolerance := tolerance }

/-- The report on an assignment of a problem. -/
def ofAssignment [BEq L] (byIndex : Nat → L) (p : Problem K L) (d : DenseModel K) (x : List K)
    (tolerance : K) : Violations K L :=
  measured (labels byIndex p.constraints) d x tolerance

end Violations

/-- Why a solution cannot be verified. -/
inductive VerifyError (K : Type)
  | noModel
  | dense (e : DenseError K)
  | missingValues (names : List String)

/-- The report on an assignment that `vector` reads off in the order of the variables; there is
nothing to check if the status has no assignment. -/
def verifyWith {m : Type → Type} {ε K L : Type} [Monad m] [MonadExceptOf ε m] [Scalar K] [BEq L]
    (refuse : VerifyError K → ε) (vector : List String → m (List K)) (byIndex : Nat → L)
    (p : Problem K L) (status : SolveStatus) (tolerance : K) : m (Violations K L) :=
  if !status.hasSolution then return .none tolerance
  else match DenseModel.ofProblem p with
    | .error e => throw (refuse (.dense e))
    | .ok d => do
      let x ← vector d.order
      return .ofAssignment byIndex p d x tolerance

namespace Solution

variable {K L : Type}

/-- The values in the order of the variables, all of which must have one. -/
def vector (s : Solution K L) (order : List String) : Except (VerifyError K) (List K) :=
  (DenseModel.vector order s.values).mapError .missingValues

/-- The value of an expression at the values of a solution. -/
def value [Scalar K] (s : Solution K L) (e : Expression K) : Except MissingValue K :=
  e.evaluateAt s.values

/-- The report on a solution with its own model. -/
def verify [Scalar K] [BEq L] (byIndex : Nat → L) (s : Solution K L) (tolerance : K) :
    Except (VerifyError K) (Violations K L) :=
  match s.model with
  | none => .error .noModel
  | some model => verifyWith id s.vector byIndex model.toProblem s.status tolerance

end Solution

/-- The report in words: its parts with a title and its entries, if there are any. -/
def violationsText (tolerance : String) (parts : List (String × List (String × String))) :
    String :=
  let listed := parts.filter (!·.2.isEmpty)
  if listed.isEmpty then "No violations beyond tolerance " ++ tolerance
  else "Violations beyond tolerance " ++ tolerance ++ ": " ++
    String.intercalate "; " (listed.map fun (title, entries) =>
      title ++ ": " ++ String.intercalate ", " (entries.map fun (k, v) => k ++ "=" ++ v))

end LinModel
