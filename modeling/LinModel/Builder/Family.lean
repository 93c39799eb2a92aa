import LinModel.Builder.Basic
import LinModel.Tensor.Basic

/-!
# Families of variables

A family declares one variable per key tuple and gathers them in a tensor. Each is named by a stem
and its keys, joined by underscores. If any declaration fails with an error, everything that the
family had registered is taken back: its variables and the automatic names it used. An interruption,
as when the user stops the program, passes and leaves the family as far as it came.

Key definitions: `Interruptible`, `familyName`, `Builder.rollback`, `Builder.family`,
`Builder.namedFamily`, `Builder.variableFamily`.
-/
namespace LinModel

/-- Failures of which some are interruptions: handlers take errors and let these pass. -/
class Interruptible (ε : Type) where
  isInterruption : ε → Bool

/-- The name of a family's member: the stem and the texts of its keys, joined by underscores. -/
def familyName (stem : String) (keys : List String) : String :=
  String.intercalate "_" (stem :: keys)

/-- Why a family of variables is refused. -/
inductive FamilyError (K κ : Type)
  | keys (e : TensorError κ)
  | emptyName
  | member (e : BuilderError K)

instance (K : Type) : Interruptible (BuilderError K) := ⟨fun _ => false⟩

instance (K κ : Type) : Interruptible (FamilyError K κ) := ⟨fun _ => false⟩

namespace Builder

variable {K L : Type}

/-- Keeps only the variables that were registered before, and counts automatic names from there. -/
def rollback (before after : Builder K L) : Builder K L :=
  { after with
    vars := after.vars.filter fun v => before.names.contains v.name
    sequence := before.sequence }

/-- Runs a program, and takes back the variables it registered if it fails with an error. -/
def undoingOnError {m : Type → Type} {ε α : Type} [Monad m] [MonadStateOf (Builder K L) m]
    [MonadExceptOf ε m] [Interruptible ε] (program : m α) : m α := do
  let before : Builder K L ← get
  tryCatch program fun (e : ε) => do
    unless Interruptible.isInterruption e do modify (rollback before)
    throw e

/-- Declares one member per key tuple, in the order of `product`; `nameOf` gives a member's name,
and `provide` gets it. What is refused is worded by `refuse`, once the dimensions are known. -/
def family {m : Type → Type} {ε κ δ α : Type} [Monad m] [MonadStateOf (Builder K L) m]
    [MonadExceptOf ε m] [Interruptible ε] [Key κ] (dimensions : m (List (List κ)))
    (refuse : m (TensorError κ → ε)) (nameOf : List κ → m String) (provide : String → m α) :
    m (Tensor κ δ α) :=
  undoingOnError (K := K) (L := L) (ε := ε) do
    let dims ← dimensions
    Tensor.generate (← refuse) dims (fun keys => do provide (← nameOf keys)) none none

/-- The name of a member for a caller that writes the keys and reads the stem, which is `x` if there
is none. The keys are written first. -/
def memberName {m : Type → Type} {κ : Type} [Monad m] (write : κ → m String)
    (stem : Option (m String)) (keys : List κ) : m String := do
  let texts ← keys.mapM write
  return familyName (← stem.getD (pure "x")) texts

/-- A family whose members are named by a stem and their keys; `make` declares the member of a
name. -/
def namedFamily {m : Type → Type} {ε κ δ α : Type} [Monad m] [MonadStateOf (Builder K L) m]
    [MonadExceptOf ε m] [Interruptible ε] [Key κ] (dimensions : m (List (List κ)))
    (refuse : m (TensorError κ → ε)) (write : κ → m String) (stem : Option (m String))
    (make : String → m α) : m (Tensor κ δ α) :=
  family (K := K) (L := L) (ε := ε) dimensions refuse (memberName write stem) make

section Variables

variable {κ : Type}

/-- The name of a member; `text` writes a key, and a stem that is left out is `x`. -/
def memberText (text : κ → String) (stem : Option String) (keys : List κ) : String :=
  familyName (stem.getD "x") (keys.map text)

/-- Declares a member of a family under a name that is given as a text. -/
def declareMember [Scalar K] (kind : VariableKind) (lower upper : Option K) (name : String) :
    ExceptT (FamilyError K κ) (StateM (Builder K L)) (Variable K) := do
  let declared ← declareFor (ExceptT.adapt .member) (some read) pure make
  return declared.2
where
  /-- The name that is meant. -/
  read : ExceptT (FamilyError K κ) (StateM (Builder K L)) VariableName :=
    match VariableName.ofText? name with
    | some name => pure name
    | none => throw .emptyName
  /-- The variable of a name. -/
  make (name : VariableName) : ExceptT (FamilyError K κ) (StateM (Builder K L)) (Variable K) :=
    match Variable.declare name kind lower upper with
    | .ok v => pure v
    | .error e => throw (.member (.bounds e))

/-- A family of variables of one kind with the same bounds. -/
def variableFamily [Scalar K] [Key κ] {δ : Type} (text : κ → String) (dimensions : List (List κ))
    (stem : Option String) (kind : VariableKind) (lower upper : Option K) :
    ExceptT (FamilyError K κ) (StateM (Builder K L)) (Tensor κ δ (Variable K)) :=
  namedFamily (K := K) (L := L) (ε := FamilyError K κ) (pure dimensions) (pure .keys)
    (fun k => pure (text k)) (stem.map pure) (declareMember kind lower upper)

end Variables

end Builder
end LinModel
