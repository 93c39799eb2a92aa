import LinModel.Solving.Optimize
import LinModel.Solving.Printing
import LinModel.Session.Run
import LinModel.Proofs.Extended
import LinModel.Proofs.Results
import LinModel.Proofs.Expression.Sound
import LinModel.Proofs.Expression.Value
import LinModel.Proofs.Expression.Formula
import LinModel.Proofs.Builder.Reachable
import LinModel.Proofs.Compiling.Normal
import LinModel.Proofs.Compiling.Meaning
import LinModel.Proofs.Dense.Parts
import LinModel.Proofs.Compiling.Lowerable
import LinModel.Proofs.Dense
import LinModel.Proofs.Solving.Violations
import LinModel.Proofs.Dense.Functions
import LinModel.Proofs.Solving.Verification
import LinModel.Proofs.Solving.Program
import LinModel.Proofs.Compiling.Names
import LinModel.Proofs.Solving.Outcome
import LinModel.Proofs.Solving.Reports
import LinModel.Proofs.Tensor.Keys
import LinModel.Proofs.Tensor.Reachable
import LinModel.Proofs.Tensor.Reading
import LinModel.Proofs.Tensor.Composition
import LinModel.Proofs.Tensor.Storage
import LinModel.Proofs.Tensor.FiniteMap
import LinModel.Proofs.Builder.Families
import LinModel.Proofs.Builder.Reformulations
import LinModel.Proofs.Solving.Listing
import LinModel.Proofs.Solving.Duals
import LinModel.Proofs.Expression.Evaluators
import LinModel.Proofs.Solving.Printing
import LinModel.Proofs.Solving.Assignments
import LinModel.Proofs.Solving.ObjectiveValue
import LinModel.Proofs.Builder.Minimax
import LinModel.Proofs.Builder.Absolute
import LinModel.Proofs.Builder.Histories
import LinModel.Proofs.Builder.Registries
import LinModel.Proofs.Builder.Blocks
import LinModel.Proofs.Builder.Declarations
import LinModel.Proofs.Builder.AutomaticNames
import LinModel.Proofs.Tensor.Filling
import LinModel.Proofs.Builder.VariableFamilies
import LinModel.Proofs.Doubles
import LinModel.Proofs.Expression.GeneralForm
import LinModel.Proofs.Expression.WellFormed
import LinModel.Proofs.Tensor.Selection
import LinModel.Proofs.Tensor.Provision
import LinModel.Proofs.Tensor.Dimensions
import LinModel.Proofs.Tensor.Nesting
import LinModel.Proofs.Tensor.Indexing
import LinModel.Proofs.Builder.FamilyNames
import LinModel.Proofs.Number.Parts
import LinModel.Proofs.Number.Nearest
import LinModel.Proofs.Expression.RealOperands
import LinModel.Proofs.Number.Shortest
import LinModel.Proofs.Number.Layout
import LinModel.Proofs.Expression.Text
