import StructuralTypes.Algebra.Question
import StructuralTypes.Binding.Session
import StructuralTypes.Document.Settings
import StructuralTypes.Document.Ty
import StructuralTypes.Json.Reader
import StructuralTypes.Json.Writer
import StructuralTypes.Proofs.LowerBound
import StructuralTypes.Proofs.Soundness
import StructuralTypes.Proofs.Transparency
import StructuralTypes.Ty.Inhabits
import StructuralTypes.Ty.WellFormed
import StructuralTypes.Proofs.Depth
import StructuralTypes.Proofs.Calls
import StructuralTypes.Proofs.Parts
import StructuralTypes.Proofs.Matching
import StructuralTypes.Proofs.Width
import StructuralTypes.Proofs.Balance
import StructuralTypes.Proofs.Branchwise
import StructuralTypes.Proofs.Widening
import StructuralTypes.Proofs.RoundTrip
import StructuralTypes.Proofs.ValueEquality
import StructuralTypes.Proofs.Commutation
import StructuralTypes.Proofs.Histories
import StructuralTypes.Proofs.Operands
import StructuralTypes.Proofs.Solid
import StructuralTypes.Proofs.Samples
import StructuralTypes.Proofs.Reduction
import StructuralTypes.Proofs.Flattening
import StructuralTypes.Proofs.Variance
import StructuralTypes.Proofs.NormalForm
import StructuralTypes.Proofs.CutReduction
import StructuralTypes.Proofs.Emptiness
import StructuralTypes.Proofs.Traversal
import StructuralTypes.Proofs.Repetition
import StructuralTypes.Proofs.Legibility
import StructuralTypes.Proofs.Hashing
import StructuralTypes.Proofs.Ledger
import StructuralTypes.Proofs.Accounting
import StructuralTypes.Proofs.Collapsing
