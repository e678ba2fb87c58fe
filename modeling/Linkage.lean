import Linkage.Main
import Linkage.Proofs.Completeness
import Linkage.Proofs.Entries
import Linkage.Proofs.Instantiation
import Linkage.Proofs.Narrowing
import Linkage.Proofs.Order
import Linkage.Proofs.Resolution
import Linkage.Proofs.Rules
import Linkage.Proofs.Soundness
import Linkage.Proofs.Step
import Linkage.Proofs.Substitution
import Linkage.Proofs.Subtyping
import Linkage.Proofs.Typing
import Linkage.Proofs.WellFormed
import Linkage.Scope.Forest
import Linkage.Type.Defect.Equations
import Linkage.Type.Mismatch.Equations
import Linkage.Validation.Listening
import Linkage.Proofs.Catalogue
import Linkage.Proofs.Growth
import Linkage.Proofs.Snapshot
import Linkage.Proofs.Context
import Linkage.Proofs.Preservation
import Linkage.Proofs.Lifecycle
import Linkage.Proofs.Judgement
import Linkage.Proofs.Safety
import Linkage.Proofs.Words
import Linkage.Proofs.Printing
import Linkage.Proofs.Hosting
import Linkage.Type.Checker
import Linkage.Proofs.Checking
import Linkage.Proofs.FirstMismatch
import Linkage.Proofs.Outcome
import Linkage.Proofs.Elaboration
import Linkage.Proofs.ForwardPass
import Linkage.Proofs.Nesting
import Linkage.Proofs.FailureSite
import Linkage.Proofs.Shapes
import Linkage.Proofs.Naming
import Linkage.Proofs.Logging
import Linkage.Proofs.Transcript
import Linkage.Proofs.Tupling
import Linkage.Proofs.Building
import Linkage.Proofs.Ledger
import Linkage.Proofs.Consistency
