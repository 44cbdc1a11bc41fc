import Wiring.ClassTable.System
import Wiring.Matching
import Wiring.Annotations
import Wiring.Candidate.Draft
import Wiring.Reduction
import Wiring.Resolver.Session
import Wiring.Lifecycle.Closing
import Wiring.Settings.Files
import Wiring.Settings.Filter
import Wiring.Settings.Schema
import Wiring.Proofs.Resolver.Independence
import Wiring.Proofs.Matching.Closure
import Wiring.Proofs.Reduction.Ranking
import Wiring.Proofs.Matching.Faults
import Wiring.Proofs.Resolver.Faults
import Wiring.Proofs.Resolver.Accounts
import Wiring.Proofs.Memo.Course
import Wiring.Proofs.Lifecycle.Run
import Wiring.Proofs.Lifecycle.Tree
import Wiring.Proofs.Subtyping.Transitive
import Wiring.Proofs.Matching.Invariance
import Wiring.Proofs.Matching.Relaxation
import Wiring.Proofs.Matching.Instances
import Wiring.Proofs.Matching.Total
import Wiring.Proofs.Matching.Policies
import Wiring.Proofs.Hierarchy.Closures
import Wiring.Proofs.Hierarchy.Instantiation
import Wiring.Proofs.Subtyping.Climbing
import Wiring.Proofs.Subtyping.Unfolding
import Wiring.Proofs.Subtyping.Erasure
import Wiring.Proofs.Subtyping.Erased
import Wiring.Proofs.Pool.Qualifiers
import Wiring.Proofs.Candidate.Closure
import Wiring.Proofs.Pool.Order
import Wiring.Proofs.Annotations.Canonical
import Wiring.Proofs.Matching.Extension
import Wiring.Proofs.Ty.Text
import Wiring.Proofs.Annotations.Text
import Wiring.Proofs.Settings.Schema
import Wiring.Proofs.TypeSystem.Visits
import Wiring.Proofs.TypeSystem.Covering
