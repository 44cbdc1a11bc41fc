import Wiring.Annotations
import Wiring.Matching
/-!
# Candidates

A candidate offers types and carries annotations. It is known by its id: two candidates with one
id count as the same. An alternate takes precedence over all candidates that are none, and
ranks order alternates among each other.
-/

namespace Wiring

structure Candidate where
  id : String
  /-- The offered types, in declaration order. -/
  types : List Ty
  annotations : Annotations
  alternate : Bool
  rank : Int
  offersSome : types ≠ []
  distinct : types.Nodup
  legal : ∀ t ∈ types, t.checkOffered = .ok ()

namespace Candidate

def text (c : Candidate) : String :=
  if c.alternate then c.id ++ " (alternate, rank " ++ toString c.rank ++ ")" else c.id

end Candidate

end Wiring
