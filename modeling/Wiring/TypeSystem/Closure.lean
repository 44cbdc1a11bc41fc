import Wiring.TypeSystem.Basic
/-!
# The closure of a type

A type followed by all its supertypes, breadth first and without repetition. Declarations may
let supertypes grow without end, so the walk counts its steps and gives no answer when they run
out.
-/

namespace Wiring.TypeSystem

/-- The breadth-first walk: `queue` is still to be visited and `seen` was, in this order. -/
def closureWalk (sys : TypeSystem) : Nat → (queue seen : List Ty) → Option (List Ty)
  | _, [], seen => some seen
  | 0, _ :: _, _ => none
  | fuel + 1, t :: queue, seen =>
    if seen.contains t then sys.closureWalk fuel queue seen
    else sys.closureWalk fuel (queue ++ sys.supertypes t) (seen ++ [t])

/-- The closure of `t`, if the walk ends within `fuel` steps. -/
def closure? (sys : TypeSystem) (fuel : Nat) (t : Ty) : Option (List Ty) :=
  sys.closureWalk fuel [t] []

end Wiring.TypeSystem
