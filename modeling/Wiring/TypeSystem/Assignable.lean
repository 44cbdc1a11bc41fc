import Wiring.TypeSystem.Bounds
/-!
# Assignability between lists of bounds

A list of offered bounds answers a list of required bounds when every required bound is covered
by some offered one. Both lists are unfolded to concrete bounds first; only arrays and declared
types may be left then.
-/

namespace Wiring.TypeSystem

/-- A bound that is neither an array nor a declared type is malformed. -/
def requireBound : Ty → Except TypeError Unit
  | .array _ | .declared .. => .ok ()
  | t => .error (.malformedBound t.kind)

/-- One offered bound covers one required bound. -/
def boundAssignable (sys : TypeSystem) (receiver payload : Ty) : Except TypeError Bool := do
  requireBound receiver
  requireBound payload
  return receiver == payload || sys.isAssignable payload receiver

/-- Every concrete bound of `receivers` is covered by a concrete bound of `payloads`. -/
def boundsAssignable (sys : TypeSystem) (receivers payloads : List Ty) :
    Except TypeError Bool := do
  let receivers ← sys.concreteBoundsList receivers
  let payloads ← sys.concreteBoundsList payloads
  receivers.allM fun receiver => payloads.anyM fun payload => sys.boundAssignable receiver payload

end Wiring.TypeSystem
