import Wiring.TypeSystem.Bounds
/-!
# Relations between types

The vocabulary of the matching rules: identity, the top type, unbounded variables and raw forms.
The raw form of a type drops the arguments of a parameterized declared type, below any number of
array layers.
-/

namespace Wiring.TypeSystem

/-- The same type, by structure or by the type system's own relation. Structure comes first
because the relation may refuse wildcards. -/
def identical (sys : TypeSystem) (t u : Ty) : Bool := t == u || sys.sameType t u

def isTop (sys : TypeSystem) (t : Ty) : Bool := sys.identical t sys.top

/-- A variable whose only concrete bound is the top type. -/
def isUnboundedVar (sys : TypeSystem) (t : Ty) : Except TypeError Bool :=
  match t with
  | .var _ => do
    match ← sys.concreteBounds t with
    | [bound] => return sys.isTop bound
    | _ => return false
  | _ => .ok false

def isUnboundedOrTop (sys : TypeSystem) (t : Ty) : Except TypeError Bool :=
  if sys.isTop t then .ok true else sys.isUnboundedVar t

/-- The raw form, where a type has one. -/
def rawForm? (sys : TypeSystem) : Ty → Option Ty
  | .array t => (sys.rawForm? t).map sys.arrayOf
  | t => if t.isParameterized then some (sys.erasure t) else none

/-- The raw form, or the type itself. -/
def rawOrSelf (sys : TypeSystem) (t : Ty) : Ty := (sys.rawForm? t).getD t

/-- The types agree once type arguments are dropped. -/
def sameRawForm (sys : TypeSystem) (t u : Ty) : Bool :=
  sys.identical (sys.rawOrSelf t) (sys.rawOrSelf u)

end Wiring.TypeSystem

namespace Wiring.Ty

/-- The type has a raw form: below its array layers it is parameterized. -/
def yieldsRaw (t : Ty) : Bool := t.element.isParameterized

end Wiring.Ty
