import Wiring.TypeSystem.Basic
import Wiring.Ty.VarPath
/-!
# Concrete bounds

The concrete bounds of a type are the arrays, declared types and primitives that bound it:
variables, intersections and wildcards are unfolded, in order and with repetitions. A concrete
type is its own only bound. Unfolding ends at a variable that is reached a second time, with
the error `cyclicBound`, where plain recursion would not end.
-/

namespace Wiring

namespace Ty

mutual

/-- The concrete bounds of a type, given those of its variables. -/
def boundsWith (top : Ty) (varBounds : TypeVarId → Except TypeError (List Ty)) :
    Ty → Except TypeError (List Ty)
  | .primitive p => .ok [.primitive p]
  | .array t => .ok [.array t]
  | .declared c ts => .ok [.declared c ts]
  | .var v => varBounds v
  | .intersection ts => boundsWithList top varBounds ts
  | .wildcard none none => .ok [top]
  | .wildcard (some t) none => boundsWith top varBounds t
  | .wildcard none (some t) => boundsWith top varBounds t
  | .wildcard (some _) (some _) => .error .malformedWildcard

/-- The concrete bounds of all members of a list, or the error of the first that has one. -/
def boundsWithList (top : Ty) (varBounds : TypeVarId → Except TypeError (List Ty)) :
    List Ty → Except TypeError (List Ty)
  | [] => .ok []
  | t :: ts => do
    let bounds ← boundsWith top varBounds t
    let rest ← boundsWithList top varBounds ts
    return bounds ++ rest

end

theorem boundsWith_of_isConcrete {t : Ty} (h : t.isConcrete) (top : Ty)
    (varBounds : TypeVarId → Except TypeError (List Ty)) :
    boundsWith top varBounds t = .ok [t] := by
  cases t <;> simp_all [isConcrete, boundsWith]

end Ty

namespace TypeSystem

/-- The concrete bounds of a variable reached along `path`. -/
def varBounds (sys : TypeSystem) (path : VarPath) (v : TypeVarId) : Except TypeError (List Ty) :=
  if h : v ∈ path.vars then
    .error (.cyclicBound v)
  else
    match sys.bound? v with
    | none => .error (.unknownTypeVariable v)
    | some bound => Ty.boundsWith sys.top (fun w => sys.varBounds (path.push v h) w) bound
termination_by path.room
decreasing_by exact path.room_push_lt v h

/-- The concrete bounds of a type. -/
def concreteBounds (sys : TypeSystem) (t : Ty) : Except TypeError (List Ty) :=
  Ty.boundsWith sys.top (sys.varBounds .empty) t

/-- The concrete bounds of a type that may be absent: an absent type has none. -/
def concreteBounds? (sys : TypeSystem) : Option Ty → Except TypeError (List Ty)
  | none => .ok []
  | some t => sys.concreteBounds t

/-- The concrete bounds of all types of a list, joined. A list of concrete types needs no
unfolding. -/
def concreteBoundsList (sys : TypeSystem) (ts : List Ty) : Except TypeError (List Ty) :=
  if ts.all Ty.isConcrete then .ok ts else Ty.boundsWithList sys.top (sys.varBounds .empty) ts

theorem concreteBounds_of_isConcrete (sys : TypeSystem) {t : Ty} (h : t.isConcrete) :
    sys.concreteBounds t = .ok [t] :=
  Ty.boundsWith_of_isConcrete h _ _

end TypeSystem

end Wiring
