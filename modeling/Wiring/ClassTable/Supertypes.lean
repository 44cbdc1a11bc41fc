import Wiring.ClassTable.Base
import Wiring.Ty.Subst
import Wiring.Ty.VarPath
/-!
# Bounds, erasure and supertypes in a class table

Erasure drops type arguments and replaces what is not a class, array or primitive by its first
bound. The supertypes of a declared type are the declared ones with the arguments put in for the
parameters; a raw use of a generic class has erased supertypes instead.
-/

namespace Wiring

mutual

/-- The erasure of a type, given that of its variables. -/
def Ty.eraseWith (varErasure : TypeVarId → Ty) : Ty → Ty
  | .primitive p => .primitive p
  | .array t => .array (t.eraseWith varErasure)
  | .declared c _ => .declared c []
  | .var v => varErasure v
  | .wildcard none _ => ClassId.object.ty
  | .wildcard (some t) _ => t.eraseWith varErasure
  | .intersection ts => Ty.eraseFirst varErasure ts

/-- The erasure of the first of several bounds; the root class if there is none. -/
def Ty.eraseFirst (varErasure : TypeVarId → Ty) : List Ty → Ty
  | [] => ClassId.object.ty
  | t :: _ => t.eraseWith varErasure

end

namespace ClassTable

/-- The upper bound of a variable: several bounds as one intersection, none as the root. -/
def bound? (s : ClassTable) (v : TypeVarId) : Option Ty :=
  (s.typeVar? v).map fun d =>
    match d.bounds with
    | [] => ClassId.object.ty
    | [t] => t
    | ts => .intersection ts

/-- The erasure of a variable reached along `path`. An unknown variable counts as unbounded, and so
does one that is reached again while its bound is erased, where plain recursion would not end. -/
def varErasure (s : ClassTable) (path : VarPath) (v : TypeVarId) : Ty :=
  if h : v ∈ path.vars then
    ClassId.object.ty
  else
    match s.typeVar? v with
    | none => ClassId.object.ty
    | some d => Ty.eraseFirst (fun w => s.varErasure (path.push v h) w) d.bounds
termination_by path.room
decreasing_by exact path.room_push_lt v h

def erasure (s : ClassTable) (t : Ty) : Ty := t.eraseWith (s.varErasure .empty)

@[simp] theorem erasure_declared (s : ClassTable) (c : ClassId) (args : List Ty) :
    s.erasure (.declared c args) = .declared c [] := by
  simp [erasure, Ty.eraseWith]

@[simp] theorem erasure_array (s : ClassTable) (t : Ty) :
    s.erasure (.array t) = .array (s.erasure t) := by
  simp [erasure, Ty.eraseWith]

@[simp] theorem erasure_primitive (s : ClassTable) (p : Primitive) :
    s.erasure (.primitive p) = .primitive p := by
  simp [erasure, Ty.eraseWith]

/-- The supertypes of every array. -/
def arraySupertypes : List Ty :=
  [ClassId.object.ty, ClassId.cloneable.ty, ClassId.serializable.ty]

/-- The supertypes of a declared type: its superclass and interfaces in declaration order, and
for an interface the root class as well. -/
def declaredSupertypes (s : ClassTable) (d : ClassDecl) (args : List Ty) : List Ty :=
  let instantiate :=
    if args.isEmpty && !d.params.isEmpty then s.erasure else Ty.subst (Ty.ofParams d.params args)
  let supers := (d.superclass.toList ++ d.interfaces).map instantiate
  if d.kind = .interfaceKind ∧ ClassId.object.ty ∉ supers then
    supers ++ [ClassId.object.ty]
  else supers

/-- The direct supertypes of a type. -/
def supertypes (s : ClassTable) : Ty → List Ty
  | .declared c args =>
    match s.class? c with
    | none => []
    | some d => s.declaredSupertypes d args
  | .array _ => arraySupertypes
  | .var v =>
    match s.typeVar? v with
    | some ⟨_, t :: ts⟩ => t :: ts
    | _ => [ClassId.object.ty]
  | .intersection ts => ts
  | .primitive _ | .wildcard .. => []

end ClassTable

end Wiring
