import Wiring.ClassTable.Subtyping
import Wiring.TypeSystem.Closure
/-!
# A class table as a type system
-/

namespace Wiring.ClassTable

/-- The type system of a class table. A subtype question that `fuel` does not settle is answered
no. -/
def system (s : ClassTable) (fuel : Nat) : TypeSystem where
  top := ClassId.object.ty
  boxed p := p.box.ty
  bound? := s.bound?
  isGeneric := s.isGeneric
  sameType := Ty.sameType
  isSubtype sub sup := (s.subtype? fuel sub sup).getD false
  isAssignable payload receiver := (s.assignable? fuel payload receiver).getD false
  erasure := s.erasure
  supertypes := s.supertypes
  nameOf := s.nameOf

/-- Steps enough for any question that is settled in a lifetime. -/
def ampleFuel : Nat := Nat.pow 2 40

end Wiring.ClassTable
