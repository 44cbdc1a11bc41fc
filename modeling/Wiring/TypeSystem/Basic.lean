import Wiring.TypeError
/-!
# Type systems

The questions about types whose answers depend on declarations. The rules of this library ask
them through a `TypeSystem` and never look at a declaration themselves; a class table is one way
to answer them.
-/

namespace Wiring

/-- Answers to the questions about the meaning of types. -/
structure TypeSystem where
  /-- The supertype of every reference type. -/
  top : Ty
  /-- The class that wraps a primitive. -/
  boxed : Primitive → Ty
  /-- The upper bound of a variable: several bounds as one intersection, none as `top`.
  An unknown variable has no answer. -/
  bound? : TypeVarId → Option Ty
  /-- The class declares type parameters. -/
  isGeneric : ClassId → Bool
  sameType : Ty → Ty → Bool
  isSubtype : (sub sup : Ty) → Bool
  /-- A value of the first type may be assigned to a variable of the second. -/
  isAssignable : (payload receiver : Ty) → Bool
  erasure : Ty → Ty
  /-- The direct supertypes, in declaration order. -/
  supertypes : Ty → List Ty
  arrayOf : Ty → Ty := Ty.array
  /-- The text of a type in messages. -/
  nameOf : Ty → String := Ty.text

end Wiring
