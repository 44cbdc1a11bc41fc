import Wiring.Annotation.Basic
/-!
# Qualifiers and interceptor bindings

What a request asks for, and what a candidate carries, beside a type: a set of qualifiers and a
set of interceptor bindings, each with a rule of its own for when the carried set answers the
requested one.
-/

namespace Wiring

structure Annotations where
  qualifiers : SortedSet Annotation
  bindings : SortedSet Annotation
deriving DecidableEq, Inhabited

namespace Annotations

def empty : Annotations := ⟨∅, ∅⟩

instance : EmptyCollection Annotations := ⟨empty⟩

def isEmpty (as : Annotations) : Bool := as.qualifiers.isEmpty && as.bindings.isEmpty

def addQualifier (as : Annotations) (a : Annotation) : Annotations :=
  { as with qualifiers := as.qualifiers.insert a }

def addBinding (as : Annotations) (a : Annotation) : Annotations :=
  { as with bindings := as.bindings.insert a }

/-- The carried qualifiers answer the required ones. A request without qualifiers asks for the
default one, a candidate without qualifiers carries the two implied ones, and otherwise every
required qualifier must be carried. -/
def answersQualifiers (carried : Annotations) (required : SortedSet Annotation) : Bool :=
  let carried := carried.qualifiers
  if required.isEmpty then carried.isEmpty || carried.toList.any Annotation.isDefault
  else if carried.isEmpty then required.toList.all fun a => a.isAny || a.isDefault
  else required.isSubset carried

/-- The carried bindings answer the required ones: they are the same, or the only one carried
answers everything. -/
def answersBindings (carried : Annotations) (required : SortedSet Annotation) : Bool :=
  let carried := carried.bindings
  if carried.isEmpty then required.isEmpty
  else if carried.size = 1 ∧ carried.toList.all Annotation.isAnyBinding then true
  else carried = required

/-- The qualifiers, then the bindings, with blanks between. -/
def text (as : Annotations) : String :=
  " ".intercalate ((as.qualifiers.toList ++ as.bindings.toList).map Annotation.text)

end Annotations

end Wiring
