import Wiring.Annotation.Value
import Wiring.Sorted.Map
import Wiring.Sorted.Set
/-!
# Annotations

An annotation is a name with named members. Members are kept in the order of their names, and a
member written again has the last value, so two annotations are equal when their names and
members are. Annotations are ordered by name, then by members.
-/

namespace Wiring

structure Annotation where
  name : String
  members : SortedMap String Annotation.Value
deriving DecidableEq, Inhabited

namespace Annotation

/-- An annotation without members. -/
def ofName (name : String) : Annotation := ⟨name, ∅⟩

/-- The annotation with the member `key` written. -/
def withMember (a : Annotation) (key : String) (v : Value) : Annotation :=
  { a with members := a.members.insert key v }

def member? (a : Annotation) (key : String) : Option Value := a.members.get? key

/-! ## Annotations with a part in the rules -/

/-- The qualifier of every candidate. -/
def any : Annotation := ofName "jakarta.enterprise.inject.Any"

/-- The qualifier implied where none is declared. -/
def default : Annotation := ofName "jakarta.enterprise.inject.Default"

/-- The interceptor binding that answers every set of bindings. -/
def anyBinding : Annotation := ofName "keel.AnyBinding"

/-- The qualifier that holds a name. -/
def named (name : String) : Annotation :=
  (ofName "jakarta.inject.Named").withMember "value" (.str name)

/-- Only the name counts, whatever the members. -/
def isAny (a : Annotation) : Bool := a.name == any.name

def isDefault (a : Annotation) : Bool := a.name == default.name

def isAnyBinding (a : Annotation) : Bool := a.name == anyBinding.name

/-! ## Text -/

/-- What follows the last dot of a name. -/
def simpleName (name : String) : String :=
  String.ofList (name.toList.reverse.takeWhile (· != '.')).reverse

def memberText (m : String × Value) : String := m.1 ++ "=" ++ m.2.text

/-- An at sign, the simple name, and the members in parentheses if there are any. -/
def text (a : Annotation) : String :=
  if a.members.isEmpty then "@" ++ simpleName a.name
  else "@" ++ simpleName a.name ++ "(" ++
    ", ".intercalate (a.members.toList.map memberText) ++ ")"

/-! ## Order -/

/-- Entries are ordered by key, then by value. -/
def memberOrder : (String × Value) → (String × Value) → Ordering :=
  compareLex (compareOn Prod.fst) (compareOn Prod.snd)

instance : Std.TransCmp memberOrder := inferInstanceAs (Std.TransCmp (compareLex _ _))

instance : Std.LawfulEqCmp memberOrder where
  compare_self := (inferInstance : Std.ReflCmp (compareLex _ _)).compare_self
  eq_of_compare {p q} h := by
    obtain ⟨hk, hv⟩ := Ordering.then_eq_eq.1 h
    exact Prod.ext (Std.LawfulEqOrd.eq_of_compare hk) (Std.LawfulEqOrd.eq_of_compare hv)

/-- The order of the member lists alone. -/
def membersOrder (a b : Annotation) : Ordering :=
  List.compareLex memberOrder a.members.toList b.members.toList

instance : Std.TransCmp membersOrder where
  eq_swap := (inferInstance : Std.OrientedCmp (List.compareLex memberOrder)).eq_swap
  isLE_trans := (inferInstance : Std.TransCmp (List.compareLex memberOrder)).isLE_trans

instance : Ord Annotation := ⟨compareLex (compareOn name) membersOrder⟩

instance : Std.TransOrd Annotation :=
  inferInstanceAs (Std.TransCmp (compareLex (compareOn name) membersOrder))

instance : Std.LawfulEqOrd Annotation where
  compare_self :=
    (inferInstance : Std.ReflCmp (compareLex (compareOn name) membersOrder)).compare_self
  eq_of_compare {a b} h := by
    obtain ⟨hn, hm⟩ := Ordering.then_eq_eq.1 h
    obtain ⟨n, ⟨ms, _⟩⟩ := a
    obtain ⟨n', ⟨ms', _⟩⟩ := b
    cases Std.LawfulEqOrd.eq_of_compare hn
    cases (inferInstance : Std.LawfulEqCmp (List.compareLex memberOrder)).eq_of_compare hm
    rfl

end Annotation

end Wiring
