/-!
# Primitive types

The eight primitive types and the widening order among them.
-/

namespace Wiring

/-- A primitive type. -/
inductive Primitive where
  | boolean
  | byte
  | short
  | char
  | int
  | long
  | float
  | double
deriving DecidableEq, Repr, Inhabited

namespace Primitive

/-- Every primitive, in declaration order. -/
def all : List Primitive :=
  [.boolean, .byte, .short, .char, .int, .long, .float, .double]

def keyword : Primitive → String
  | .boolean => "boolean"
  | .byte => "byte"
  | .short => "short"
  | .char => "char"
  | .int => "int"
  | .long => "long"
  | .float => "float"
  | .double => "double"

/-- The primitive with the given keyword. -/
def ofKeyword? (s : String) : Option Primitive :=
  all.find? (·.keyword == s)

/-- The strict part of `widensTo`: the wider primitives, nearest first. -/
def wider : Primitive → List Primitive
  | .byte => [.short, .int, .long, .float, .double]
  | .short | .char => [.int, .long, .float, .double]
  | .int => [.long, .float, .double]
  | .long => [.float, .double]
  | .float => [.double]
  | .boolean | .double => []

/-- A value of `p` may be used where a `q` is wanted, by identity or by widening. -/
def widensTo (p q : Primitive) : Bool :=
  p == q || p.wider.contains q

@[simp] theorem widensTo_self (p : Primitive) : p.widensTo p = true := by simp [widensTo]

theorem widensTo_trans {p q r : Primitive} (hpq : p.widensTo q) (hqr : q.widensTo r) :
    p.widensTo r := by
  revert hpq hqr; cases p <;> cases q <;> cases r <;> decide

end Primitive

end Wiring
