import Wiring.Primitive
/-!
# Types

A type is data: what it means (its supertypes, its bounds) is answered by a `TypeSystem`.
A declared type without arguments is either non-generic or the *raw* use of a generic class.
Types nest in lists and options, so equality and induction are written out here:
`Ty.induct` is the induction principle with one hypothesis per nested list.
-/

namespace Wiring

/-- Number of a class declaration. -/
structure ClassId where
  raw : UInt32
deriving DecidableEq, Repr, Inhabited

/-- Number of a type-variable declaration. -/
structure TypeVarId where
  raw : UInt32
deriving DecidableEq, Repr, Inhabited

/-- A type. A wildcard with both bounds is malformed, but can be written down, so that the
rules can reject it. -/
inductive Ty where
  | primitive (p : Primitive)
  | array (component : Ty)
  | declared (head : ClassId) (args : List Ty)
  | var (id : TypeVarId)
  | wildcard (upper lower : Option Ty)
  | intersection (parts : List Ty)
deriving Inhabited

/-- The constructor a type is built with. -/
inductive TyKind where
  | primitive
  | array
  | declared
  | typeVariable
  | wildcard
  | intersection
deriving DecidableEq, Repr

def TyKind.text : TyKind → String
  | .primitive => "primitive"
  | .array => "array"
  | .declared => "declared"
  | .typeVariable => "type variable"
  | .wildcard => "wildcard"
  | .intersection => "intersection"

namespace Ty

/-- Induction over types, with one hypothesis for all members of a nested list. -/
@[induction_eliminator]
theorem induct {motive : Ty → Prop}
    (primitive : ∀ p, motive (.primitive p))
    (array : ∀ t, motive t → motive (.array t))
    (declared : ∀ c args, (∀ t ∈ args, motive t) → motive (.declared c args))
    (var : ∀ v, motive (.var v))
    (wildcard : ∀ upper lower, (∀ t ∈ upper, motive t) → (∀ t ∈ lower, motive t) →
      motive (.wildcard upper lower))
    (intersection : ∀ parts, (∀ t ∈ parts, motive t) → motive (.intersection parts)) :
    ∀ t, motive t := by
  intro t
  refine Ty.rec (motive_1 := motive) (motive_2 := fun ts => ∀ t ∈ ts, motive t)
    (motive_3 := fun o => ∀ t ∈ o, motive t) primitive array declared var wildcard intersection
    ?_ ?_ ?_ ?_ t
  · intro _ h
    cases h
  · intro t ts ht hts u hu
    cases hu with
    | head => exact ht
    | tail _ h => exact hts u h
  · intro _ h
    cases h
  · intro t ht u hu
    cases hu
    exact ht

/-! ## Equality -/

mutual

/-- Structural equality. -/
def beq : Ty → Ty → Bool
  | .primitive p, .primitive q => p == q
  | .array t, .array u => beq t u
  | .declared c ts, .declared d us => c == d && beqList ts us
  | .var v, .var w => v == w
  | .wildcard u l, .wildcard u' l' => beqOption u u' && beqOption l l'
  | .intersection ts, .intersection us => beqList ts us
  | _, _ => false

def beqList : List Ty → List Ty → Bool
  | [], [] => true
  | t :: ts, u :: us => beq t u && beqList ts us
  | _, _ => false

def beqOption : Option Ty → Option Ty → Bool
  | none, none => true
  | some t, some u => beq t u
  | _, _ => false

end

private theorem beqList_iff {ts : List Ty} (h : ∀ t ∈ ts, ∀ u, beq t u = true ↔ t = u)
    (us : List Ty) : beqList ts us = true ↔ ts = us := by
  induction ts generalizing us with
  | nil => cases us <;> simp [beqList]
  | cons t ts ih =>
    cases us with
    | nil => simp [beqList]
    | cons u us =>
      simp only [beqList, Bool.and_eq_true, List.cons.injEq]
      rw [h t (by simp), ih fun x hx => h x (by simp [hx])]

private theorem beqOption_iff {o : Option Ty} (h : ∀ t ∈ o, ∀ u, beq t u = true ↔ t = u)
    (o' : Option Ty) : beqOption o o' = true ↔ o = o' := by
  cases o with
  | none => cases o' <;> simp [beqOption]
  | some t =>
    cases o' with
    | none => simp [beqOption]
    | some u => simpa [beqOption] using h t rfl u

theorem beq_iff_eq (t u : Ty) : beq t u = true ↔ t = u := by
  induction t generalizing u with
  | primitive p => cases u <;> simp [beq]
  | array t ih => cases u <;> simp [beq, ih]
  | declared c ts ih => cases u <;> simp [beq, beqList_iff ih]
  | var v => cases u <;> simp [beq]
  | wildcard a b iha ihb => cases u <;> simp [beq, beqOption_iff iha, beqOption_iff ihb]
  | intersection ts ih => cases u <;> simp [beq, beqList_iff ih]

instance : DecidableEq Ty := fun t u => decidable_of_iff (beq t u = true) (beq_iff_eq t u)

/-! ## Shape -/

def kind : Ty → TyKind
  | .primitive _ => .primitive
  | .array _ => .array
  | .declared .. => .declared
  | .var _ => .typeVariable
  | .wildcard .. => .wildcard
  | .intersection _ => .intersection

/-- Primitive, array or declared: a type that is its own only bound. -/
def isConcrete : Ty → Bool
  | .primitive _ | .array _ | .declared .. => true
  | .var _ | .wildcard .. | .intersection _ => false

def isReference : Ty → Bool
  | .primitive _ => false
  | _ => true

def isWildcard : Ty → Bool
  | .wildcard .. => true
  | _ => false

/-- The arguments of a declared type; no other type has any. -/
def args : Ty → List Ty
  | .declared _ args => args
  | _ => []

def isParameterized (t : Ty) : Bool := !t.args.isEmpty

/-- The class of a declared type. -/
def head? : Ty → Option ClassId
  | .declared c _ => some c
  | _ => none

/-- The type below every array layer. -/
def element : Ty → Ty
  | .array t => t.element
  | t => t

/-- `t` under `n` array layers. -/
def arrayOf (t : Ty) : Nat → Ty
  | 0 => t
  | n + 1 => .array (t.arrayOf n)

@[simp] theorem element_array (t : Ty) : (Ty.array t).element = t.element := rfl

theorem isConcrete_iff_kind (t : Ty) :
    t.isConcrete = true ↔ t.kind = .primitive ∨ t.kind = .array ∨ t.kind = .declared := by
  cases t <;> simp [isConcrete, kind]

end Ty

end Wiring
