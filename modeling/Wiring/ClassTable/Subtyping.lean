import Wiring.ClassTable.Supertypes
/-!
# Subtyping in a class table

Subtyping of declared types climbs from one class to the other (`view?`) and compares arguments
by containment. Declarations can make either walk endless, so both count their steps:
`subtype?` gives no answer when `fuel` runs out, and more fuel never changes an answer.
-/

namespace Wiring

/-- Sameness is equality, except that a wildcard is not the same type as anything. -/
def Ty.sameType (t u : Ty) : Bool := !t.isWildcard && !u.isWildcard && t == u

namespace ClassTable

/-- The breadth-first climb to the class `target`: `queue` is still to be visited and `seen` was.
The inner answer is `none` when `target` is not reached. -/
def viewWalk (s : ClassTable) (target : ClassId) :
    Nat → (queue seen : List Ty) → Option (Option (List Ty))
  | _, [], _ => some none
  | 0, _ :: _, _ => none
  | fuel + 1, t :: queue, seen =>
    if seen.contains t then s.viewWalk target fuel queue seen
    else
      match t with
      | .declared c args =>
        if c = target then some (some args)
        else s.viewWalk target fuel (queue ++ s.supertypes t) (seen ++ [t])
      | _ => s.viewWalk target fuel queue (seen ++ [t])

/-- The arguments with which the class `target` is a supertype of `c` applied to `args`. Raw uses
stay raw on the way up. -/
def view? (s : ClassTable) (fuel : Nat) (c : ClassId) (args : List Ty) (target : ClassId) :
    Option (Option (List Ty)) :=
  s.viewWalk target fuel [.declared c args] []

/-- Containment of type arguments, given the answers to subtype questions. -/
def contains? (ask : (sub sup : Ty) → Option Bool) (container arg : Ty) : Option Bool :=
  match container, arg with
  | .wildcard none none, _ => some true
  | .wildcard (some upper) none, .wildcard (some upper') _ => ask upper' upper
  | .wildcard (some upper) none, .wildcard none _ => some (upper == ClassId.object.ty)
  | .wildcard (some upper) none, arg => ask arg upper
  | .wildcard none (some lower), .wildcard _ (some lower') => ask lower lower'
  | .wildcard none (some _), .wildcard _ none => some false
  | .wildcard none (some lower), arg => ask lower arg
  | .wildcard (some _) (some _), _ => some false
  | container, arg => some (container.sameType arg)

/-- Subtyping of array components: primitives must be equal. -/
def componentSubtype? (ask : (sub sup : Ty) → Option Bool) : (sub sup : Ty) → Option Bool
  | .primitive p, .primitive q => some (p == q)
  | .primitive _, _ => some false
  | _, .primitive _ => some false
  | t, u => ask t u

/-- Subtyping of declared types, once the climb to the target class has an answer. A raw view
does not have the arguments of a parameterized target. -/
def viewSubtype? (ask : (sub sup : Ty) → Option Bool) (view : Option (List Ty))
    (targetArgs : List Ty) : Option Bool :=
  match view with
  | none => some false
  | some args =>
    if targetArgs.isEmpty then some true
    else if args.length ≠ targetArgs.length then some false
    else (targetArgs.zip args).allM fun pair => contains? ask pair.1 pair.2

/-- One step of subtyping: `ask` answers the questions about smaller pairs and `view` climbs. -/
def subtypeStep (s : ClassTable) (ask : (sub sup : Ty) → Option Bool)
    (view : ClassId → List Ty → ClassId → Option (Option (List Ty))) (sub sup : Ty) :
    Option Bool :=
  if sub == sup then some true
  else
    match sub, sup with
    | .wildcard .., _ => some false
    | _, .wildcard .. => some false
    | .primitive p, .primitive q => some (p.widensTo q)
    | .primitive _, _ => some false
    | _, .primitive _ => some false
    | _, .intersection parts => parts.allM fun part => ask sub part
    | .intersection parts, _ => parts.anyM fun part => ask part sup
    | .var v, _ =>
      match s.bound? v with
      | none => some false
      | some bound => ask bound sup
    | _, .var _ => some false
    | .array t, .array u => componentSubtype? ask t u
    | .array _, .declared d args =>
      some (args.isEmpty && [ClassId.object, ClassId.cloneable, ClassId.serializable].contains d)
    | .declared .., .array _ => some false
    | .declared c args, .declared d targetArgs =>
      if d = .object ∧ targetArgs = [] then some true
      else do viewSubtype? ask (← view c args d) targetArgs

/-- `sub` is a subtype of `sup`, as far as `fuel` lets the question be followed. -/
def subtype? (s : ClassTable) : Nat → (sub sup : Ty) → Option Bool
  | 0, _, _ => none
  | fuel + 1, sub, sup => s.subtypeStep (s.subtype? fuel) (s.view? fuel) sub sup

/-- Assignability adds boxing, unboxing and the unchecked use of a raw type. -/
def assignable? (s : ClassTable) (fuel : Nat) (payload receiver : Ty) : Option Bool := do
  if ← s.subtype? fuel payload receiver then return true
  match payload, receiver with
  | .primitive _, .primitive _ => return false
  | .primitive p, _ => s.subtype? fuel p.box.ty receiver
  | .declared c _, .primitive q => return c.unboxed?.any (·.widensTo q)
  | .declared c args, .declared d (_ :: _) => return (← s.view? fuel c args d).any (·.isEmpty)
  | _, _ => return false

end ClassTable

end Wiring
