import Wiring.TypeSystem.Assignable
import Wiring.TypeSystem.Relations
/-!
# Matching an offered type against a required one

`Policy.accepts` decides whether an offered type (the payload) answers a required type (the
receiver). Both must be concrete; variables and wildcards occur only as type arguments, and an
offered type carries no wildcard at any depth. Declared types match through their arguments:
the raw forms must agree, and each pair of arguments is compared by the rules of
`Policy.argumentAccepts`.
-/

namespace Wiring

/-- Which rules decide whether an offered type answers a required one. -/
inductive Policy where
  /-- A required type is answered by a component that offers a type. -/
  | injection
  /-- An observed type is answered by a fired event. Primitives and their boxes stay apart, and
  variables may stand in the observed type but not in the event's. -/
  | event
deriving DecidableEq, Repr, Inhabited

def requireConcrete (role : Role) (t : Ty) : Except TypeError Unit :=
  if t.isConcrete then .ok () else .error (.illegalKind role t.kind)

namespace Ty

mutual

/-- The arguments of an offered type, at any depth, are neither wildcards nor intersections. -/
def checkOfferedArgs : Ty → Except TypeError Unit
  | .array t => t.checkOfferedArgs
  | .declared _ ts => checkOfferedArgList ts
  | _ => .ok ()

def checkOfferedArgList : List Ty → Except TypeError Unit
  | [] => .ok ()
  | t :: ts => do
    match t with
    | .wildcard .. => throw .wildcardPayloadArgument
    | .intersection _ => throw (.illegalKind .payload .intersection)
    | _ => t.checkOfferedArgs
    checkOfferedArgList ts

end

/-- The type may be offered. -/
def checkOffered (t : Ty) : Except TypeError Unit := do
  requireConcrete .payload t
  t.checkOfferedArgs

end Ty

namespace Policy

/-- `t` is the box of the primitive, where the policy lets boxes stand for primitives. -/
def isBoxOf (policy : Policy) (sys : TypeSystem) (t : Ty) (p : Primitive) : Bool :=
  policy == .injection && sys.identical (sys.boxed p) t

/-- A wildcard argument accepts what lies between its bounds. Against a variable the upper bound
may be related to the variable's bounds in either direction. -/
def wildcardAccepts (sys : TypeSystem) (upper lower : Option Ty) (payload : Ty) :
    Except TypeError Bool :=
  match upper, lower with
  | some _, some _ => .error .malformedWildcard
  | none, none => .ok true
  | none, some lower => sys.boundsAssignable [payload] [lower]
  | some upper, none => do
    if ← sys.boundsAssignable [upper] [payload] then return true
    match payload with
    | .var _ => sys.boundsAssignable [payload] [upper]
    | _ => return false

/-- A type argument accepts another. `asTypes` is the answer for the two as types of their own,
which counts when one of them has a raw form. -/
def argumentAccepts (policy : Policy) (sys : TypeSystem) (receiver payload : Ty)
    (asTypes : Unit → Except TypeError Bool) : Except TypeError Bool :=
  match receiver, payload with
  | .wildcard upper lower, _ => wildcardAccepts sys upper lower payload
  | .intersection _, _ => .error (.illegalKind .receiver .intersection)
  | .var _, .var _ => sys.boundsAssignable [receiver] [payload]
  | .var _, _ =>
    match policy with
    | .injection => .ok false
    | .event => sys.boundsAssignable [receiver] [payload]
  | _, .var _ =>
    match policy with
    | .injection => sys.boundsAssignable [payload] [receiver]
    | .event => .ok false
  | _, _ =>
    if sys.sameRawForm receiver payload then
      if receiver.yieldsRaw || payload.yieldsRaw then asTypes () else .ok true
    else .ok false

mutual

/-- The offered type `payload` answers the required type `receiver`. -/
def accepts (policy : Policy) (sys : TypeSystem) (receiver payload : Ty) :
    Except TypeError Bool := do
  requireConcrete .receiver receiver
  requireConcrete .payload payload
  if receiver == payload then return true
  payload.checkOfferedArgs
  match receiver, payload with
  | .primitive p, .declared .. => return policy.isBoxOf sys payload p
  | .declared .., .primitive p => return policy.isBoxOf sys receiver p
  | .array _, .array _ => return sys.identical receiver.element payload.element
  | .declared _ rs, .declared _ ps =>
    if sys.identical receiver payload then return true
    if !sys.sameRawForm receiver payload then return false
    match rs, ps with
    | [], [] => return false
    | [], ps => ps.allM sys.isUnboundedOrTop
    | rs, [] => rs.allM sys.isUnboundedOrTop
    | rs, ps => if rs.length = ps.length then policy.argumentsAccept sys rs ps else return false
  | _, _ => return false

/-- Each argument accepts the one in the same place. -/
def argumentsAccept (policy : Policy) (sys : TypeSystem) :
    List Ty → List Ty → Except TypeError Bool
  | r :: rs, p :: ps => do
    if ← policy.argumentAccepts sys r p fun _ => policy.accepts sys r p then
      policy.argumentsAccept sys rs ps
    else
      return false
  | _, _ => .ok true

end

end Policy

end Wiring
