import Wiring.Annotations
import Wiring.Matching
/-!
# Requests

A request asks for a type, with qualifiers and interceptor bindings, under one of the two
policies. The policy says how to match and is no part of what is asked for (`sameDemand`).
-/

namespace Wiring

structure Request where
  policy : Policy
  required : Ty
  annotations : Annotations
  concrete : required.isConcrete
deriving DecidableEq

namespace Request

/-- The requests ask for the same, whatever their policies. -/
def sameDemand (r s : Request) : Bool :=
  r.required == s.required && r.annotations = s.annotations

def qualifiersMatch (r : Request) (carried : Annotations) : Bool :=
  carried.answersQualifiers r.annotations.qualifiers

def bindingsMatch (r : Request) (carried : Annotations) : Bool :=
  carried.answersBindings r.annotations.bindings

/-- Some offered type answers the required one. Every type is looked at, so a malformed one is
found wherever it stands. -/
def typesMatch (r : Request) (sys : TypeSystem) : List Ty → Except TypeError Bool
  | [] => .ok false
  | t :: ts => do
    let here ← r.policy.accepts sys r.required t
    let later ← r.typesMatch sys ts
    return here || later

/-- A candidate with these types and annotations answers the request. -/
def selects (r : Request) (sys : TypeSystem) (types : List Ty) (carried : Annotations) :
    Except TypeError Bool := do
  let typesMatch ← r.typesMatch sys types
  return r.qualifiersMatch carried && r.bindingsMatch carried && typesMatch

/-! ## Text -/

/-- The required type, as `nameOf` writes it, and the annotations if there are any. -/
def textWith (r : Request) (nameOf : Ty → String) : String :=
  if r.annotations.isEmpty then nameOf r.required
  else nameOf r.required ++ " " ++ r.annotations.text

def text (r : Request) : String := r.textWith Ty.text

end Request

end Wiring
