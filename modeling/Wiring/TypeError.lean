import Wiring.Ty.Text
/-!
# What can be wrong with a type

These are faults of the types handed in, never answers to a question about them.
-/

namespace Wiring

/-- The side of a comparison a type stands on. -/
inductive Role where
  /-- The required type. -/
  | receiver
  /-- The offered type. -/
  | payload
deriving DecidableEq, Repr

def Role.text : Role → String
  | .receiver => "receiver"
  | .payload => "payload"

/-- A fault of a type. -/
inductive TypeError where
  /-- A type of this kind may not stand on this side. -/
  | illegalKind (role : Role) (kind : TyKind)
  | malformedWildcard
  | wildcardPayloadArgument
  /-- A list of bounds holds something other than arrays and declared types. -/
  | malformedBound (kind : TyKind)
  | unknownTypeVariable (id : TypeVarId)
  /-- The variable is reached again while its own bound is unfolded. Unfolding that does not look
  for this never ends there: the fault stands for a question that has no answer, and is nothing
  that a caller could be told. Where bounds are acyclic it does not occur. -/
  | cyclicBound (id : TypeVarId)
deriving DecidableEq, Repr

def TypeError.message : TypeError → String
  | .illegalKind role kind => "illegal " ++ role.text ++ " type kind: " ++ kind.text
  | .malformedWildcard => "wildcard declares both an extends bound and a super bound"
  | .wildcardPayloadArgument => "payload type arguments may not be wildcards"
  | .malformedBound kind => "illegal condensed bound kind: " ++ kind.text
  | .unknownTypeVariable id => "unknown type variable TypeVarId(" ++ toString id.raw.toNat ++ ")"
  | .cyclicBound id => "type variable " ++ id.text ++ " is its own bound"

end Wiring
