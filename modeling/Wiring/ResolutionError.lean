import Wiring.Candidate.Basic
import Wiring.Request.Basic
/-!
# Why there is no answer

The causes for which a candidate cannot be built, a request cannot be made or cannot be
answered. Messages name types through a function, so that the same error can be shown with
numbers or with declared names.
-/

namespace Wiring

/-- Why a candidate cannot be built. -/
inductive Candidate.Fault where
  | offersNothing
  /-- It offers a type of a kind that cannot be offered. -/
  | offersKind (kind : TyKind)
  /-- It offers a type with a fault inside. -/
  | offersIllegal (type : Ty) (error : TypeError)
deriving DecidableEq

def Candidate.Fault.message : Candidate.Fault → String
  | .offersNothing => "offers no types"
  | .offersKind kind => "offers a " ++ kind.text ++ " type"
  | .offersIllegal type error => "offers `" ++ type.text ++ "`: " ++ error.message

inductive ResolutionError where
  | type (error : TypeError)
  | illegalRequiredType (kind : TyKind)
  | invalidCandidate (id : String) (fault : Candidate.Fault)
  /-- No candidate answers the request. -/
  | unsatisfied (request : Request)
  /-- Several candidates answer the request and none takes precedence. -/
  | ambiguous (request : Request) (candidates : List Candidate)

namespace ResolutionError

/-- The message, with the required type of a request written by `nameOf`. -/
def messageWith (nameOf : Ty → String) : ResolutionError → String
  | .type error => error.message
  | .illegalRequiredType kind => "illegal required type kind: " ++ kind.text
  | .invalidCandidate id fault => "invalid candidate `" ++ id ++ "`: " ++ fault.message
  | .unsatisfied r => "unsatisfied dependency: no candidate matches " ++ r.textWith nameOf
  | .ambiguous r cs =>
    "ambiguous dependency: " ++ r.textWith nameOf ++ " matches " ++
      ", ".intercalate (cs.map (·.id))

/-- The message with types written by their numbers. -/
def message (e : ResolutionError) : String := e.messageWith Ty.text

/-- The ids of the candidates between which the request is ambiguous. -/
def ambiguousIds : ResolutionError → List String
  | .ambiguous _ cs => cs.map (·.id)
  | _ => []

end ResolutionError

/-- A request for `required`, which must be concrete. -/
def Request.make (policy : Policy) (required : Ty) (annotations : Annotations) :
    Except ResolutionError Request :=
  if h : required.isConcrete then .ok ⟨policy, required, annotations, h⟩
  else .error (.illegalRequiredType required.kind)

end Wiring
