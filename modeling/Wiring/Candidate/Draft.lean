import Wiring.ResolutionError
import Wiring.TypeSystem.Closure
/-!
# Drafting a candidate

A draft gathers what a candidate will offer and carry, step by step; a type offered again is not
listed twice. `Draft.build` checks the offered types and makes the candidate.
-/

namespace Wiring.Candidate

structure Draft where
  id : String
  types : List Ty
  annotations : Annotations
  alternate : Bool
  rank : Int
  distinct : types.Nodup

namespace Draft

/-- The draft that offers nothing yet. -/
def ofId (id : String) : Draft := ⟨id, [], ∅, false, 0, .nil⟩

private theorem nodup_concat {ts : List Ty} {t : Ty} (h : ts.Nodup) (ht : t ∉ ts) :
    (ts ++ [t]).Nodup :=
  List.nodup_append.2 ⟨h, by simp, fun a ha b hb hab => ht (by simp_all)⟩

def offer (d : Draft) (t : Ty) : Draft :=
  if h : t ∈ d.types then d
  else { d with types := d.types ++ [t], distinct := nodup_concat d.distinct h }

def offerAll (d : Draft) (ts : List Ty) : Draft := ts.foldl offer d

/-- Offers a type and all its supertypes, if `fuel` is enough to find them. -/
def offerClosure? (d : Draft) (sys : TypeSystem) (fuel : Nat) (t : Ty) : Option Draft :=
  (sys.closure? fuel t).map d.offerAll

def withQualifier (d : Draft) (a : Annotation) : Draft :=
  { d with annotations := d.annotations.addQualifier a }

def withBinding (d : Draft) (a : Annotation) : Draft :=
  { d with annotations := d.annotations.addBinding a }

/-- Replaces all annotations. -/
def withAnnotations (d : Draft) (as : Annotations) : Draft := { d with annotations := as }

def withAlternate (d : Draft) (alternate : Bool) : Draft := { d with alternate := alternate }

def withRank (d : Draft) (rank : Int) : Draft := { d with rank := rank }

/-- The first type that cannot be offered, with the reason. -/
def firstIllegal? : List Ty → Option (Ty × TypeError)
  | [] => none
  | t :: ts =>
    match t.checkOffered with
    | .ok () => firstIllegal? ts
    | .error e => some (t, e)

theorem firstIllegal?_eq_none {ts : List Ty} :
    firstIllegal? ts = none ↔ ∀ t ∈ ts, t.checkOffered = .ok () := by
  induction ts with
  | nil => simp [firstIllegal?]
  | cons t ts ih =>
    unfold firstIllegal?
    cases h : t.checkOffered with
    | ok u => simp [ih, h]
    | error e => simp [h]

/-- A kind that cannot be offered is named alone; other faults name the type they are in. -/
def fault (t : Ty) (e : TypeError) : Fault :=
  match e with
  | .illegalKind _ kind => if kind = t.kind then .offersKind kind else .offersIllegal t e
  | _ => .offersIllegal t e

/-- The candidate, if it offers something and all it offers is legal. -/
def build (d : Draft) : Except ResolutionError Candidate :=
  if hsome : d.types = [] then .error (.invalidCandidate d.id .offersNothing)
  else
    match hlegal : firstIllegal? d.types with
    | some (t, e) => .error (.invalidCandidate d.id (fault t e))
    | none => .ok {
        id := d.id
        types := d.types
        annotations := d.annotations
        alternate := d.alternate
        rank := d.rank
        offersSome := hsome
        distinct := d.distinct
        legal := firstIllegal?_eq_none.1 hlegal }

end Draft

end Wiring.Candidate
