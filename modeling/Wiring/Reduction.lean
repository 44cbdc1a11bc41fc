import Wiring.Pool
/-!
# Reduction to one candidate

Of several candidates one takes precedence by these rules: a single candidate always does; an
alternate beats every candidate that is none; among alternates the highest rank wins; and what
cannot be told apart stays unresolved. `Contest` finds this out in one pass: a candidate holds the
place until another ties with it, and then both wait among those that have tied. A tie rule says
what becomes of unresolved candidates.
-/

namespace Wiring

/-- What is left of a list of candidates. -/
inductive Reduction where
  /-- There was nothing to choose from. -/
  | empty
  | resolved (winner : Candidate)
  /-- Several contenders, in the order in which they came. -/
  | unresolved (contenders : List Candidate)

/-- The state of the pass over a list of candidates. -/
structure Contest where
  /-- Who holds the place. -/
  candidate : Option Candidate
  /-- The rank of the alternates in contention, once an alternate was seen. -/
  alternateRank : Option Int
  /-- Those that have tied, in the order in which they came. -/
  unresolved : List Candidate

namespace Contest

def start : Contest := ⟨none, none, []⟩

/-- One more candidate that is as good as those in contention. It ties with who holds the place, and
both leave it; where others have tied before and left the place free, it takes the place. -/
def join (k : Contest) (c : Candidate) : Contest :=
  match k.candidate with
  | some current => { k with candidate := none, unresolved := k.unresolved ++ [current, c] }
  | none => { k with candidate := some c }

/-- An alternate that is outranked drops out. The first alternate, and one that outranks all before
it, beats everybody who is still in contention. -/
def pushAlternate (k : Contest) (c : Candidate) : Contest :=
  match k.alternateRank with
  | none => ⟨some c, some c.rank, []⟩
  | some rank =>
    if c.rank < rank then k
    else if c.rank = rank then k.join c
    else ⟨some c, some c.rank, []⟩

/-- A candidate that is no alternate only counts as long as there is none. -/
def pushPlain (k : Contest) (c : Candidate) : Contest :=
  if k.alternateRank.isSome then k else k.join c

/-- The contest after one more candidate. -/
def push (k : Contest) (c : Candidate) : Contest :=
  if c.alternate then k.pushAlternate c else k.pushPlain c

/-- Without ties, who holds the place has won. Otherwise it has tied with the others. -/
def finish (k : Contest) : Reduction :=
  if k.unresolved.isEmpty then
    match k.candidate with
    | some winner => .resolved winner
    | none => .empty
  else .unresolved (k.unresolved ++ k.candidate.toList)

end Contest

namespace Reduction

/-- The reduction of a list of candidates. -/
def ofList : List Candidate → Reduction
  | [] => .empty
  | [c] => .resolved c
  | cs => (cs.foldl Contest.push .start).finish

/-- The candidates a tie rule has to decide between, if there are any. -/
def tie? : Reduction → Option (List Candidate)
  | .unresolved cs => some cs
  | _ => none

end Reduction

/-! ## Ties -/

/-- What becomes of candidates that cannot be told apart: a winner, nothing, or an error. -/
abbrev TieRule := Request → List Candidate → Except ResolutionError (Option Candidate)

namespace TieRule

/-- A tie is an error: ambiguous, or unsatisfied if there is nothing in it. -/
def refuse : TieRule := fun request cs =>
  match cs with
  | [] => .error (.unsatisfied request)
  | cs => .error (.ambiguous request cs)

/-- The first of the tied candidates wins. -/
def first : TieRule := fun _ cs => .ok cs.head?

/-- The last of the tied candidates wins. -/
def last : TieRule := fun _ cs => .ok cs.getLast?

/-- Nobody wins a tie. -/
def nobody : TieRule := fun _ _ => .ok none

/-- A tie counts as if no candidate answered. -/
def unsatisfied : TieRule := fun request _ => refuse request []

end TieRule

/-- The winner of a reduction, where the rule decides ties. -/
def Reduction.settle (rule : TieRule) (request : Request) :
    Reduction → Except ResolutionError (Option Candidate)
  | .empty => .ok none
  | .resolved c => .ok (some c)
  | .unresolved cs => rule request cs

/-- The winner among the candidates of the pool that answer the request. -/
def Pool.reduce (pool : Pool) (sys : TypeSystem) (rule : TieRule) (request : Request) :
    Except ResolutionError (Option Candidate) := do
  (Reduction.ofList (← pool.select sys request)).settle rule request

end Wiring
