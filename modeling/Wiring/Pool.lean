import Wiring.ResolutionError
/-!
# Pools of candidates

The candidates that requests are answered from: one for each id, the first that came, ordered by
rank with the highest first. Candidates of one rank stay in the order in which they came.
-/

namespace Wiring

structure Pool where
  candidates : List Candidate
  distinct : (candidates.map (·.id)).Nodup
  ranked : candidates.Pairwise fun c d => d.rank ≤ c.rank

namespace Pool

/-- The first candidate of each id, in order. -/
def firstById : List Candidate → List Candidate
  | [] => []
  | c :: cs => c :: (firstById cs).filter (·.id != c.id)

theorem nodup_firstById (cs : List Candidate) : ((firstById cs).map (·.id)).Nodup := by
  induction cs with
  | nil => simp [firstById]
  | cons c cs ih =>
    refine List.nodup_cons.2 ⟨?_, ?_⟩
    · simp
    · exact ih.sublist (List.filter_sublist.map _)

/-- Where no id occurs twice, every candidate is the first of its id. -/
theorem firstById_of_nodup {cs : List Candidate} (h : (cs.map (·.id)).Nodup) :
    firstById cs = cs := by
  induction cs with
  | nil => rfl
  | cons c cs ih =>
    obtain ⟨hc, hcs⟩ := List.nodup_cons.1 h
    rw [firstById, ih hcs, List.filter_eq_self.2]
    intro d hd
    have hne : d.id ≠ c.id := fun e => hc (List.mem_map.2 ⟨d, hd, e⟩)
    simpa using hne

/-- Higher ranks come first. -/
def ranksBefore (c d : Candidate) : Bool := d.rank ≤ c.rank

/-- The pool of a list of candidates, in the order of registration. -/
def ofList (cs : List Candidate) : Pool where
  candidates := (firstById cs).mergeSort ranksBefore
  distinct :=
    (((List.mergeSort_perm _ _).map _).nodup_iff).2 (nodup_firstById cs)
  ranked := by
    refine (List.pairwise_mergeSort (fun a b c => ?_) (fun a b => ?_) _).imp fun h => ?_
    · simp only [ranksBefore, decide_eq_true_eq]
      omega
    · simp only [ranksBefore, Bool.or_eq_true, decide_eq_true_eq]
      omega
    · simpa [ranksBefore] using h

theorem ofList_perm {cs : List Candidate} (h : (cs.map (·.id)).Nodup) :
    (ofList cs).candidates.Perm cs := by
  show ((firstById cs).mergeSort ranksBefore).Perm cs
  rw [firstById_of_nodup h]
  exact List.mergeSort_perm cs ranksBefore

def size (pool : Pool) : Nat := pool.candidates.length

def isEmpty (pool : Pool) : Bool := pool.candidates.isEmpty

/-- The candidate with the given id. -/
def get? (pool : Pool) (id : String) : Option Candidate := pool.candidates.find? (·.id == id)

/-- The candidates of a list that answer the request, in order. The first type error of any
candidate is the answer instead. -/
def selectFrom (sys : TypeSystem) (request : Request) :
    List Candidate → Except ResolutionError (List Candidate)
  | [] => .ok []
  | c :: cs =>
    match request.selects sys c.types c.annotations with
    | .error e => .error (.type e)
    | .ok selected => do
      let rest ← selectFrom sys request cs
      return if selected then c :: rest else rest

/-- The candidates of the pool that answer the request, in pool order. -/
def select (pool : Pool) (sys : TypeSystem) (request : Request) :
    Except ResolutionError (List Candidate) :=
  selectFrom sys request pool.candidates

end Pool

end Wiring
