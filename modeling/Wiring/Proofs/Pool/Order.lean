import Mathlib.Data.List.Nodup
import Wiring.Pool
/-!
# What a pool holds, and in which order

Of the candidates that were registered, a pool holds the first of each id (`mem_ofList_iff`). The
higher rank comes first, and among equal ranks what was registered first (`ofList_precedes`): sorting
is stable, and leaving out the later candidates of an id moves none of the others. This is all there
is to say: a pool is built from its own candidates again (`ofList_candidates`).
-/

namespace Wiring.Pool

variable {cs : List Candidate} {c d : Candidate} {id : String}

/-- The place at which the first candidate with this id was registered. -/
def placeOf (cs : List Candidate) (id : String) : Nat := (cs.map (·.id)).idxOf id

/-- `c` comes before `d` in the pool of `cs`: it has the higher rank, or the same and was registered
before. -/
def Precedes (cs : List Candidate) (c d : Candidate) : Prop :=
  d.rank < c.rank ∨ c.rank = d.rank ∧ placeOf cs c.id < placeOf cs d.id

/-! ## The first of each id -/

theorem placeOf_cons_self (c : Candidate) (cs : List Candidate) : placeOf (c :: cs) c.id = 0 := by
  simp [placeOf]

theorem placeOf_cons_of_ne (h : id ≠ c.id) : placeOf (c :: cs) id = placeOf cs id + 1 := by
  rw [placeOf, List.map_cons, List.idxOf_cons_ne _ (Ne.symm h)]
  rfl

theorem mem_firstById_iff : d ∈ firstById cs ↔ cs.find? (·.id == d.id) = some d := by
  induction cs with
  | nil => simp [firstById]
  | cons c cs ih =>
    rw [firstById, List.mem_cons, List.mem_filter, ih, List.find?_cons]
    by_cases h : c.id = d.id
    · simp [h, eq_comm]
    · have hne : d ≠ c := fun e => h (e ▸ rfl)
      have hb : (c.id == d.id) = false := by simpa using h
      simp [hb, hne, Ne.symm h]

/-- Leaving out what comes later keeps the order. -/
theorem pairwise_firstById (cs : List Candidate) :
    (firstById cs).Pairwise fun c d => placeOf cs c.id < placeOf cs d.id := by
  induction cs with
  | nil => exact .nil
  | cons c cs ih =>
    have hrest : ∀ d ∈ (firstById cs).filter (·.id != c.id), d.id ≠ c.id := by
      intro d hd
      simpa using (List.mem_filter.1 hd).2
    refine List.pairwise_cons.2 ⟨fun d hd => ?_, ?_⟩
    · rw [placeOf_cons_self, placeOf_cons_of_ne (hrest d hd)]
      exact Nat.succ_pos _
    · refine (ih.filter _).imp_of_mem fun {d e} hd he hlt => ?_
      rw [placeOf_cons_of_ne (hrest d hd), placeOf_cons_of_ne (hrest e he)]
      exact Nat.succ_lt_succ hlt

/-! ## The pool of a list -/

/-- **A pool holds the first candidate of each id.** -/
theorem mem_ofList_iff : d ∈ (ofList cs).candidates ↔ cs.find? (·.id == d.id) = some d :=
  (List.mergeSort_perm _ _).mem_iff.trans mem_firstById_iff

/-- **Sorting is stable**: the candidates of one rank stand in a pool as they were registered. -/
theorem filter_rank_ofList (cs : List Candidate) (rank : Int) :
    (ofList cs).candidates.filter (·.rank = rank) = (firstById cs).filter (·.rank = rank) := by
  have hsorted : ((firstById cs).filter (·.rank = rank)).Sublist (ofList cs).candidates := by
    refine List.sublist_mergeSort (fun a b c => ?_) (fun a b => ?_) ?_ List.filter_sublist
    · simp only [ranksBefore, decide_eq_true_eq]
      omega
    · simp only [ranksBefore, Bool.or_eq_true, decide_eq_true_eq]
      omega
    · refine List.pairwise_of_forall_mem_list fun c hc d hd => ?_
      have hcr : c.rank = rank := by simpa using (List.mem_filter.1 hc).2
      have hdr : d.rank = rank := by simpa using (List.mem_filter.1 hd).2
      simp [ranksBefore, hcr, hdr]
  have hsub := hsorted.filter (·.rank = rank)
  simp only [List.filter_filter, Bool.and_self] at hsub
  have hlen := ((List.mergeSort_perm (firstById cs) ranksBefore).filter (·.rank = rank)).length_eq
  exact (hsub.eq_of_length hlen.symm).symm

/-- **The order of a pool** is by rank, and among equal ranks by registration. -/
theorem ofList_precedes (cs : List Candidate) : (ofList cs).candidates.Pairwise (Precedes cs) := by
  rw [List.pairwise_iff_forall_sublist]
  intro c d h
  have hranked : d.rank ≤ c.rank := List.pairwise_iff_forall_sublist.1 (ofList cs).ranked h
  by_cases heq : c.rank = d.rank
  · have hsame : [c, d].Sublist ((ofList cs).candidates.filter (·.rank = d.rank)) := by
      simpa [heq] using h.filter (·.rank = d.rank)
    rw [filter_rank_ofList] at hsame
    exact .inr ⟨heq, List.pairwise_iff_forall_sublist.1 (pairwise_firstById cs)
      (hsame.trans List.filter_sublist)⟩
  · exact .inl (by omega)

/-! ## Looking up and building again -/

theorem get?_eq_some_iff {pool : Pool} :
    pool.get? id = some c ↔ c ∈ pool.candidates ∧ c.id = id := by
  constructor
  · intro h
    exact ⟨List.mem_of_find?_eq_some h, by simpa using List.find?_some h⟩
  · rintro ⟨hc, rfl⟩
    cases hd : pool.get? c.id with
    | none => simpa using List.find?_eq_none.1 hd c hc
    | some d =>
      have hid : d.id = c.id := by simpa using List.find?_some hd
      rw [List.inj_on_of_nodup_map pool.distinct (List.mem_of_find?_eq_some hd) hc hid]

theorem get?_ofList (cs : List Candidate) (id : String) :
    (ofList cs).get? id = cs.find? (·.id == id) := by
  refine Option.ext fun c => ?_
  rw [get?_eq_some_iff, mem_ofList_iff]
  constructor
  · rintro ⟨h, rfl⟩
    exact h
  · intro h
    have hid : c.id = id := by simpa using List.find?_some h
    exact ⟨hid ▸ h, hid⟩

/-- A pool is built from its own candidates again. -/
theorem ofList_candidates (pool : Pool) : ofList pool.candidates = pool := by
  obtain ⟨cs, hdistinct, hranked⟩ := pool
  rw [Pool.mk.injEq]
  show (firstById cs).mergeSort ranksBefore = cs
  rw [firstById_of_nodup hdistinct]
  exact List.mergeSort_of_pairwise (hranked.imp fun h => by simpa [ranksBefore] using h)

/-- **The law of pools.** For every list of registered candidates, the pool holds each id that occurs
exactly once, with the candidate that was registered first under it, and nothing else. The candidates
stand by rank, highest first, and those of equal rank in the order of their registration. Looking up
an id finds that first registration, and nothing if the id does not occur. The pool of the pool's own
candidates, in their order, is the same. -/
theorem ofList_law (cs : List Candidate) :
    ((ofList cs).candidates.map (·.id)).Nodup ∧
      (∀ id, id ∈ (ofList cs).candidates.map (·.id) ↔ id ∈ cs.map (·.id)) ∧
      (∀ c, c ∈ (ofList cs).candidates ↔ cs.find? (·.id == c.id) = some c) ∧
      (ofList cs).candidates.Pairwise (Precedes cs) ∧
      (∀ id, (ofList cs).get? id = cs.find? (·.id == id)) ∧
      (∀ id, (ofList cs).get? id = none ↔ id ∉ cs.map (·.id)) ∧
      (ofList (ofList cs).candidates).candidates = (ofList cs).candidates := by
  have hnone (id : String) : (ofList cs).get? id = none ↔ id ∉ cs.map (·.id) := by
    rw [get?_ofList, List.find?_eq_none]
    simp
  have hids (id : String) : id ∈ (ofList cs).candidates.map (·.id) ↔ id ∈ cs.map (·.id) := by
    rw [← not_iff_not, ← hnone, get?, List.find?_eq_none]
    simp
  refine ⟨(ofList cs).distinct, hids, fun c => mem_ofList_iff, ofList_precedes cs,
    get?_ofList cs, hnone, ?_⟩
  rw [ofList_candidates]

end Wiring.Pool
