import Wiring.Proofs.Reduction.Contenders
import Wiring.Resolver.Basic
/-!
# The law of ranks

`Reduction.ranked` says what the ranks leave of a list of candidates, case by case: nothing of
nothing, a single candidate whatever it is, all of several candidates without an alternate, and
otherwise the alternates of the highest rank. The pass over the list finds just that
(`ofList_eq_ranked`), so that a tie rule is asked about no other list (`settle_ofList`), nor does
a resolver ask it about any other (`consulted_reduceAnew`).
-/

namespace Wiring

namespace Reduction

/-- What the ranks leave of a list of candidates. -/
def ranked (cs : List Candidate) : Reduction :=
  match cs, topRank cs with
  | [], _ => .empty
  | [c], _ => .resolved c
  | cs, none => .unresolved cs
  | cs, some m =>
    match cs.filter fun c => c.alternate && c.rank == m with
    | [c] => .resolved c
    | tied => .unresolved tied

variable {cs : List Candidate}

/-- The highest rank is the rank of somebody. -/
theorem contenders_ne_nil (h : cs ≠ []) : contenders cs ≠ [] := by
  cases ht : topRank cs with
  | none => rwa [contenders_of_none ht]
  | some m =>
    obtain ⟨⟨c, hc, ha, hr⟩, -⟩ := topRank_eq_some_iff.1 ht
    exact List.ne_nil_of_mem ((mem_contenders_of_some ht).2 ⟨hc, ha, hr⟩)

theorem ofList_eq_ranked (cs : List Candidate) : ofList cs = ranked cs := by
  rw [ofList_eq]
  match cs with
  | [] => rfl
  | [c] => rw [contenders_singleton]; rfl
  | c :: d :: cs =>
    have hne := contenders_ne_nil (List.cons_ne_nil c (d :: cs))
    simp only [ranked]
    cases ht : topRank (c :: d :: cs) with
    | none => rw [contenders_of_none ht]; rfl
    | some m =>
      rw [contenders_of_some ht] at hne ⊢
      dsimp only
      generalize (c :: d :: cs).filter (fun c => c.alternate && c.rank == m) = tied at hne ⊢
      match tied with
      | [] => exact absurd rfl hne
      | [_] => rfl
      | _ :: _ :: _ => rfl

/-- The tie rule is asked about the tied candidates, if there is a tie, and not at all otherwise. -/
theorem settle_ofList (rule : TieRule) (request : Request) (cs : List Candidate) :
    (ofList cs).settle rule request =
      match ranked cs with
      | .empty => .ok none
      | .resolved c => .ok (some c)
      | .unresolved tied => rule request tied := by
  rw [ofList_eq_ranked]
  cases ranked cs <;> rfl

end Reduction

/-! ## What the rule is asked -/

namespace Resolver

variable (r : Resolver) (request : Request)

theorem consulted_select : (r.select request).2.consulted = r.consulted := by
  unfold select
  cases r.selections <;> rfl

/-- A reduction that is computed asks the rule about the tie of the selected candidates. -/
theorem consulted_reduceAnew :
    (r.reduceAnew request).2.consulted = r.consulted ++
      match (r.select request).1 with
      | .ok cs => (Reduction.ranked cs).tie?.toList
      | .error _ => [] := by
  have hselect := consulted_select r request
  unfold reduceAnew
  cases hs : r.select request with
  | mk answer r' =>
    rw [hs] at hselect
    cases answer with
    | error e => simpa using hselect
    | ok cs =>
      simp only [Reduction.ofList_eq_ranked]
      cases Reduction.ranked cs with
      | empty => simpa [Reduction.tie?] using hselect
      | resolved c => simpa [Reduction.tie?] using hselect
      | unresolved tied => simpa [Reduction.tie?, consult] using hselect

end Resolver

/-- **The law of ranks.** A list of candidates, in any order and with any ranks and ids, reduces to
what the ranks leave of it; the tie rule decides where that is a tie, and plays no part where it is
none; and a resolver that computes a reduction asks its rule about that tie and about nothing
else. -/
theorem reduction_by_ranks (cs : List Candidate) :
    Reduction.ofList cs = Reduction.ranked cs ∧
      (∀ (rule : TieRule) (request : Request),
        (Reduction.ofList cs).settle rule request =
          match Reduction.ranked cs with
          | .empty => .ok none
          | .resolved c => .ok (some c)
          | .unresolved tied => rule request tied) ∧
      ∀ (r : Resolver) (request : Request),
        (r.reduceAnew request).2.consulted = r.consulted ++
          match (r.select request).1 with
          | .ok selected => (Reduction.ranked selected).tie?.toList
          | .error _ => [] :=
  ⟨Reduction.ofList_eq_ranked cs, fun rule request => Reduction.settle_ofList rule request cs,
    Resolver.consulted_reduceAnew⟩

end Wiring
