import Wiring.Candidate.Draft
/-!
# From drafts to candidates

Offering types adds those that are not offered yet, and changes nothing else of a draft. Building
makes exactly the candidate that was drafted (`build_eq_ok_iff`), and succeeds whenever something is
offered and all of it is legal (`exists_build_iff`). How often a type is offered, and when, shows in
nothing but the order of the offered types (`exists_build_offersAlike`).
-/

namespace Wiring.Candidate

/-- The draft that makes the candidate. -/
def draft (c : Candidate) : Draft :=
  ⟨c.id, c.types, c.annotations, c.alternate, c.rank, c.distinct⟩

namespace Draft

variable {d : Draft} {c : Candidate} {t u : Ty} {ts us : List Ty}

/-- The draft with no type offered. -/
def bare (d : Draft) : Draft := { d with types := [], distinct := List.nodup_nil }

theorem mem_types_offer : u ∈ (d.offer t).types ↔ u ∈ d.types ∨ u = t := by
  unfold offer
  split
  · rename_i h
    constructor
    · exact .inl
    · rintro (hu | rfl)
      · exact hu
      · exact h
  · simp

theorem mem_types_offerAll : u ∈ (d.offerAll ts).types ↔ u ∈ d.types ∨ u ∈ ts := by
  induction ts generalizing d with
  | nil => simp [offerAll]
  | cons t ts ih =>
    have hstep : d.offerAll (t :: ts) = (d.offer t).offerAll ts := rfl
    rw [hstep, ih, mem_types_offer, List.mem_cons, or_assoc]

@[simp] theorem bare_offer : (d.offer t).bare = d.bare := by
  unfold offer
  split <;> rfl

@[simp] theorem bare_offerAll : (d.offerAll ts).bare = d.bare := by
  induction ts generalizing d with
  | nil => rfl
  | cons t ts ih => exact ih.trans bare_offer

theorem types_offer_of_not_mem (h : t ∉ d.types) : (d.offer t).types = d.types ++ [t] := by
  rw [offer, dif_neg h]

/-- Types that are all new are listed in the order in which they are offered. -/
theorem types_offerAll (h : (d.types ++ ts).Nodup) : (d.offerAll ts).types = d.types ++ ts := by
  induction ts generalizing d with
  | nil => simp [offerAll]
  | cons t ts ih =>
    have ht : t ∉ d.types := fun hd => (List.nodup_append.1 h).2.2 t hd t (by simp) rfl
    have hoffer := types_offer_of_not_mem ht
    have hrest : ((d.offer t).types ++ ts).Nodup := by
      rw [hoffer]
      simpa using h
    have hstep : d.offerAll (t :: ts) = (d.offer t).offerAll ts := rfl
    rw [hstep, ih hrest, hoffer]
    simp

/-- **Building adds nothing and leaves nothing out.** -/
theorem build_eq_ok_iff : d.build = .ok c ↔ d = c.draft := by
  constructor
  · intro h
    unfold build at h
    split at h
    · cases h
    · split at h
      · cases h
      · cases h
        rfl
  · rintro rfl
    have hlegal : firstIllegal? c.draft.types = none := firstIllegal?_eq_none.2 c.legal
    unfold build
    split
    · rename_i hnothing
      exact absurd hnothing c.offersSome
    · split
      · rename_i hillegal
        cases hlegal.symm.trans hillegal
      · rfl

theorem exists_build_iff :
    (∃ c, d.build = .ok c) ↔ d.types ≠ [] ∧ ∀ t ∈ d.types, t.checkOffered = .ok () := by
  simp only [build_eq_ok_iff]
  constructor
  · rintro ⟨c, rfl⟩
    exact ⟨c.offersSome, c.legal⟩
  · rintro ⟨hsome, hlegal⟩
    exact ⟨⟨d.id, d.types, d.annotations, d.alternate, d.rank, hsome, d.distinct, hlegal⟩, rfl⟩

end Draft

/-- The candidates are the same, but for the order in which they offer their types. -/
structure OffersAlike (c d : Candidate) : Prop where
  bare : c.draft.bare = d.draft.bare
  types : ∀ t, t ∈ c.types ↔ t ∈ d.types

theorem OffersAlike.annotations {c d : Candidate} (h : OffersAlike c d) :
    c.annotations = d.annotations :=
  congrArg Draft.annotations h.bare

theorem OffersAlike.id {c d : Candidate} (h : OffersAlike c d) : c.id = d.id :=
  congrArg Draft.id h.bare

/-- Offering the same types in another order, or some of them again, makes the same candidate but
for the order of its types. -/
theorem Draft.exists_build_offersAlike {d : Draft} {c : Candidate} {ts us : List Ty}
    (hmem : ∀ t, t ∈ ts ↔ t ∈ us) (h : (d.offerAll ts).build = .ok c) :
    ∃ c', (d.offerAll us).build = .ok c' ∧ OffersAlike c c' := by
  have hdraft := build_eq_ok_iff.1 h
  have htypes (t : Ty) : t ∈ c.types ↔ t ∈ (d.offerAll us).types := by
    have hc : c.types = (d.offerAll ts).types := congrArg Draft.types hdraft.symm
    rw [hc, mem_types_offerAll, mem_types_offerAll, hmem]
  have hsome : (d.offerAll us).types ≠ [] := by
    obtain ⟨t, ht⟩ := List.exists_mem_of_ne_nil _ c.offersSome
    exact List.ne_nil_of_mem ((htypes t).1 ht)
  have hlegal : ∀ t ∈ (d.offerAll us).types, t.checkOffered = .ok () :=
    fun t ht => c.legal t ((htypes t).2 ht)
  obtain ⟨c', hc'⟩ := exists_build_iff.2 ⟨hsome, hlegal⟩
  have hdraft' := build_eq_ok_iff.1 hc'
  refine ⟨c', hc', ?_, fun t => ?_⟩
  · rw [← hdraft, ← hdraft', bare_offerAll, bare_offerAll]
  · rw [htypes t, hdraft']
    exact Iff.rfl

end Wiring.Candidate
