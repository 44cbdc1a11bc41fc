import Wiring.Pool
/-!
# What a selection holds

A selection succeeds exactly when every candidate can be matched, and then holds those that answer
the request, in order (`selectFrom_eq_ok_iff`). It fails only with the fault of a type.
-/

namespace Wiring.Pool

variable {sys : TypeSystem} {request : Request} {cs out : List Candidate}

/-- The candidate can be matched against the request, and answers it. -/
def answers (sys : TypeSystem) (request : Request) (c : Candidate) : Bool :=
  match request.selects sys c.types c.annotations with
  | .ok b => b
  | .error _ => false

/-- No type the candidate offers is at fault. -/
def Matchable (sys : TypeSystem) (request : Request) (c : Candidate) : Prop :=
  ∃ b, request.selects sys c.types c.annotations = .ok b

theorem selectFrom_eq_ok_iff :
    selectFrom sys request cs = .ok out ↔
      (∀ c ∈ cs, Matchable sys request c) ∧ out = cs.filter (answers sys request) := by
  induction cs generalizing out with
  | nil => simp [selectFrom, eq_comm]
  | cons c cs ih =>
    unfold selectFrom
    cases hc : request.selects sys c.types c.annotations with
    | error e => simp [Matchable, hc]
    | ok b =>
      simp only [bind, Except.bind, pure, Except.pure]
      have hm : Matchable sys request c := ⟨b, hc⟩
      have hb : answers sys request c = b := by simp [answers, hc]
      cases hrest : selectFrom sys request cs with
      | error e =>
        have hnot : ¬ ∀ d ∈ cs, Matchable sys request d := fun h => by
          have hok : selectFrom sys request cs = .ok (cs.filter (answers sys request)) :=
            ih.2 ⟨h, rfl⟩
          rw [hrest] at hok
          cases hok
        simp [hm, hnot]
      | ok rest =>
        obtain ⟨hall, rfl⟩ := ih.1 hrest
        simp only [Except.ok.injEq, List.forall_mem_cons, hm, true_and, List.filter_cons, hb]
        exact ⟨fun h => ⟨hall, h.symm⟩, fun h => h.2.symm⟩

theorem selectFrom_error {e : ResolutionError} (h : selectFrom sys request cs = .error e) :
    ∃ fault, e = .type fault := by
  induction cs with
  | nil => simp [selectFrom] at h
  | cons c cs ih =>
    unfold selectFrom at h
    cases hc : request.selects sys c.types c.annotations with
    | error fault =>
      rw [hc] at h
      exact ⟨fault, (Except.error.inj h).symm⟩
    | ok b =>
      rw [hc] at h
      cases hrest : selectFrom sys request cs with
      | error e' =>
        rw [hrest] at h
        exact ih (hrest.trans h)
      | ok rest =>
        rw [hrest] at h
        cases h

end Wiring.Pool
