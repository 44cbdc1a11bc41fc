import Mathlib.Data.List.Forall2
import Wiring.Proofs.Subtyping.Steps
/-!
# The order of ground types

Arguments that are no wildcards contain only themselves. So a ground class type is a subtype of
another exactly when it climbs to it (`Unambiguous.isSubtype_declared_iff`), and subtyping of ground
types is transitive (`Unambiguous.isSubtype_trans_ground`), also where arguments are primitive.
-/

namespace Wiring.ClassTable

variable {s : ClassTable} {n : Nat} {c d e : ClassId} {args as targetArgs : List Ty} {t u v : Ty}

theorem FullyApplied.not_wildcard_of_mem {vars : List TypeVarId}
    (h : s.FullyApplied vars (.declared c args)) : ∀ t ∈ args, t.isWildcard = false :=
  fun _ ht => (h.of_mem_args ht).not_wildcard

/-- Arguments without wildcards contain only themselves. -/
theorem eq_of_contains {ask : Ty → Ty → Prop} (hw : ∀ t ∈ targetArgs, t.isWildcard = false)
    (hlen : as.length = targetArgs.length)
    (h : ∀ pair ∈ targetArgs.zip as, Contains ask pair.1 pair.2) : targetArgs = as := by
  rw [← List.forall₂_eq_eq_eq, List.forall₂_iff_zip]
  refine ⟨hlen.symm, fun {target arg} hpair => ?_⟩
  exact ((h _ hpair).eq_of_not_wildcard (hw target (List.of_mem_zip hpair).1)).symm

/-- Above a class type, a step to a ground type is a climb. -/
theorem climbs_of_below {ask : Ty → Ty → Prop} (hu : s.FullyApplied [] (.declared d targetArgs))
    (h : Below s ask (.declared c args) (.declared d targetArgs)) :
    Climbs s.supertypes (.declared c args) (.declared d targetArgs) := by
  cases h with
  | self => exact Relation.ReflTransGen.refl
  | climbs hclimb hlen hargs =>
    rwa [eq_of_contains hu.not_wildcard_of_mem hlen hargs]

namespace Unambiguous

variable (hs : s.Unambiguous)

include hs

theorem exists_below (ht : s.FullyApplied [] t) (hu : s.FullyApplied [] u)
    (h : s.IsSubtype t u) : ∃ n, Below s (s.SubtypeWithin n) t u := by
  obtain ⟨n, h⟩ := h.exists_within
  exact ⟨n, hs.below_of_within ht.rigid hu.rigid (h.mono (Nat.le_succ n))⟩

/-- **Subtyping of ground class types is climbing.** -/
theorem isSubtype_declared_iff (ht : s.FullyApplied [] (.declared c args))
    (hu : s.FullyApplied [] (.declared d targetArgs)) :
    s.IsSubtype (.declared c args) (.declared d targetArgs) ↔
      Climbs s.supertypes (.declared c args) (.declared d targetArgs) := by
  constructor
  · intro h
    obtain ⟨n, h⟩ := hs.exists_below ht hu h
    exact climbs_of_below hu h
  · intro hclimb
    exact hs.ordered.isSubtype_of_climbs (hs.oneInstance ht.takes) hclimb rfl
      (contains_self fun t ht => Ty.boundedOnce_of_not_wildcard (hu.not_wildcard_of_mem t ht))

/-- **Subtyping of ground types is transitive.** -/
theorem isSubtype_trans_ground (ht : s.FullyApplied [] t) (hu : s.FullyApplied [] u)
    (hv : s.FullyApplied [] v) (htu : s.IsSubtype t u) (huv : s.IsSubtype u v) :
    s.IsSubtype t v := by
  obtain ⟨n, hwithin⟩ := htu.exists_within
  induction n generalizing t u v with
  | zero => cases hwithin
  | succ n ih =>
    have hsub := hs.below_of_within ht.rigid hu.rigid hwithin
    obtain ⟨m, hsup⟩ := hs.exists_below hu hv huv
    refine hs.isSubtype_of_steps ht.rigid hsub hsup ?_ ?_
    · rintro x y z rfl rfl rfl hask hask'
      cases ht with | array ht =>
      cases hu with | array hu =>
      cases hv with | array hv =>
      exact ih ht hu hv hask.isSubtype hask'.isSubtype hask
    · rintro c d e args middle targetArgs rfl rfl rfl
      exact (hs.isSubtype_declared_iff ht hv).2
        ((climbs_of_below hu hsub).trans (climbs_of_below hv hsup))

end Unambiguous

end Wiring.ClassTable
