import Wiring.Proofs.Hierarchy.Regular
import Wiring.Proofs.Subtyping.OneStep
/-!
# Subtyping of ground types

In an unambiguous table, questions about fully applied types without variables are settled
(`Unambiguous.exists_subtype?`). The view of a class type is the instance above it
(`Unambiguous.exists_view?`), and as no view is raw, a reference may be assigned exactly where it is
a subtype (`Unambiguous.exists_assignable?`).
-/

namespace Wiring.ClassTable

variable {s : ClassTable} {vars : List TypeVarId} {n : Nat} {c d : ClassId}
  {args targetArgs : List Ty} {t u : Ty}

namespace Unambiguous

variable (hs : s.Unambiguous)

include hs

/-- **The view of a class type** is the instance of the target above it, if there is one. -/
theorem exists_view? (h : s.Takes c args) (target : ClassId) :
    ∃ view, Settles (fun n => s.view? n c args target) view ∧
      ∀ as, view = some as ↔ Climbs s.supertypes (.declared c args) (.declared target as) := by
  obtain ⟨view, hsettles, hclimb, hnone⟩ := hs.ordered.exists_view? c args target
  refine ⟨view, hsettles, fun as => ⟨hclimb as, fun has => ?_⟩⟩
  cases view with
  | none => exact absurd has (hnone rfl as)
  | some bs => rw [hs.args_unique h (hclimb bs rfl) has]

/-- The view has as many arguments as the target has parameters. -/
theorem length_of_climbs (h : s.Takes c args) (ht : s.Takes d targetArgs) {as : List Ty}
    (hclimb : Climbs s.supertypes (.declared c args) (.declared d as)) :
    as.length = targetArgs.length := by
  obtain ⟨decl, hd, hlen⟩ := hs.takes_of_climbs h hclimb
  rw [hlen, ht.length_eq hd]

/-- There is no subtyping where no instance of the target stands above. -/
theorem settles_subtype?_false (h : s.Takes c args)
    (hnone : ∀ as, ¬ Climbs s.supertypes (.declared c args) (.declared d as)) :
    Settles (fun n => s.subtype? n (.declared c args) (.declared d targetArgs)) false := by
  have hne : Ty.declared c args ≠ .declared d targetArgs := by
    intro heq
    cases heq
    exact hnone args Relation.ReflTransGen.refl
  have hobject : ¬ (d = .object ∧ targetArgs = []) := by
    rintro ⟨rfl, rfl⟩
    exact hnone [] (hs.climbs_object h)
  obtain ⟨view, hview, hclimb⟩ := hs.exists_view? h d
  cases view with
  | none => exact settles_subtype?_declared hne hobject hview (Settles.const false)
  | some as => exact absurd ((hclimb as).1 rfl) (hnone as)

theorem oneInstance (h : s.Takes c args) : s.OneInstance (.declared c args) :=
  fun _ _ _ => hs.args_unique h

/-- Where an instance stands above, its arguments are compared. -/
theorem settles_subtype?_of_climbs {as : List Ty} {v : Bool}
    (h : s.Takes c args)
    (ha : Climbs s.supertypes (.declared c args) (.declared d as))
    (hv : Settles (fun n => viewSubtype? (s.subtype? n) (some as) targetArgs) v)
    (hself : targetArgs = as → v = true) :
    Settles (fun n => s.subtype? n (.declared c args) (.declared d targetArgs)) v :=
  hs.ordered.settles_subtype?_of_climbs (hs.oneInstance h) ha hv hself

/-- **Questions about ground types are settled.** -/
theorem exists_subtype? (ht : s.FullyApplied [] t) (hu : s.FullyApplied [] u) :
    ∃ v, Settles (fun n => s.subtype? n t u) v := by
  induction hu generalizing t with
  | primitive p =>
    cases ht with
    | primitive q =>
      refine ⟨q.widensTo p, Settles.of_succ ((Settles.const _).congr fun n => ?_)⟩
      by_cases hqp : q = p
      · subst hqp
        simp [subtype?_self]
      · have hne : Ty.primitive q ≠ .primitive p := by simpa using hqp
        exact (subtype?_of_ne hne).symm
    | array _ =>
      exact ⟨false, Settles.of_succ ((Settles.const _).congr fun n => rfl)⟩
    | var hv => cases hv
    | declared _ _ _ =>
      exact ⟨false, Settles.of_succ ((Settles.const _).congr fun n => rfl)⟩
  | @array u _ ih =>
    cases ht with
    | @array t ht =>
      by_cases htu : t = u
      · subst htu
        exact ⟨true, settles_subtype?_self _⟩
      · obtain ⟨v, hv⟩ : ∃ v, Settles (fun n => componentSubtype? (s.subtype? n) t u) v := by
          simp only [componentSubtype?]
          split
          case h_4 => exact ih ht
          all_goals exact ⟨_, Settles.const _⟩
        exact ⟨v, Settles.of_succ (hv.congr fun n => (subtype?_array htu).symm)⟩
    | var hv => cases hv
    | primitive _ => exact ⟨false, Settles.of_succ ((Settles.const _).congr fun n => rfl)⟩
    | declared _ _ _ => exact ⟨false, Settles.of_succ ((Settles.const _).congr fun n => rfl)⟩
  | var hv => cases hv
  | @declared d decl targetArgs hd hlen hargs _ =>
    cases ht with
    | primitive q =>
      exact ⟨false, Settles.of_succ ((Settles.const _).congr fun n => rfl)⟩
    | array _ =>
      exact ⟨_, Settles.of_succ ((Settles.const _).congr fun n => rfl)⟩
    | var hv => cases hv
    | declared hc hlen' hargs' =>
      refine hs.ordered.exists_subtype?_declared fun as _ pair hpair => ?_
      have hw := (hargs pair.1 (List.of_mem_zip hpair).1).not_wildcard
      exact ⟨_, (Settles.const _).congr fun n => (contains?_of_not_wildcard _ hw).symm⟩

/-- No view is raw, so there is no unchecked use of a raw type. -/
theorem settles_conversion? (ht : s.FullyApplied [] t) (hu : s.FullyApplied [] u)
    (hrt : t.isReference = true) (hru : u.isReference = true) :
    Settles (fun n => s.conversion? n t u) false := by
  cases ht with
  | primitive p => cases hrt
  | var h => cases h
  | array _ => exact Settles.const false
  | @declared c decl args hc hlen hargs =>
    cases hu with
    | primitive p => cases hru
    | var h => cases h
    | array _ => exact Settles.const false
    | @declared d decl' targetArgs hd hlen' hargs' =>
      cases targetArgs with
      | nil => exact Settles.const false
      | cons a targetArgs =>
        have h : s.Takes c args := ⟨_, hc, hlen⟩
        obtain ⟨view, hview, hclimb⟩ := hs.exists_view? h d
        have hraw : view.any (·.isEmpty) = false := by
          cases view with
          | none => rfl
          | some as =>
            have hlen := hs.length_of_climbs h ⟨_, hd, hlen'⟩ ((hclimb as).1 rfl)
            cases as with
            | nil => cases hlen
            | cons b as => rfl
        have hany := hview.bind (g := fun _ view => some (view.any (·.isEmpty))) (Settles.const _)
        rw [hraw] at hany
        exact hany

/-- **A ground reference may be assigned exactly where it is a subtype.** -/
theorem exists_assignable? (ht : s.FullyApplied [] t) (hu : s.FullyApplied [] u)
    (hrt : t.isReference = true) (hru : u.isReference = true) :
    ∃ v, Settles (fun n => s.subtype? n t u) v ∧ Settles (fun n => s.assignable? n t u) v := by
  obtain ⟨v, hv⟩ := hs.exists_subtype? ht hu
  have hassign : Settles (fun n => s.subtype? n t u >>= fun isSubtype =>
      if isSubtype then some true else s.conversion? n t u) v := by
    refine hv.bind ?_
    cases v with
    | true => exact Settles.const true
    | false => exact hs.settles_conversion? ht hu hrt hru
  exact ⟨v, hv, hassign.congr fun n => (assignable?_eq t u).symm⟩

end Unambiguous

end Wiring.ClassTable
