import Wiring.Proofs.Hierarchy.WellScoped
/-!
# Regular hierarchies

A table is regular when it comes from the base table by declarations in good order: supertypes are
fully applied over the parameters of the declaring class, every class has a superclass, and no class
reaches two instances of another (`Regular`). All types that a fully applied class type climbs to
are then fully applied, and of each class there is at most one (`Regular.unambiguous`).
-/

namespace Wiring.ClassTable

/-- The type is built from primitives, arrays, the given variables, and classes with as many
arguments as they declare parameters. -/
inductive FullyApplied (s : ClassTable) (vars : List TypeVarId) : Ty → Prop where
  | primitive (p : Primitive) : FullyApplied s vars (.primitive p)
  | array {t : Ty} : FullyApplied s vars t → FullyApplied s vars (.array t)
  | var {v : TypeVarId} : v ∈ vars → FullyApplied s vars (.var v)
  | declared {c : ClassId} {d : ClassDecl} {args : List Ty} :
      s.class? c = some d → args.length = d.params.length →
      (∀ t ∈ args, FullyApplied s vars t) → FullyApplied s vars (.declared c args)

/-- A table that comes from the base table by declarations in good order. -/
structure Regular (s : ClassTable) : Prop where
  extends_base : Extends base s
  /-- Declared supertypes are class types of classes declared earlier. -/
  ordered : s.Ordered
  /-- They are fully applied, over the parameters of the declaring class. -/
  applied : ∀ c d, s.class? c = some d → ∀ t ∈ d.supers, s.FullyApplied d.params t
  /-- Every class but the root has a superclass. -/
  rooted : ∀ c d, s.class? c = some d → d.kind = .classKind → c ≠ .object → d.superclass ≠ none
  /-- No class reaches two instances of one class. -/
  coherent : ∀ c d, s.class? c = some d → ∀ e as bs,
    Climbs s.supertypes (.declared c (d.params.map .var)) (.declared e as) →
    Climbs s.supertypes (.declared c (d.params.map .var)) (.declared e bs) → as = bs

variable {s : ClassTable} {vars : List TypeVarId} {c e : ClassId} {d : ClassDecl}
  {args as bs : List Ty} {t u : Ty} {σ : TypeVarId → Ty}

/-! ## Fully applied types -/

namespace FullyApplied

theorem vars_subset (h : s.FullyApplied vars t) : t.vars ⊆ vars := by
  induction h with
  | primitive p => simp [Ty.vars]
  | array _ ih => simpa [Ty.vars] using ih
  | var hv => simpa [Ty.vars] using hv
  | @declared c d args _ _ _ ih =>
    intro v hv
    obtain ⟨t, ht, hv⟩ : ∃ t ∈ args, v ∈ t.vars := by simpa [Ty.vars] using hv
    exact ih t ht hv

theorem subst {params : List TypeVarId} (h : s.FullyApplied params t)
    (hσ : ∀ v ∈ params, s.FullyApplied vars (σ v)) : s.FullyApplied vars (t.subst σ) := by
  induction h with
  | primitive p => exact .primitive p
  | array _ ih => exact .array ih
  | var hv => exact hσ _ hv
  | declared hd hlen _ ih =>
    rw [Ty.subst, Ty.substList_eq_map]
    refine .declared hd (by simpa using hlen) fun u hu => ?_
    obtain ⟨t, ht, rfl⟩ := List.mem_map.1 hu
    exact ih t ht

theorem declared_iff :
    s.FullyApplied vars (.declared c args) ↔
      ∃ d, s.class? c = some d ∧ args.length = d.params.length ∧
        ∀ t ∈ args, s.FullyApplied vars t := by
  constructor
  · rintro (_ | _ | _ | ⟨hd, hlen, hargs⟩)
    exact ⟨_, hd, hlen, hargs⟩
  · rintro ⟨d, hd, hlen, hargs⟩
    exact .declared hd hlen hargs

theorem not_wildcard (h : s.FullyApplied vars t) : t.isWildcard = false := by
  cases h <;> rfl

theorem of_mem_args (h : s.FullyApplied vars t) (hu : u ∈ t.args) : s.FullyApplied vars u := by
  cases h with
  | declared _ _ hargs => exact hargs u hu
  | _ => cases hu

/-- A class applied to its own parameters. -/
theorem of_params (hd : s.class? c = some d) :
    s.FullyApplied d.params (.declared c (d.params.map .var)) :=
  .declared hd (by simp) fun t ht => by
    obtain ⟨v, hv, rfl⟩ := List.mem_map.1 ht
    exact .var hv

end FullyApplied

/-! ## Number of arguments -/

theorem FullyApplied.takes (h : s.FullyApplied vars (.declared c args)) : s.Takes c args := by
  obtain ⟨d, hd, hlen, -⟩ := FullyApplied.declared_iff.1 h
  exact ⟨d, hd, hlen⟩

namespace Regular

variable (hs : s.Regular)

include hs

theorem complete : s.Complete where
  extends_base := hs.extends_base
  ordered := hs.ordered
  supers_take c d hd _ _ ht := (hs.applied c d hd _ ht).takes
  rooted := hs.rooted

theorem fullyApplied_object : s.FullyApplied vars ClassId.object.ty := by
  obtain ⟨d, hd, -, hparams, -⟩ := hs.complete.class?_object
  exact .declared hd (by simp [hparams]) (by simp)

theorem toScoped : s.Scoped where
  toComplete := hs.complete
  vars_mem c d hd t ht _ hv := (hs.applied c d hd t ht).vars_subset hv
  coherent := hs.coherent

theorem wellScoped : s.WellScoped := hs.toScoped.wellScoped

/-! ## Climbing -/

theorem fullyApplied_of_mem_supertypes (h : s.FullyApplied vars (.declared c args))
    (hu : u ∈ s.supertypes (.declared c args)) : s.FullyApplied vars u := by
  obtain ⟨d, hd, hlen, hargs⟩ := FullyApplied.declared_iff.1 h
  obtain ⟨d', hd', ⟨t, ht, rfl⟩ | ⟨-, rfl⟩⟩ := mem_supertypes_declared_iff.1 hu
  · cases hd.symm.trans hd'
    rw [instantiate_eq_subst hlen]
    exact (hs.applied c d hd t ht).subst fun v hv => hargs _ (Ty.ofParams_mem hlen hv)
  · exact hs.fullyApplied_object

theorem fullyApplied_of_climbs (h : s.FullyApplied vars (.declared c args))
    (hu : Climbs s.supertypes (.declared c args) u) : s.FullyApplied vars u := by
  induction hu with
  | refl => exact h
  | tail hclimb hstep ih =>
    obtain ⟨e, as, rfl⟩ := hs.ordered.declared_of_climbs hclimb
    exact hs.fullyApplied_of_mem_supertypes ih hstep

theorem unambiguous : s.Unambiguous := hs.toScoped.unambiguous

end Regular

end Wiring.ClassTable
