import Wiring.Proofs.Hierarchy.Regular
import Wiring.Proofs.TypeSystem.Bounds
/-!
# Types with wildcard arguments

A saturated type has all its arguments, and these may be wildcards. What it climbs to is saturated
again, if the declared supertypes have no primitive arguments (`Regular.saturated_of_climbs`).

Supertypes are instances of the declared ones, so a wildcard argument comes back wherever the
parameter stands: as an argument, or below one. A type is shallow when none of its wildcards gets
below an argument. Then two uses of its class whose arguments agree but for wildcards have
supertypes that do (`Regular.exists_climbs_of_shallow`).
-/

namespace Wiring

namespace Ty

mutual

/-- No argument in the type is primitive. -/
def referenceArgs : Ty → Bool
  | .primitive _ | .var _ => true
  | .array t => t.referenceArgs
  | .declared _ ts => ts.all isReference && referenceArgsList ts
  | .wildcard upper lower => referenceArgsOption upper && referenceArgsOption lower
  | .intersection ts => referenceArgsList ts

def referenceArgsList : List Ty → Bool
  | [] => true
  | t :: ts => t.referenceArgs && referenceArgsList ts

def referenceArgsOption : Option Ty → Bool
  | none => true
  | some t => t.referenceArgs

end

@[simp] theorem referenceArgsList_eq_all (ts : List Ty) :
    referenceArgsList ts = ts.all referenceArgs := by
  induction ts with
  | nil => rfl
  | cons t ts ih => simp [referenceArgsList, ih]

theorem isReference_subst {σ : TypeVarId → Ty} {t : Ty} (ht : t.isReference = true)
    (hσ : ∀ v ∈ t.vars, (σ v).isReference = true) : (t.subst σ).isReference = true := by
  cases t with
  | var v => exact hσ v (by simp [vars])
  | primitive p => cases ht
  | _ => rfl

end Ty

namespace ClassTable

/-- Every class has as many arguments as it declares parameters, none of them primitive, and
wildcards are bounded by arrays and class types. -/
inductive Saturated (s : ClassTable) : Ty → Prop where
  | primitive (p : Primitive) : Saturated s (.primitive p)
  | array {t : Ty} : Saturated s t → Saturated s (.array t)
  | declared {c : ClassId} {args : List Ty} : s.Takes c args → (∀ t ∈ args, Saturated s t) →
      (∀ t ∈ args, t.isReference = true) → Saturated s (.declared c args)
  | wildcard {upper lower : Option Ty} :
      (∀ t ∈ upper, Saturated s t) → (∀ t ∈ lower, Saturated s t) →
      (∀ t ∈ upper, t.isBound = true) → (∀ t ∈ lower, t.isBound = true) →
      Saturated s (.wildcard upper lower)

/-- No declared supertype has a primitive argument. -/
def ReferenceArgs (s : ClassTable) : Prop :=
  ∀ c d, s.class? c = some d → ∀ t ∈ d.supers, t.referenceArgs = true

/-- No wildcard argument of the type, or of a bound of one, gets below an argument of a supertype:
such an argument is the parameter itself or has no part in it. -/
inductive Shallow (s : ClassTable) : Ty → Prop where
  | primitive (p : Primitive) : Shallow s (.primitive p)
  | array {t : Ty} : Shallow s t → Shallow s (.array t)
  | declared {c : ClassId} {d : ClassDecl} {args : List Ty} : s.class? c = some d →
      (∀ e gs, Climbs s.supertypes (.declared c (d.params.map .var)) (.declared e gs) →
        ∀ g ∈ gs, (∃ v, g = .var v) ∨
          ∀ v ∈ g.vars, (Ty.ofParams d.params args v).isWildcard = false) →
      (∀ t ∈ args, t.isWildcard = true → Shallow s t) → Shallow s (.declared c args)
  | wildcard {upper lower : Option Ty} : (∀ t ∈ upper, Shallow s t) → (∀ t ∈ lower, Shallow s t) →
      Shallow s (.wildcard upper lower)

variable {s : ClassTable} {vars : List TypeVarId} {c e : ClassId} {args more as : List Ty}
  {t u : Ty} {up low : Option Ty} {σ : TypeVarId → Ty}

namespace Saturated

theorem takes (h : s.Saturated (.declared c args)) : s.Takes c args := by
  cases h
  assumption

theorem of_mem (h : s.Saturated (.declared c args)) (ht : t ∈ args) : s.Saturated t := by
  cases h with
  | declared _ hargs _ => exact hargs t ht

theorem isReference_of_mem (h : s.Saturated (.declared c args)) (ht : t ∈ args) :
    t.isReference = true := by
  cases h with
  | declared _ _ hrefs => exact hrefs t ht

theorem upper (h : s.Saturated (.wildcard (some t) low)) : s.Saturated t ∧ t.isBound = true := by
  cases h with
  | wildcard hupper _ hbound _ => exact ⟨hupper t rfl, hbound t rfl⟩

theorem lower (h : s.Saturated (.wildcard up (some t))) : s.Saturated t ∧ t.isBound = true := by
  cases h with
  | wildcard _ hlower _ hbound => exact ⟨hlower t rfl, hbound t rfl⟩

/-- Reference types that are no wildcards are bounds. -/
theorem isBound_of_reference (h : s.Saturated t) (href : t.isReference = true)
    (hw : t.isWildcard = false) : t.isBound = true := by
  cases h with
  | primitive p => cases href
  | wildcard => cases hw
  | _ => rfl

/-- Putting saturated references into a type with reference arguments. -/
theorem of_subst (h : s.FullyApplied vars t) (hrefs : t.referenceArgs = true)
    (hσ : ∀ v ∈ vars, s.Saturated (σ v)) (hσr : ∀ v ∈ vars, (σ v).isReference = true) :
    s.Saturated (t.subst σ) := by
  induction h with
  | primitive p => exact .primitive p
  | array _ ih => exact .array (ih hrefs)
  | var hv => exact hσ _ hv
  | @declared c d args hd hlen hargs ih =>
    simp only [Ty.referenceArgs, Ty.referenceArgsList_eq_all, Bool.and_eq_true,
      List.all_eq_true] at hrefs
    rw [Ty.subst, Ty.substList_eq_map]
    refine .declared ⟨d, hd, by simpa using hlen⟩ (fun u hu => ?_) fun u hu => ?_
    · obtain ⟨t, ht, rfl⟩ := List.mem_map.1 hu
      exact ih t ht (hrefs.2 t ht)
    · obtain ⟨t, ht, rfl⟩ := List.mem_map.1 hu
      exact Ty.isReference_subst (hrefs.1 t ht) fun v hv => hσr v ((hargs t ht).vars_subset hv)

/-- Types without wildcards are saturated when their arguments are references. -/
theorem of_fullyApplied (h : s.FullyApplied [] t) (hrefs : t.referenceArgs = true) :
    s.Saturated t := by
  rw [← Ty.subst_var_self t]
  exact of_subst h hrefs (by simp) (by simp)

end Saturated

namespace Shallow

theorem upper (h : s.Shallow (.wildcard (some t) low)) : s.Shallow t := by
  cases h with
  | wildcard hupper _ => exact hupper t rfl

theorem lower (h : s.Shallow (.wildcard up (some t))) : s.Shallow t := by
  cases h with
  | wildcard _ hlower => exact hlower t rfl

theorem of_mem (h : s.Shallow (.declared c args)) (ht : t ∈ args) (hw : t.isWildcard = true) :
    s.Shallow t := by
  cases h with
  | declared _ _ hargs => exact hargs t ht hw

/-- Types without wildcards are shallow. -/
theorem of_fullyApplied (h : s.FullyApplied [] t) : s.Shallow t := by
  induction h with
  | primitive p => exact .primitive p
  | array _ ih => exact .array ih
  | var h => cases h
  | @declared c d args hd hlen hargs ih =>
    refine .declared hd (fun e gs _ g _ => .inr fun v _ => ?_) fun t ht _ => ih t ht
    rcases Ty.ofParams_mem_or_eq d.params args v with hmem | heq
    · exact (hargs _ hmem).not_wildcard
    · rw [heq]
      rfl

end Shallow

namespace Regular

variable (hs : s.Regular)

include hs

theorem saturated_object : s.Saturated ClassId.object.ty :=
  .of_fullyApplied hs.fullyApplied_object rfl

theorem saturated_of_mem_supertypes (hrefs : s.ReferenceArgs) (h : s.Saturated (.declared c args))
    (hu : u ∈ s.supertypes (.declared c args)) : s.Saturated u := by
  obtain ⟨d, hd, ⟨t, ht, rfl⟩ | ⟨-, rfl⟩⟩ := mem_supertypes_declared_iff.1 hu
  · have hlen := h.takes.length_eq hd
    rw [instantiate_eq_subst hlen]
    exact .of_subst (hs.applied c d hd t ht) (hrefs c d hd t ht)
      (fun v hv => h.of_mem (Ty.ofParams_mem hlen hv))
      fun v hv => h.isReference_of_mem (Ty.ofParams_mem hlen hv)
  · exact hs.saturated_object

/-- **Saturated types climb to saturated types.** -/
theorem saturated_of_climbs (hrefs : s.ReferenceArgs) (h : s.Saturated (.declared c args))
    (hu : Climbs s.supertypes (.declared c args) u) : s.Saturated u := by
  induction hu with
  | refl => exact h
  | tail hclimb hstep ih =>
    obtain ⟨e, as, rfl⟩ := hs.ordered.declared_of_climbs hclimb
    exact hs.saturated_of_mem_supertypes hrefs ih hstep

/-- **Above two uses of a class stand two uses of each class above.** The arguments of these are
arguments of the first two, in the same place, or they are the same, if the class is used in a
shallow way and otherwise only wildcards are replaced. -/
theorem exists_climbs_of_shallow (h : s.Takes c args) (hmore : s.Takes c more)
    (hshallow : s.Shallow (.declared c args))
    (hsame : ∀ pair ∈ args.zip more, pair.1.isWildcard = false → pair.2 = pair.1)
    (ha : Climbs s.supertypes (.declared c args) (.declared e as)) :
    ∃ bs, Climbs s.supertypes (.declared c more) (.declared e bs) ∧ bs.length = as.length ∧
      ∀ pair ∈ as.zip bs, pair ∈ args.zip more ∨ pair.2 = pair.1 := by
  cases hshallow with
  | @declared _ d _ hd hdeep hbounds =>
  have hlen := h.length_eq hd
  have hlen' := hmore.length_eq hd
  by_cases hec : e = c
  · subst hec
    rw [hs.complete.args_eq_of_climbs ha]
    exact ⟨more, Relation.ReflTransGen.refl, hlen'.trans hlen.symm, fun pair hpair => .inl hpair⟩
  · obtain ⟨gs, hgs, rfl⟩ := hs.wellScoped.args_eq_map_of_climbs h hd hec ha
    have happ : s.FullyApplied d.params (.declared e gs) :=
      hs.fullyApplied_of_climbs (FullyApplied.of_params hd) hgs
    have hclimb := hs.wellScoped.climbs_instance hmore hd
      (fun heq => hec (Ty.declared.inj heq).1) hgs
    rw [Ty.subst, Ty.substList_eq_map] at hclimb
    refine ⟨_, hclimb, by simp, fun pair hpair => ?_⟩
    rw [List.zip_map', List.mem_map] at hpair
    obtain ⟨g, hg, rfl⟩ := hpair
    have hvars {v : TypeVarId} (hv : v ∈ g.vars) : v ∈ d.params :=
      happ.vars_subset (by simpa [Ty.vars] using ⟨g, hg, hv⟩)
    rcases hdeep e gs hgs g hg with ⟨v, rfl⟩ | hdeep
    · exact .inl (Ty.ofParams_mem_zip hlen hlen' (hvars (by simp [Ty.vars])))
    · refine .inr (Ty.subst_congr fun v hv => ?_)
      exact hsame _ (Ty.ofParams_mem_zip hlen hlen' (hvars hv)) (hdeep v hv)

end Regular

end ClassTable

end Wiring
