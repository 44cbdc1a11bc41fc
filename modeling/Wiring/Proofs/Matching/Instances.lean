import Wiring.Proofs.Matching.Erasure
import Wiring.Proofs.Matching.Ground
import Wiring.Proofs.Subtyping.OneStep
import Wiring.Proofs.Ty.Parts
import Wiring.Proofs.Ty.Places
import Wiring.Proofs.TypeSystem.Bounds
/-!
# Offered types with variables

A required type without variables and wildcards accepts an offered type that fits it place by place:
each argument is compared by itself, and where the offered one is a variable, what is required in
its place must be within the variable's bounds (`fits_of_accepts`). Nothing is remembered from one
argument to the next, so a variable may meet different types, and then no substitution leads from
the offered type to the required one (`accepts_without_substitution`).
-/

namespace Wiring

/-- A class has arguments just if it declares parameters: the type is no raw use of a generic
class, and no class without parameters is given any arguments. -/
def ClassTable.UsedAsDeclared (s : ClassTable) : Ty → Prop
  | .declared c args => args = [] ↔ s.isGeneric c = false
  | _ => True

instance (s : ClassTable) : DecidablePred s.UsedAsDeclared
  | .declared c args => inferInstanceAs (Decidable (args = [] ↔ s.isGeneric c = false))
  | .primitive _ | .array _ | .var _ | .wildcard .. | .intersection _ => isTrue trivial

/-- What stands in the places of the type's variables is within their bounds. -/
def Ty.FitsWithin (sys : TypeSystem) (pattern target : Ty) : Prop :=
  pattern.Fits target ∧
    ∀ place ∈ pattern.places target, sys.boundsAssignable [.var place.1] [place.2] = .ok true

theorem Ty.FitsWithin.same {sys : TypeSystem} {t : Ty} (h : t.vars = []) : t.FitsWithin sys t :=
  ⟨.same h, by simp [Ty.places_eq_nil h]⟩

namespace Policy

variable {s : ClassTable} {fuel : Nat} {policy : Policy} {sys : TypeSystem}
  {receiver payload : Ty} {c : ClassId} {rs ps : List Ty}

theorem argumentAccepts_of_argumentsAccept (h : policy.argumentsAccept sys rs ps = .ok true) :
    ∀ pair ∈ ps.zip rs, policy.argumentAccepts sys pair.2 pair.1
      (fun _ => policy.accepts sys pair.2 pair.1) = .ok true := by
  induction rs generalizing ps with
  | nil => simp
  | cons r rs ih =>
    cases ps with
    | nil => simp
    | cons p ps =>
      rw [argumentsAccept_cons, bind_eq_ok] at h
      obtain ⟨fits, hfits, h⟩ := h
      cases fits with
      | true => exact List.forall_mem_cons.2 ⟨hfits, ih h⟩
      | false => cases h

/-- A variable is offered for what is within its bounds; other arguments are compared as types. -/
theorem fitsWithin_of_argumentAccepts {asTypes : Unit → Except TypeError Bool}
    (hvars : receiver.vars = []) (hwild : receiver.isWildcard = false)
    (h : Policy.injection.argumentAccepts (s.system fuel) receiver payload asTypes = .ok true)
    (htypes : receiver.dropArgs = payload.dropArgs → asTypes () = .ok true →
      payload.FitsWithin (s.system fuel) receiver) :
    payload.FitsWithin (s.system fuel) receiver := by
  have hactual (h : (if (s.system fuel).sameRawForm receiver payload then
        if receiver.yieldsRaw || payload.yieldsRaw then asTypes () else .ok true
      else .ok false) = .ok true) : payload.FitsWithin (s.system fuel) receiver := by
    split at h
    · rename_i hraw
      rw [s.sameRawForm_iff] at hraw
      split at h
      · exact htypes hraw h
      · rename_i hyields
        rw [Bool.not_eq_true, Bool.or_eq_false_iff] at hyields
        rw [Ty.dropArgs_eq_self hyields.1, Ty.dropArgs_eq_self hyields.2] at hraw
        rw [← hraw]
        exact .same hvars
    · cases h
  cases receiver with
  | var v => cases hvars
  | wildcard _ _ => cases hwild
  | intersection _ => cases h
  | _ =>
    cases payload with
    | var v => exact ⟨.var v _, List.forall_mem_singleton.2 h⟩
    | _ => exact hactual h

theorem fitsWithin_of_arguments (hlen : rs.length = ps.length)
    (h : ∀ pair ∈ ps.zip rs, pair.1.FitsWithin sys pair.2) :
    (Ty.declared c ps).FitsWithin sys (.declared c rs) := by
  refine ⟨.declared hlen.symm fun pair hpair => (h pair hpair).1, fun place hplace => ?_⟩
  obtain ⟨pair, hpair, hplace⟩ := Ty.mem_places_declared.1 hplace
  exact (h pair hpair).2 place hplace

/-- Where classes are used as they are declared, their arguments are compared one by one. -/
theorem argumentsAccept_of_acceptsArgs (hr : s.UsedAsDeclared (.declared c rs))
    (hp : s.UsedAsDeclared (.declared c ps)) (h : policy.acceptsArgs sys rs ps = .ok true) :
    rs.length = ps.length ∧ policy.argumentsAccept sys rs ps = .ok true := by
  have hnil : rs = [] ↔ ps = [] := Iff.trans hr hp.symm
  cases rs with
  | nil =>
    rw [hnil.1 rfl] at h
    cases h
  | cons r rs =>
    cases ps with
    | nil => cases hnil.2 rfl
    | cons p ps =>
      simp only [acceptsArgs] at h
      split at h
      · rename_i hlen
        exact ⟨hlen, h⟩
      · cases h

/-- Types of one raw form that match fit place by place. -/
theorem fitsWithin_of_accepts (hvars : receiver.vars = [])
    (hwild : ∀ t ∈ receiver.parts, t.isWildcard = false)
    (hr : ∀ t ∈ receiver.parts, s.UsedAsDeclared t) (hp : ∀ t ∈ payload.parts, s.UsedAsDeclared t)
    (hraw : receiver.dropArgs = payload.dropArgs)
    (h : Policy.injection.accepts (s.system fuel) receiver payload = .ok true) :
    payload.FitsWithin (s.system fuel) receiver := by
  -- on the required type: the rules come back to pairs of arguments that have one raw form
  induction receiver generalizing payload with
  | primitive q =>
    cases payload with
    | primitive _ =>
      cases hraw
      exact .same rfl
    | _ => cases hraw
  | array t _ =>
    obtain ⟨-, -, rfl | ⟨-, hshape⟩⟩ := accepts_eq_true h
    · exact .same hvars
    · cases payload with
      | array u =>
        have helement : t.element = u.element :=
          (s.identical_iff fuel _ _).1 (Except.ok.inj hshape)
        rw [← Ty.eq_of_element_eq hraw helement]
        exact .same hvars
      | _ => cases hraw
  | declared c rs ih =>
    obtain ⟨-, -, rfl | ⟨-, hshape⟩⟩ := accepts_eq_true h
    · exact .same hvars
    · cases payload with
      | declared d ps =>
        cases hraw
        by_cases hne : rs = ps
        · subst hne
          exact .same hvars
        · rw [acceptsShape_declared hne] at hshape
          obtain ⟨hlen, hargs⟩ := argumentsAccept_of_acceptsArgs (hr _ (Ty.self_mem_parts _))
            (hp _ (Ty.self_mem_parts _)) hshape
          refine fitsWithin_of_arguments hlen fun pair hpair => ?_
          obtain ⟨hpmem, hrmem⟩ := List.of_mem_zip hpair
          have hvars := Ty.vars_eq_nil_of_mem hvars hrmem
          have hpart {t : Ty} (ht : t ∈ pair.2.parts) : t ∈ (Ty.declared c rs).parts :=
            Ty.mem_parts_declared hrmem ht
          refine fitsWithin_of_argumentAccepts hvars (hwild _ (hpart (by simp)))
            (argumentAccepts_of_argumentsAccept hargs pair hpair) fun hraw haccepts => ?_
          exact ih _ hrmem hvars (fun t ht => hwild t (hpart ht)) (fun t ht => hr t (hpart ht))
            (fun t ht => hp t (Ty.mem_parts_declared hpmem ht)) hraw haccepts
      | _ => cases hraw
  | var v => cases hvars
  | wildcard _ _ _ _ => cases hwild _ (Ty.self_mem_parts _)
  | intersection _ _ => cases (accepts_eq_true h).1

/-- **An offered class type is matched place by place.** It differs from the required type only in
the places of its variables, and what stands in these is within their bounds. A substitution leads
from the offered type to the required one just if it sends each variable to all that stands in its
places; so there is one just if no variable meets two types, as when none is repeated. -/
theorem fits_of_accepts (s : ClassTable) (fuel : Nat) (hrk : receiver.kind = .declared)
    (hpk : payload.kind = .declared) (hvars : receiver.vars = [])
    (hwild : ∀ t ∈ receiver.parts, t.isWildcard = false)
    (hr : ∀ t ∈ receiver.parts, s.UsedAsDeclared t) (hp : ∀ t ∈ payload.parts, s.UsedAsDeclared t)
    (h : Policy.injection.accepts (s.system fuel) receiver payload = .ok true) :
    payload.Fits receiver ∧
    (∀ place ∈ payload.places receiver,
      (s.system fuel).boundsAssignable [.var place.1] [place.2] = .ok true) ∧
    (∀ σ, payload.subst σ = receiver ↔ ∀ place ∈ payload.places receiver, σ place.1 = place.2) ∧
    ((∃ σ, payload.subst σ = receiver) ↔
      ∀ a ∈ payload.places receiver, ∀ b ∈ payload.places receiver, a.1 = b.1 → a.2 = b.2) ∧
    (payload.vars.Nodup → ∃ σ, payload.subst σ = receiver) := by
  have hraw : receiver.dropArgs = payload.dropArgs := by
    cases receiver with
    | declared c rs =>
      cases payload with
      | declared d ps => rw [Ty.dropArgs, Ty.dropArgs, head_eq_of_accepts h]
      | _ => cases hpk
    | _ => cases hrk
  obtain ⟨hfits, hwithin⟩ := fitsWithin_of_accepts hvars hwild hr hp hraw h
  exact ⟨hfits, hwithin, fun σ => hfits.subst_eq_iff, hfits.exists_subst_iff,
    hfits.exists_subst_of_nodup⟩

end Policy

namespace ClassTable

variable {s : ClassTable} {v : TypeVarId}

/-- A variable bounded by the root may be offered for every class type. -/
theorem boundsAssignable_object (fuel : Nat) (hv : s.bound? v = some ClassId.object.ty)
    (c : ClassId) (args : List Ty) :
    (s.system (fuel + 1)).boundsAssignable [.var v] [.declared c args] = .ok true := by
  have hassign : s.assignable? (fuel + 1) (.declared c args) ClassId.object.ty = some true := by
    rw [assignable?_eq, subtype?_object]
    rfl
  have hbounds : (s.system (fuel + 1)).concreteBounds (.var v) = .ok [ClassId.object.ty] :=
    TypeSystem.concreteBounds_var hv rfl
  rw [TypeSystem.boundsAssignable_of_concreteBounds hbounds rfl,
    TypeSystem.boundsAssignable_singleton rfl rfl,
    TypeSystem.boundAssignable_eq_true_iff rfl rfl]
  refine ⟨rfl, rfl, .inr ?_⟩
  simp [system, hassign]

end ClassTable

namespace Policy

/-- Two variables without bounds are offered for `Map<String, Integer>`. -/
theorem accepts_map_vars {v w : TypeVarId}
    (hv : ClassTable.base.bound? v = some ClassId.object.ty)
    (hw : ClassTable.base.bound? w = some ClassId.object.ty) (fuel : Nat) :
    Policy.injection.accepts (ClassTable.base.system (fuel + 1))
      (.declared .map [ClassId.string.ty, ClassId.integer.ty])
      (.declared .map [.var v, .var w]) = .ok true := by
  have hfirst := ClassTable.boundsAssignable_object fuel hv .string []
  have hsecond := ClassTable.boundsAssignable_object fuel hw .integer []
  have hne : [ClassId.string.ty, ClassId.integer.ty] ≠ [.var v, .var w] := by simp [ClassId.ty]
  rw [accepts_of_ne rfl rfl rfl fun h => hne (Ty.declared.inj h).2, acceptsShape_declared hne]
  simp [acceptsArgs, argumentsAccept, argumentAccepts, ClassId.ty, hfirst, hsecond, bind,
    Except.bind]

/-- `Map<K, V>` is offered for `Map<String, Integer>`, and one substitution leads to it. -/
theorem fits_of_accepts_map :
    let r : Ty := .declared .map [ClassId.string.ty, ClassId.integer.ty]
    let p : Ty := .declared .map [.var ⟨7⟩, .var ⟨8⟩]
    Policy.injection.accepts (ClassTable.base.system 4) r p = .ok true ∧
      p.vars.Nodup ∧ ∃ σ, p.subst σ = r := by
  intro r p
  have haccepts : Policy.injection.accepts (ClassTable.base.system 4) r p = .ok true :=
    accepts_map_vars rfl rfl 3
  have hnodup : p.vars.Nodup := by decide
  obtain ⟨-, -, -, -, hlinear⟩ := fits_of_accepts ClassTable.base 4 (rfl : r.kind = .declared)
    (rfl : p.kind = .declared) rfl (by decide) (by decide) (by decide) haccepts
  exact ⟨haccepts, hnodup, hlinear hnodup⟩

/-- A class without parameters that is given an argument is offered for the class itself. -/
theorem accepts_surplus_argument (fuel : Nat) :
    Policy.injection.accepts (ClassTable.base.system fuel) ClassId.string.ty
      (.declared .string [.var ⟨2⟩]) = .ok true := by
  have hne : [] ≠ [Ty.var ⟨2⟩] := by simp
  have hbounds : (ClassTable.base.system fuel).concreteBounds (.var ⟨2⟩) =
      .ok [ClassId.object.ty] := TypeSystem.concreteBounds_var rfl rfl
  have htop : (ClassTable.base.system fuel).isTop ClassId.object.ty = true := rfl
  have hvar : (ClassTable.base.system fuel).isTop (.var ⟨2⟩) = false := rfl
  rw [ClassId.ty, accepts_of_ne rfl rfl rfl fun h => hne (Ty.declared.inj h).2,
    acceptsShape_declared hne]
  simp [acceptsArgs, TypeSystem.isUnboundedOrTop, TypeSystem.isUnboundedVar, hbounds, htop, hvar,
    bind, Except.bind, pure, Except.pure]

/-- **A match need not come from one substitution.** A variable may meet two types: `Map<E, E>` is
offered for `Map<String, Integer>`. And a class may be given an argument for which it declares no
parameter: `String<E>` is offered for `String`. -/
theorem accepts_without_substitution :
    (let r : Ty := .declared .map [ClassId.string.ty, ClassId.integer.ty]
      let p : Ty := .declared .map [.var ⟨2⟩, .var ⟨2⟩]
      Policy.injection.accepts (ClassTable.base.system ClassTable.ampleFuel) r p = .ok true ∧
        ¬ ∃ σ, p.subst σ = r) ∧
    let r : Ty := ClassId.string.ty
    let p : Ty := .declared .string [.var ⟨2⟩]
    Policy.injection.accepts (ClassTable.base.system ClassTable.ampleFuel) r p = .ok true ∧
      ¬ ∃ σ, p.subst σ = r := by
  obtain ⟨fuel, hfuel⟩ : ∃ fuel, ClassTable.ampleFuel = fuel + 1 :=
    Nat.exists_eq_add_one_of_ne_zero (by decide)
  rw [hfuel]
  refine ⟨⟨accepts_map_vars rfl rfl fuel, ?_⟩, accepts_surplus_argument (fuel + 1), ?_⟩
  · rintro ⟨σ, hσ⟩
    simp only [Ty.subst, Ty.substList_eq_map, List.map_cons, Ty.declared.injEq,
      List.cons.injEq] at hσ
    rw [hσ.2.1] at hσ
    exact absurd hσ.2.2.1 (by decide)
  · rintro ⟨σ, hσ⟩
    simp [Ty.subst, ClassId.ty] at hσ

end Policy

end Wiring
