import Wiring.Proofs.Hierarchy.Complete
import Wiring.Proofs.TypeSystem.Unfolding
/-!
# Types that name declared classes and variables

A type is declared in a table when every class and every variable it names, at any depth, is. In a
table whose own supertypes and bounds are declared (`SelfContained`) nothing leads out of these
types: neither substitution nor erasure, neither the step to a supertype or a bound nor the unfolding
to concrete bounds.
-/

namespace Wiring

namespace Ty

theorem children_subst (σ : TypeVarId → Ty) {t : Ty} (h : t.kind ≠ .typeVariable) :
    (t.subst σ).children = t.children.map (Ty.subst σ) := by
  cases t with
  | var v => exact absurd rfl h
  | wildcard upper lower => cases upper <;> cases lower <;> rfl
  | _ => simp [subst, children]

end Ty

namespace ClassTable

/-- The class or variable that stands at the top of the type is declared. -/
def Names (s : ClassTable) : Ty → Prop
  | .declared c _ => (s.class? c).isSome
  | .var v => (s.typeVar? v).isSome
  | _ => True

instance (s : ClassTable) : DecidablePred s.Names
  | .declared c _ => inferInstanceAs (Decidable ((s.class? c).isSome = true))
  | .var v => inferInstanceAs (Decidable ((s.typeVar? v).isSome = true))
  | .primitive _ | .array _ | .wildcard .. | .intersection _ => isTrue trivial

/-- Every class and every variable in the type is declared. -/
def Declares (s : ClassTable) (t : Ty) : Prop := ∀ u ∈ t.parts, s.Names u

instance (s : ClassTable) (t : Ty) : Decidable (s.Declares t) :=
  inferInstanceAs (Decidable (∀ u ∈ t.parts, s.Names u))

/-- The supertypes and the bounds that are declared name declared classes and variables only. Of
parameters nothing is asked: one that is no variable of the table stands in none of these types. -/
structure SelfContained (s : ClassTable) : Prop where
  supers : ∀ c d, s.class? c = some d → ∀ t ∈ d.supers, s.Declares t
  bounds : ∀ v d, s.typeVar? v = some d → ∀ t ∈ d.bounds, s.Declares t

variable {s : ClassTable} {c : ClassId} {v : TypeVarId} {d : ClassDecl} {args ts : List Ty}
  {t u : Ty} {σ : TypeVarId → Ty}

theorem declares_iff : s.Declares t ↔ s.Names t ∧ ∀ u ∈ t.children, s.Declares u := by
  unfold Declares
  rw [Ty.parts_eq_children, List.forall_mem_cons, List.forall_mem_flatMap]

@[simp] theorem declares_array_iff : s.Declares (.array t) ↔ s.Declares t := by
  rw [declares_iff]
  simp [Names, Ty.children]

@[simp] theorem declares_declared_iff :
    s.Declares (.declared c args) ↔ (s.class? c).isSome ∧ ∀ t ∈ args, s.Declares t :=
  declares_iff

@[simp] theorem declares_var_iff : s.Declares (.var v) ↔ (s.typeVar? v).isSome := by
  rw [declares_iff]
  simp [Names, Ty.children]

@[simp] theorem declares_wildcard_iff {upper lower : Option Ty} :
    s.Declares (.wildcard upper lower) ↔
      (∀ t ∈ upper, s.Declares t) ∧ ∀ t ∈ lower, s.Declares t := by
  rw [declares_iff]
  simp [Names, Ty.children, or_imp, forall_and]

@[simp] theorem declares_intersection_iff :
    s.Declares (.intersection ts) ↔ ∀ t ∈ ts, s.Declares t := by
  rw [declares_iff]
  simp [Names, Ty.children]

/-! ## Substitution and erasure -/

theorem Declares.subst (h : s.Declares t) (hσ : ∀ v, s.Declares (.var v) → s.Declares (σ v)) :
    s.Declares (t.subst σ) := by
  induction t using Ty.children_induction with
  | h t ih =>
    by_cases hv : t.kind = .typeVariable
    · cases t with
      | var v => exact hσ v h
      | _ => cases hv
    · obtain ⟨hnames, hchildren⟩ := declares_iff.1 h
      refine declares_iff.2 ⟨?_, ?_⟩
      · cases t <;> first | exact hnames | exact absurd rfl hv
      · rw [Ty.children_subst σ hv]
        refine List.forall_mem_map.2 fun u hu => ih u hu (hchildren u hu)

theorem Declares.eraseWith {f : TypeVarId → Ty} (h : s.Declares t)
    (hobject : s.Declares ClassId.object.ty) (hf : ∀ v, s.Declares (.var v) → s.Declares (f v)) :
    s.Declares (t.eraseWith f) := by
  induction t with
  | primitive p => exact h
  | array t ih => simpa [Ty.eraseWith] using ih (declares_array_iff.1 h)
  | declared c args _ => simpa [Ty.eraseWith] using (declares_declared_iff.1 h).1
  | var v => exact hf v h
  | wildcard upper lower ihu _ =>
    cases upper with
    | none => exact hobject
    | some t => exact ihu t rfl ((declares_wildcard_iff.1 h).1 t rfl)
  | intersection ts ih =>
    cases ts with
    | nil => exact hobject
    | cons t ts => exact ih t (by simp) (declares_intersection_iff.1 h t (by simp))

/-! ## The classes known by number -/

namespace Extends

variable (hb : Extends base s)

include hb

theorem declares_ty (h : (base.class? c).isSome) : s.Declares c.ty := by
  obtain ⟨d, hd⟩ := Option.isSome_iff_exists.1 h
  exact declares_declared_iff.2 ⟨by simp [hb.class? hd], by simp⟩

theorem declares_object : s.Declares ClassId.object.ty := hb.declares_ty rfl

theorem declares_box (p : Primitive) : s.Declares p.box.ty :=
  hb.declares_ty (by cases p <;> rfl)

theorem declares_of_mem_arraySupertypes (hu : u ∈ arraySupertypes) : s.Declares u := by
  simp only [arraySupertypes, List.mem_cons, List.not_mem_nil, or_false] at hu
  rcases hu with rfl | rfl | rfl
  · exact hb.declares_object
  · exact hb.declares_ty rfl
  · exact hb.declares_ty rfl

end Extends

/-! ## Supertypes and bounds -/

namespace SelfContained

variable (hb : Extends base s) (hs : s.SelfContained)

include hb hs

theorem declares_varErasure (path : VarPath) (v : TypeVarId) :
    s.Declares (s.varErasure path v) := by
  have hobject := hb.declares_object
  induction hroom : path.room using Nat.strongRecOn generalizing path v with
  | _ room ih =>
    unfold varErasure
    split
    · exact hobject
    · rename_i hv
      cases hd : s.typeVar? v with
      | none => exact hobject
      | some d =>
        obtain ⟨name, bounds⟩ := d
        cases bounds with
        | nil => exact hobject
        | cons t ts =>
          have ht : s.Declares t := hs.bounds v _ hd t (by simp)
          exact ht.eraseWith hobject fun w _ => ih _ (hroom ▸ path.room_push_lt v hv) _ w rfl

theorem declares_erasure (ht : s.Declares t) : s.Declares (s.erasure t) :=
  ht.eraseWith hb.declares_object fun v _ => declares_varErasure hb hs .empty v

theorem declares_instantiate (hargs : ∀ a ∈ args, s.Declares a) (ht : s.Declares t) :
    s.Declares (s.instantiate d args t) := by
  unfold instantiate
  split
  · exact declares_erasure hb hs ht
  · refine ht.subst fun v hv => ?_
    rcases Ty.ofParams_mem_or_eq d.params args v with h | h
    · exact hargs _ h
    · rwa [h]

/-- **Supertypes of declared types are declared.** -/
theorem declares_of_mem_supertypes (ht : s.Declares t) (hu : u ∈ s.supertypes t) :
    s.Declares u := by
  cases t with
  | declared c args =>
    obtain ⟨d, hd, ⟨t, ht', rfl⟩ | ⟨-, rfl⟩⟩ := mem_supertypes_declared_iff.1 hu
    · exact declares_instantiate hb hs (declares_declared_iff.1 ht).2 (hs.supers c d hd t ht')
    · exact hb.declares_object
  | array t => exact hb.declares_of_mem_arraySupertypes hu
  | var v =>
    rw [supertypes] at hu
    split at hu
    · rename_i hd
      exact hs.bounds v _ hd u hu
    · rw [List.mem_singleton.1 hu]
      exact hb.declares_object
  | intersection ts => exact declares_intersection_iff.1 ht u hu
  | primitive _ | wildcard _ _ => cases hu

/-- The queue of a walk keeps to declared types. -/
theorem declares_queue {queue : List Ty} (h : ∀ u ∈ t :: queue, s.Declares u) :
    ∀ u ∈ queue ++ s.supertypes t, s.Declares u := by
  obtain ⟨ht, hq⟩ := List.forall_mem_cons.1 h
  exact List.forall_mem_append.2 ⟨hq, fun u hu => declares_of_mem_supertypes hb hs ht hu⟩

theorem declares_of_bound? (hu : s.bound? v = some u) : s.Declares u := by
  obtain ⟨⟨name, bounds⟩, hd, rfl⟩ := Option.map_eq_some_iff.1 hu
  have hbounds : ∀ t ∈ bounds, s.Declares t := hs.bounds v _ hd
  split
  · exact hb.declares_object
  · exact hbounds _ (by simp_all)
  · exact declares_intersection_iff.2 (by simp_all)

/-! ## Concrete bounds -/

variable {n : Nat} {bounds : List Ty}

theorem declares_of_unfolded (ht : s.Declares t) (h : (s.system n).unfolded t = .ok ts)
    (hu : u ∈ ts) : s.Declares u := by
  cases t with
  | var v =>
    obtain ⟨bound, hbound, rfl⟩ := TypeSystem.unfolded_var_eq_ok_iff.1 h
    rw [List.mem_singleton.1 hu]
    exact declares_of_bound? hb hs hbound
  | intersection ts =>
    cases h
    exact declares_intersection_iff.1 ht u hu
  | wildcard upper lower =>
    obtain ⟨hupper, hlower⟩ := declares_wildcard_iff.1 ht
    cases upper with
    | none =>
      cases lower with
      | none =>
        cases h
        rw [List.mem_singleton.1 hu]
        exact hb.declares_object
      | some l =>
        cases h
        rw [List.mem_singleton.1 hu]
        exact hlower l rfl
    | some t =>
      cases lower with
      | none =>
        cases h
        rw [List.mem_singleton.1 hu]
        exact hupper t rfl
      | some l => cases h
  | _ =>
    cases h
    rwa [List.mem_singleton.1 hu]

/-- **The concrete bounds of declared types are declared.** -/
theorem declares_of_concreteBounds (ht : s.Declares t)
    (h : (s.system n).concreteBounds t = .ok bounds) : ∀ b ∈ bounds, s.Declares b := by
  have hbounded := TypeSystem.boundedBy_of_concreteBounds rfl h
  clear h
  induction hbounded with
  | concrete _ => simpa using ht
  | unfold _ hts _ ih =>
    intro b hmem
    obtain ⟨u, hu, hmem⟩ := List.mem_flatMap.1 hmem
    exact ih u hu (declares_of_unfolded hb hs ht hts hu) b hmem

end SelfContained

end ClassTable

end Wiring
