import Wiring.Proofs.Hierarchy.Declared
/-!
# What further declarations leave as it was

A declaration is known by its place, so a later one, even of the same name, does not touch it
(`Extends.class?_eq`, `Extends.typeVar?_eq`). In a self-contained table the walks from declared types
come to declared types only, and so find what they found before: erasure, supertypes, closures,
concrete bounds and names stay.
-/

namespace Wiring.ClassTable

variable {s s' : ClassTable} {c : ClassId} {v : TypeVarId} {t u : Ty} {args ts : List Ty}

namespace Extends

variable (hx : Extends s s')

include hx

theorem class?_eq (hc : (s.class? c).isSome) : s'.class? c = s.class? c := by
  obtain ⟨d, hd⟩ := Option.isSome_iff_exists.1 hc
  rw [hd, hx.class? hd]

theorem typeVar?_eq (hv : (s.typeVar? v).isSome) : s'.typeVar? v = s.typeVar? v := by
  obtain ⟨d, hd⟩ := Option.isSome_iff_exists.1 hv
  rw [hd, hx.typeVar? hd]

theorem bound?_eq (hv : s.Declares (.var v)) : s'.bound? v = s.bound? v := by
  rw [bound?, bound?, hx.typeVar?_eq (declares_var_iff.1 hv)]

end Extends

/-! ## What depends on classes and variables through a function of them -/

namespace Declares

theorem eraseWith_congr {f g : TypeVarId → Ty} (ht : s.Declares t)
    (hfg : ∀ v, s.Declares (.var v) → f v = g v) : t.eraseWith f = t.eraseWith g := by
  induction t with
  | primitive p | declared c args _ => simp [Ty.eraseWith]
  | array t ih => simp [Ty.eraseWith, ih (declares_array_iff.1 ht)]
  | var v => exact hfg v ht
  | wildcard upper lower ihu _ =>
    cases upper with
    | none => rfl
    | some t => exact ihu t rfl ((declares_wildcard_iff.1 ht).1 t rfl)
  | intersection ts ih =>
    cases ts with
    | nil => rfl
    | cons t ts => exact ih t (by simp) (declares_intersection_iff.1 ht t (by simp))

theorem boundsWith_congr {top : Ty} {f g : TypeVarId → Except TypeError (List Ty)}
    (ht : s.Declares t) (hfg : ∀ v, s.Declares (.var v) → f v = g v) :
    Ty.boundsWith top f t = Ty.boundsWith top g t := by
  induction t with
  | primitive p | declared c args _ | array t _ => rfl
  | var v => exact hfg v ht
  | wildcard upper lower ihu ihl =>
    obtain ⟨hupper, hlower⟩ := declares_wildcard_iff.1 ht
    cases upper with
    | none =>
      cases lower with
      | none => rfl
      | some l => exact ihl l rfl (hlower l rfl)
    | some u =>
      cases lower with
      | none => exact ihu u rfl (hupper u rfl)
      | some l => rfl
  | intersection ts ih =>
    have hts := declares_intersection_iff.1 ht
    show Ty.boundsWithList top f ts = Ty.boundsWithList top g ts
    clear ht
    induction ts with
    | nil => rfl
    | cons t ts ihts =>
      rw [Ty.boundsWithList, Ty.boundsWithList, ih t (by simp) (hts t (by simp)),
        ihts (fun u hu => ih u (by simp [hu])) fun u hu => hts u (by simp [hu])]

theorem render_congr {classText classText' : ClassId → String}
    {varText varText' : TypeVarId → String} (ht : s.Declares t)
    (hclass : ∀ c, (s.class? c).isSome → classText c = classText' c)
    (hvar : ∀ v, s.Declares (.var v) → varText v = varText' v) :
    t.render classText varText = t.render classText' varText' := by
  have hrest {sep : String} {ts : List Ty}
      (h : ∀ t ∈ ts, t.render classText varText = t.render classText' varText') :
      Ty.renderRest classText varText sep ts = Ty.renderRest classText' varText' sep ts := by
    induction ts with
    | nil => rfl
    | cons t ts ih =>
      rw [Ty.renderRest, Ty.renderRest, h t (by simp), ih fun u hu => h u (by simp [hu])]
  have hbound {keyword : String} {o : Option Ty}
      (h : ∀ t ∈ o, t.render classText varText = t.render classText' varText') :
      Ty.renderBound classText varText keyword o =
        Ty.renderBound classText' varText' keyword o := by
    cases o with
    | none => rfl
    | some t => rw [Ty.renderBound, Ty.renderBound, h t rfl]
  induction t with
  | primitive p => simp [Ty.render]
  | array t ih => rw [Ty.render, Ty.render, ih (declares_array_iff.1 ht)]
  | declared c args ih =>
    obtain ⟨hc, hargs⟩ := declares_declared_iff.1 ht
    cases args with
    | nil => simpa [Ty.render] using hclass c hc
    | cons a args =>
      rw [Ty.render, Ty.render, hclass c hc, ih a (by simp) (hargs a (by simp)),
        hrest fun t ht => ih t (by simp [ht]) (hargs t (by simp [ht]))]
  | var v => simpa [Ty.render] using hvar v ht
  | wildcard upper lower ihu ihl =>
    obtain ⟨hupper, hlower⟩ := declares_wildcard_iff.1 ht
    rw [Ty.render, Ty.render, hbound fun t ht => ihu t ht (hupper t ht),
      hbound fun t ht => ihl t ht (hlower t ht)]
  | intersection ts ih =>
    have hts := declares_intersection_iff.1 ht
    cases ts with
    | nil => simp [Ty.render]
    | cons t ts =>
      rw [Ty.render, Ty.render, ih t (by simp) (hts t (by simp)),
        hrest fun u hu => ih u (by simp [hu]) (hts u (by simp [hu]))]

end Declares

/-- **Names stay.** -/
theorem Extends.nameOf_eq (hx : Extends s s') (ht : s.Declares t) : s'.nameOf t = s.nameOf t := by
  refine ht.render_congr (s := s) (fun c hc => ?_) fun v hv => ?_
  · rw [classText, classText, hx.class?_eq hc]
  · rw [varText, varText, hx.typeVar?_eq (declares_var_iff.1 hv)]

namespace SelfContained

variable (hb : Extends base s) (hs : s.SelfContained) (hx : Extends s s')

/-! ## Erasure and supertypes -/

section

include hs hx

theorem varErasure_eq (path : VarPath) (hv : s.Declares (.var v)) :
    s'.varErasure path v = s.varErasure path v := by
  induction hroom : path.room using Nat.strongRecOn generalizing path v with
  | _ room ih =>
    rw [varErasure, varErasure, hx.typeVar?_eq (declares_var_iff.1 hv)]
    split
    · rfl
    · rename_i hmem
      cases hd : s.typeVar? v with
      | none => rfl
      | some d =>
        obtain ⟨name, bounds⟩ := d
        cases bounds with
        | nil => rfl
        | cons t ts =>
          have ht : s.Declares t := hs.bounds v _ hd t (by simp)
          exact ht.eraseWith_congr fun w hw => ih _ (hroom ▸ path.room_push_lt v hmem) _ hw rfl

/-- **Erasure stays.** -/
theorem erasure_eq (ht : s.Declares t) : s'.erasure t = s.erasure t :=
  ht.eraseWith_congr fun _ hv => varErasure_eq hs hx .empty hv

/-- **Supertypes stay.** -/
theorem supertypes_eq (ht : s.Declares t) : s'.supertypes t = s.supertypes t := by
  cases t with
  | declared c args =>
    obtain ⟨d, hd⟩ := Option.isSome_iff_exists.1 (declares_declared_iff.1 ht).1
    have hsupers : d.supers.map (s'.instantiate d args) = d.supers.map (s.instantiate d args) := by
      refine List.map_congr_left fun t ht => ?_
      unfold instantiate
      split
      · exact erasure_eq hs hx (hs.supers c d hd t ht)
      · rfl
    rw [supertypes_declared hd, supertypes_declared (hx.class? hd), declaredSupertypes_eq,
      declaredSupertypes_eq, hsupers]
  | var v =>
    rw [supertypes, supertypes, hx.typeVar?_eq (declares_var_iff.1 ht)]
  | _ => rfl

end

/-! ## Closures and concrete bounds -/

variable {n n' : Nat}

include hb hs hx

theorem closureWalk_eq (fuel : Nat) (queue seen : List Ty) (hq : ∀ t ∈ queue, s.Declares t) :
    (s'.system n').closureWalk fuel queue seen = (s.system n).closureWalk fuel queue seen := by
  induction fuel generalizing queue seen with
  | zero => cases queue <;> rfl
  | succ fuel ih =>
    cases queue with
    | nil => rfl
    | cons t queue =>
      have hnext := ih _ (seen ++ [t]) (declares_queue hb hs hq)
      obtain ⟨ht, hq⟩ := List.forall_mem_cons.1 hq
      have hsupers : (s'.system n').supertypes t = s.supertypes t := supertypes_eq hs hx ht
      simp only [TypeSystem.closureWalk, hsupers, ih _ _ hq, hnext]
      rfl

/-- **Closures stay**, for every number of steps. -/
theorem closure?_eq (fuel : Nat) (ht : s.Declares t) :
    (s'.system n').closure? fuel t = (s.system n).closure? fuel t :=
  closureWalk_eq hb hs hx fuel [t] [] (by simpa using ht)

theorem varBounds_eq (path : VarPath) (hv : s.Declares (.var v)) :
    (s'.system n').varBounds path v = (s.system n).varBounds path v := by
  induction hroom : path.room using Nat.strongRecOn generalizing path v with
  | _ room ih =>
    have hbound : (s'.system n').bound? v = (s.system n).bound? v := hx.bound?_eq hv
    rw [TypeSystem.varBounds, TypeSystem.varBounds, hbound]
    split
    · rfl
    · rename_i hmem
      split
      · rfl
      · rename_i bound hbound
        have ht : s.Declares bound := declares_of_bound? hb hs hbound
        exact ht.boundsWith_congr fun w hw => ih _ (hroom ▸ path.room_push_lt v hmem) _ hw rfl

/-- **Concrete bounds stay.** -/
theorem concreteBounds_eq (ht : s.Declares t) :
    (s'.system n').concreteBounds t = (s.system n).concreteBounds t :=
  ht.boundsWith_congr fun _ hv => varBounds_eq hb hs hx .empty hv

end SelfContained

end Wiring.ClassTable
