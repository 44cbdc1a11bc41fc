import Mathlib.Tactic.Choose
import Wiring.Proofs.Faults
import Wiring.TypeSystem.Assignable
import Wiring.TypeSystem.Relations
/-!
# Comparing bounds

Two lists of types are compared by their concrete bounds. A type that unfolds to arrays and class
types (`TypeSystem.HasBounds`) is never at fault there.
-/

namespace Wiring

namespace Ty

/-- An array or a class type: what bounds a wildcard. -/
def isBound : Ty → Bool
  | .array _ | .declared .. => true
  | .primitive _ | .var _ | .wildcard .. | .intersection _ => false

theorem isConcrete_of_isBound {t : Ty} (h : t.isBound = true) : t.isConcrete = true := by
  cases t with
  | array _ | declared _ _ => rfl
  | _ => cases h

section

variable {top : Ty} {varBounds : TypeVarId → Except TypeError (List Ty)} {ts bounds : List Ty}

@[simp] theorem boundsWithList_singleton (t : Ty) :
    boundsWithList top varBounds [t] = boundsWith top varBounds t := by
  rw [boundsWithList]
  cases h : boundsWith top varBounds t <;>
    simp [boundsWithList, bind, Except.bind, pure, Except.pure]

theorem boundsWithList_of_forall {f : Ty → List Ty}
    (h : ∀ t ∈ ts, boundsWith top varBounds t = .ok (f t)) :
    boundsWithList top varBounds ts = .ok (ts.flatMap f) := by
  induction ts with
  | nil => rfl
  | cons t ts ih =>
    rw [boundsWithList, h t (by simp), ih fun u hu => h u (by simp [hu])]
    rfl

/-- The bounds of a list are those of its members, one after the other. -/
theorem boundsWithList_eq_ok_iff : boundsWithList top varBounds ts = .ok bounds ↔
    ∃ f : Ty → List Ty, (∀ t ∈ ts, boundsWith top varBounds t = .ok (f t)) ∧
      ts.flatMap f = bounds := by
  constructor
  · intro h
    have hall : ∀ t ∈ ts, ∃ bs, boundsWith top varBounds t = .ok bs := by
      induction ts generalizing bounds with
      | nil => simp
      | cons t ts ih =>
        obtain ⟨bs, hbs, h⟩ := bind_eq_ok.1 h
        obtain ⟨rest, hrest, -⟩ := bind_eq_ok.1 h
        exact List.forall_mem_cons.2 ⟨⟨bs, hbs⟩, ih hrest⟩
    choose! f hf using hall
    exact ⟨f, hf, Except.ok.inj ((boundsWithList_of_forall hf).symm.trans h)⟩
  · rintro ⟨f, hf, rfl⟩
    exact boundsWithList_of_forall hf

/-- The bounds of a list fail with the fault of the first member that has one. -/
theorem boundsWithList_eq_error_iff {e : TypeError} : boundsWithList top varBounds ts = .error e ↔
    FailsFirst (boundsWith top varBounds) ts e := by
  induction ts with
  | nil => simp [boundsWithList, FailsFirst.not_nil]
  | cons t ts ih =>
    have hrest (bs : List Ty) : ((do
        let rest ← boundsWithList top varBounds ts
        return bs ++ rest) = .error e) ↔ FailsFirst (boundsWith top varBounds) ts e := by
      rw [bind_eq_error, ih]
      simp [pure, Except.pure]
    rw [boundsWithList, bind_eq_error, FailsFirst.cons_iff]
    simp only [hrest, exists_and_right]

theorem boundsWithList_of_isConcrete (h : ∀ t ∈ ts, t.isConcrete = true) (top : Ty)
    (varBounds : TypeVarId → Except TypeError (List Ty)) :
    boundsWithList top varBounds ts = .ok ts := by
  have hself : ∀ t ∈ ts, boundsWith top varBounds t = .ok [t] := fun t ht =>
    boundsWith_of_isConcrete (h t ht) top varBounds
  simpa using boundsWithList_of_forall hself

end

end Ty

namespace TypeSystem

variable {sys : TypeSystem} {t u b : Ty} {ts us bounds bounds' : List Ty}

/-- The type unfolds to arrays and class types. -/
def HasBounds (sys : TypeSystem) (t : Ty) : Prop :=
  ∃ bounds, sys.concreteBounds t = .ok bounds ∧ ∀ b ∈ bounds, b.isBound = true

/-! ## Concrete bounds -/

theorem concreteBoundsList_eq (sys : TypeSystem) (ts : List Ty) :
    sys.concreteBoundsList ts = Ty.boundsWithList sys.top (sys.varBounds .empty) ts := by
  unfold concreteBoundsList
  split
  · rename_i h
    rw [List.all_eq_true] at h
    exact (Ty.boundsWithList_of_isConcrete h _ _).symm
  · rfl

@[simp] theorem concreteBoundsList_nil (sys : TypeSystem) : sys.concreteBoundsList [] = .ok [] :=
  rfl

theorem concreteBoundsList_cons (sys : TypeSystem) (t : Ty) (ts : List Ty) :
    sys.concreteBoundsList (t :: ts) = do
      return (← sys.concreteBounds t) ++ (← sys.concreteBoundsList ts) := by
  rw [concreteBoundsList_eq, concreteBoundsList_eq, Ty.boundsWithList]
  rfl

@[simp] theorem concreteBoundsList_singleton (sys : TypeSystem) (t : Ty) :
    sys.concreteBoundsList [t] = sys.concreteBounds t := by
  rw [concreteBoundsList_eq, Ty.boundsWithList_singleton, concreteBounds]

/-- The concrete bounds of a list are those of its members, one after the other. -/
theorem concreteBoundsList_eq_ok_iff : sys.concreteBoundsList ts = .ok bounds ↔
    ∃ f : Ty → List Ty, (∀ t ∈ ts, sys.concreteBounds t = .ok (f t)) ∧ ts.flatMap f = bounds := by
  rw [concreteBoundsList_eq]
  exact Ty.boundsWithList_eq_ok_iff

theorem concreteBoundsList_eq_error_iff {e : TypeError} :
    sys.concreteBoundsList ts = .error e ↔ FailsFirst sys.concreteBounds ts e := by
  rw [concreteBoundsList_eq]
  exact Ty.boundsWithList_eq_error_iff

theorem concreteBoundsList_of_isConcrete (h : ∀ t ∈ ts, t.isConcrete = true) :
    sys.concreteBoundsList ts = .ok ts := by
  rw [concreteBoundsList_eq]
  exact Ty.boundsWithList_of_isConcrete h _ _

theorem exists_concreteBoundsList_iff : (∃ bounds, sys.concreteBoundsList ts = .ok bounds) ↔
    ∀ t ∈ ts, ∃ own, sys.concreteBounds t = .ok own := by
  simp only [concreteBoundsList_eq_ok_iff]
  constructor
  · rintro ⟨_, f, hf, -⟩ t ht
    exact ⟨f t, hf t ht⟩
  · intro h
    choose! f hf using h
    exact ⟨_, f, hf, rfl⟩

theorem mem_concreteBoundsList_iff (h : sys.concreteBoundsList ts = .ok bounds) :
    b ∈ bounds ↔ ∃ t ∈ ts, ∃ own, sys.concreteBounds t = .ok own ∧ b ∈ own := by
  obtain ⟨f, hf, rfl⟩ := concreteBoundsList_eq_ok_iff.1 h
  rw [List.mem_flatMap]
  refine exists_congr fun t => and_congr_right fun ht => ?_
  simp [hf t ht]

theorem concreteBoundsList_subset (hsub : ts ⊆ us) (hts : sys.concreteBoundsList ts = .ok bounds)
    (hus : sys.concreteBoundsList us = .ok bounds') : bounds ⊆ bounds' := by
  intro b hb
  obtain ⟨t, ht, hown⟩ := (mem_concreteBoundsList_iff hts).1 hb
  exact (mem_concreteBoundsList_iff hus).2 ⟨t, hsub ht, hown⟩

theorem concreteBoundsList_append (ts us : List Ty) : sys.concreteBoundsList (ts ++ us) =
    do return (← sys.concreteBoundsList ts) ++ (← sys.concreteBoundsList us) := by
  induction ts with
  | nil => cases h : sys.concreteBoundsList us <;> simp [h, bind, Except.bind, pure, Except.pure]
  | cons t ts ih =>
    rw [List.cons_append, concreteBoundsList_cons, concreteBoundsList_cons, ih]
    cases sys.concreteBounds t with
    | error e => rfl
    | ok _ =>
      cases sys.concreteBoundsList ts with
      | error e => rfl
      | ok _ =>
        cases sys.concreteBoundsList us with
        | error e => rfl
        | ok _ => simp [bind, Except.bind, pure, Except.pure]

/-- A variable that is not on the path yet has the concrete bounds of its bound. -/
theorem varBounds_of_bound? {path : VarPath} {v : TypeVarId} {bound : Ty} (hv : v ∉ path.vars)
    (hbound : sys.bound? v = some bound) : sys.varBounds path v =
      Ty.boundsWith sys.top (sys.varBounds (path.push v hv)) bound := by
  rw [varBounds, dif_neg hv, hbound]

/-- A variable that is bounded by a concrete type. -/
theorem concreteBounds_var {v : TypeVarId} {bound : Ty} (hv : sys.bound? v = some bound)
    (hc : bound.isConcrete = true) : sys.concreteBounds (.var v) = .ok [bound] := by
  rw [concreteBounds, Ty.boundsWith, varBounds_of_bound? List.not_mem_nil hv]
  exact Ty.boundsWith_of_isConcrete hc _ _

/-- An array or class type is its own bound. -/
theorem HasBounds.of_isBound (h : t.isBound = true) : sys.HasBounds t := by
  exact ⟨[t], concreteBounds_of_isConcrete sys (Ty.isConcrete_of_isBound h), by simpa using h⟩

theorem HasBounds.concreteBoundsList (h : ∀ t ∈ ts, sys.HasBounds t) :
    ∃ bounds, sys.concreteBoundsList ts = .ok bounds ∧ ∀ b ∈ bounds, b.isBound = true := by
  obtain ⟨bounds, hbounds⟩ := exists_concreteBoundsList_iff.2 fun t ht =>
    (h t ht).imp fun _ hown => hown.1
  refine ⟨bounds, hbounds, fun b hb => ?_⟩
  obtain ⟨t, ht, own, hown, hb⟩ := (mem_concreteBoundsList_iff hbounds).1 hb
  obtain ⟨own', hown', hall⟩ := h t ht
  rw [hown] at hown'
  cases hown'
  exact hall b hb

/-- Concrete bounds depend on the bounds of variables and the top type only. -/
theorem varBounds_congr {sys' : TypeSystem} (hbound : sys.bound? = sys'.bound?)
    (htop : sys.top = sys'.top) (path : VarPath) (v : TypeVarId) :
    sys.varBounds path v = sys'.varBounds path v := by
  induction hroom : path.room using Nat.strongRecOn generalizing path v with
  | _ room ih =>
    rw [varBounds, varBounds, hbound]
    split
    · rfl
    · rename_i hv
      split
      · rfl
      · have hvars : (fun w => sys.varBounds (path.push v hv) w) =
            fun w => sys'.varBounds (path.push v hv) w := by
          funext w
          exact ih _ (hroom ▸ path.room_push_lt v hv) _ w rfl
        rw [hvars, htop]

theorem concreteBounds_congr {sys' : TypeSystem} (hbound : sys.bound? = sys'.bound?)
    (htop : sys.top = sys'.top) (t : Ty) : sys.concreteBounds t = sys'.concreteBounds t := by
  have hvars : sys.varBounds .empty = sys'.varBounds .empty :=
    funext fun v => varBounds_congr hbound htop .empty v
  rw [concreteBounds, concreteBounds, hvars, htop]

theorem concreteBoundsList_congr {sys' : TypeSystem}
    (h : ∀ t ∈ ts, sys.concreteBounds t = sys'.concreteBounds t) :
    sys.concreteBoundsList ts = sys'.concreteBoundsList ts := by
  induction ts with
  | nil => rw [concreteBoundsList_nil, concreteBoundsList_nil]
  | cons t ts ih =>
    obtain ⟨ht, hts⟩ := List.forall_mem_cons.1 h
    rw [concreteBoundsList_cons, concreteBoundsList_cons, ht, ih hts]

theorem isUnboundedOrTop_congr {sys' : TypeSystem} (htop : ∀ u, sys.isTop u = sys'.isTop u)
    (h : sys.concreteBounds t = sys'.concreteBounds t) :
    sys.isUnboundedOrTop t = sys'.isUnboundedOrTop t := by
  have hvar : sys.isUnboundedVar t = sys'.isUnboundedVar t := by
    cases t with
    | var v => simp only [isUnboundedVar, h, htop]
    | _ => rfl
  rw [isUnboundedOrTop, isUnboundedOrTop, htop, hvar]

/-! ## One bound against one -/

theorem requireBound_eq_ok_iff (hc : t.isConcrete = true) :
    requireBound t = .ok () ↔ t.isReference = true := by
  cases t <;> simp [requireBound, Ty.isReference, Ty.isConcrete] at hc ⊢

theorem requireBound_of_isBound (h : t.isBound = true) : requireBound t = .ok () := by
  cases t with
  | array _ | declared _ _ => rfl
  | _ => cases h

/-- Arrays and class types are never at fault. -/
theorem boundAssignable_of_isBound (ht : t.isBound = true) (hu : u.isBound = true) :
    sys.boundAssignable t u = .ok (t == u || sys.isAssignable u t) := by
  rw [boundAssignable, requireBound_of_isBound ht, requireBound_of_isBound hu]
  rfl

theorem boundAssignable_eq_true_iff (ht : t.isConcrete = true) (hu : u.isConcrete = true) :
    sys.boundAssignable t u = .ok true ↔
      t.isReference = true ∧ u.isReference = true ∧ (t = u ∨ sys.isAssignable u t = true) := by
  rw [← requireBound_eq_ok_iff ht, ← requireBound_eq_ok_iff hu, boundAssignable, bind_eq_ok]
  constructor
  · rintro ⟨_, hrt, h⟩
    obtain ⟨_, hru, h⟩ := bind_eq_ok.1 h
    exact ⟨hrt, hru, by simpa [pure, Except.pure] using h⟩
  · rintro ⟨hrt, hru, h⟩
    exact ⟨(), hrt, bind_eq_ok.2 ⟨(), hru, by simpa [pure, Except.pure] using h⟩⟩

/-- One concrete bound against one. -/
theorem boundsAssignable_singleton (ht : t.isConcrete = true) (hu : u.isConcrete = true) :
    sys.boundsAssignable [t] [u] = sys.boundAssignable t u := by
  have hbounds {v : Ty} (hv : v.isConcrete = true) : sys.concreteBoundsList [v] = .ok [v] := by
    simp [concreteBoundsList, hv]
  simp only [boundsAssignable, hbounds ht, hbounds hu]
  cases h : sys.boundAssignable t u with
  | error e => simp [List.allM, List.anyM, h, bind, Except.bind]
  | ok b => cases b <;> simp [List.allM, List.anyM, h, bind, Except.bind, pure, Except.pure]

/-- A type with one concrete bound is compared by that. -/
theorem boundsAssignable_of_concreteBounds {bound : Ty} (ht : sys.concreteBounds t = .ok [bound])
    (hb : bound.isConcrete = true) (us : List Ty) :
    sys.boundsAssignable [t] us = sys.boundsAssignable [bound] us := by
  rw [boundsAssignable, boundsAssignable, concreteBoundsList_singleton,
    concreteBoundsList_singleton, ht, concreteBounds_of_isConcrete sys hb]

end TypeSystem

end Wiring
