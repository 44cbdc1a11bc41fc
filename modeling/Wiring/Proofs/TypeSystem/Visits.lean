import Wiring.Proofs.Subtyping.Settled
import Wiring.Proofs.TypeSystem.Unfolding
/-!
# The walk that unfolding takes

Unfolding visits the types that take the place of a type one after the other, depth first
(`Visits`). Where chains of bounds do not go round, the walk comes to an end (`exists_visits`), and
the concrete bounds can be read off it (`concreteBounds_eq_gathered`): they are the concrete types
among those visited, or the fault of the first that cannot be unfolded. So the guard against
variables that are reached a second time never answers there (`ClassTable.concreteBounds_laws`).
-/

namespace Wiring

namespace TypeSystem

/-- No variable is met when its own bound is unfolded: chains of bounds, through variables,
intersections and wildcards, do not go round. -/
def AcyclicBounds (sys : TypeSystem) : Prop :=
  ∀ v bound, sys.bound? v = some bound → ¬ sys.Meets bound (.var v)

/-- Unfolding `t` visits the types `us` in this order: each before those that take its place, and
these from the first to the last. It goes no further at a concrete type and where it fails. -/
inductive Visits (sys : TypeSystem) : (t : Ty) → (us : List Ty) → Prop where
  | concrete {t : Ty} : t.isConcrete = true → Visits sys t [t]
  | stuck {t : Ty} {e : TypeError} : sys.unfolded t = .error e → Visits sys t [t]
  | unfold {t : Ty} {ts : List Ty} {us : Ty → List Ty} : t.isConcrete = false →
      sys.unfolded t = .ok ts → (∀ u ∈ ts, Visits sys u (us u)) →
      Visits sys t (t :: ts.flatMap us)

/-- What visiting the types comes to: the concrete ones among them, or the fault of the first that
cannot be unfolded. -/
def gathered (sys : TypeSystem) (us : List Ty) : Except TypeError (List Ty) := do
  let _ ← us.mapM sys.unfolded
  return us.filter (·.isConcrete)

variable {sys : TypeSystem} {t u : Ty} {ts us bounds : List Ty} {v : TypeVarId} {e : TypeError}

/-! ## One step -/

/-- Unfolding fails at variables without an answer and at wildcards with both bounds. -/
theorem unfolded_eq_error_iff : sys.unfolded t = .error e ↔
    (∃ v, t = .var v ∧ sys.bound? v = none ∧ e = .unknownTypeVariable v) ∨
      ∃ upper lower, t = .wildcard (some upper) (some lower) ∧ e = .malformedWildcard := by
  cases t with
  | var v => cases h : sys.bound? v <;> simp [unfolded, h, eq_comm]
  | wildcard upper lower => cases upper <;> cases lower <;> simp [unfolded, eq_comm]
  | _ => simp [unfolded]

/-- The concrete bounds of a type that is no variable are those of the types that take its place. -/
theorem boundsWith_eq_unfolded (htop : sys.top.isConcrete = true)
    {varBounds : TypeVarId → Except TypeError (List Ty)} (hv : t.kind ≠ .typeVariable) :
    Ty.boundsWith sys.top varBounds t =
      sys.unfolded t >>= Ty.boundsWithList sys.top varBounds := by
  cases t with
  | var v => exact absurd rfl hv
  | primitive _ | array _ | declared _ _ => exact (Ty.boundsWithList_singleton _).symm
  | intersection ts => rfl
  | wildcard upper lower =>
    cases upper with
    | none =>
      cases lower with
      | none =>
        show .ok [sys.top] = Ty.boundsWithList sys.top varBounds [sys.top]
        rw [Ty.boundsWithList_singleton, Ty.boundsWith_of_isConcrete htop]
      | some l => exact (Ty.boundsWithList_singleton l).symm
    | some u =>
      cases lower with
      | none => exact (Ty.boundsWithList_singleton u).symm
      | some l => rfl

/-- Those of a variable that is not on the path yet are those of its bound. -/
theorem varBounds_eq_unfolded {path : VarPath} (hv : v ∉ path.vars) : sys.varBounds path v =
    sys.unfolded (.var v) >>= Ty.boundsWithList sys.top (sys.varBounds (path.push v hv)) := by
  cases hbound : sys.bound? v with
  | none =>
    rw [varBounds, dif_neg hv]
    simp [unfolded, hbound, bind, Except.bind]
  | some bound =>
    rw [varBounds_of_bound? hv hbound, unfolded_var hbound]
    exact (Ty.boundsWithList_singleton bound).symm

/-! ## What a walk gathers -/

theorem gathered_concrete (hc : t.isConcrete = true) : sys.gathered [t] = .ok [t] := by
  simp [gathered, unfolded_of_isConcrete hc, hc, bind, Except.bind, pure, Except.pure]

theorem gathered_stuck (ht : sys.unfolded t = .error e) : sys.gathered [t] = .error e := by
  simp [gathered, ht, bind, Except.bind]

theorem gathered_cons (hc : t.isConcrete = false) (ht : sys.unfolded t = .ok ts) (us : List Ty) :
    sys.gathered (t :: us) = sys.gathered us := by
  rw [gathered, gathered, List.mapM_cons, ht, List.filter_cons_of_neg (by simp [hc])]
  cases us.mapM sys.unfolded <;> rfl

theorem gathered_append (us vs : List Ty) : sys.gathered (us ++ vs) =
    do return (← sys.gathered us) ++ (← sys.gathered vs) := by
  rw [gathered, gathered, gathered, List.mapM_append, List.filter_append]
  cases us.mapM sys.unfolded with
  | error e => rfl
  | ok _ => cases vs.mapM sys.unfolded <;> rfl

theorem gathered_eq_ok_iff : sys.gathered us = .ok bounds ↔
    (∀ u ∈ us, ∃ ts, sys.unfolded u = .ok ts) ∧ bounds = us.filter (·.isConcrete) := by
  rw [gathered, bind_eq_ok, ← exists_mapM_eq_ok_iff]
  simp [pure, Except.pure, eq_comm]

theorem gathered_eq_error_iff : sys.gathered us = .error e ↔ FailsFirst sys.unfolded us e := by
  rw [gathered, bind_eq_error, ← mapM_eq_error_iff]
  simp [pure, Except.pure]

theorem boundsWithList_eq_gathered {varBounds : TypeVarId → Except TypeError (List Ty)}
    {visits : Ty → List Ty}
    (h : ∀ t ∈ ts, Ty.boundsWith sys.top varBounds t = sys.gathered (visits t)) :
    Ty.boundsWithList sys.top varBounds ts = sys.gathered (ts.flatMap visits) := by
  induction ts with
  | nil => rfl
  | cons t ts ih =>
    rw [Ty.boundsWithList, List.flatMap_cons, gathered_append, h t (by simp),
      ih fun u hu => h u (by simp [hu])]

/-! ## Walks -/

section

variable (hs : sys.AcyclicBounds) (htop : sys.top.isConcrete = true)

include hs htop

/-- One step of unfolding leads to a path whose variables are not met any more, if it started from
one. -/
theorem exists_path {path : VarPath} (hpath : ∀ v ∈ path.vars, ¬ sys.Meets t (.var v)) :
    ∃ path' : VarPath, Ty.boundsWith sys.top (sys.varBounds path) t =
        sys.unfolded t >>= Ty.boundsWithList sys.top (sys.varBounds path') ∧
      ∀ ts, sys.unfolded t = .ok ts → ∀ u ∈ ts, ∀ v ∈ path'.vars, ¬ sys.Meets u (.var v) := by
  have hstep {ts : List Ty} (ht : sys.unfolded t = .ok ts) {u : Ty} (hu : u ∈ ts) :
      ∀ v ∈ path.vars, ¬ sys.Meets u (.var v) := fun v hv hmeets =>
    hpath v hv ((Meets.step ht hu).trans hmeets)
  by_cases hkind : t.kind = .typeVariable
  · obtain ⟨v, rfl⟩ : ∃ v, t = .var v := by cases t <;> simp [Ty.kind] at hkind ⊢
    have hv : v ∉ path.vars := fun hmem => hpath v hmem .refl
    refine ⟨path.push v hv, varBounds_eq_unfolded hv, fun ts ht u hu => ?_⟩
    refine List.forall_mem_cons.2 ⟨?_, hstep ht hu⟩
    obtain ⟨bound, hbound, rfl⟩ := unfolded_var_eq_ok_iff.1 ht
    rw [List.mem_singleton.1 hu]
    exact hs v bound hbound
  · exact ⟨path, boundsWith_eq_unfolded htop hkind, fun ts ht u hu => hstep ht hu⟩

/-- Along a path of variables that are not met any more, a walk gathers the concrete bounds. -/
theorem boundsWith_eq_gathered (h : sys.Visits t us) {path : VarPath}
    (hpath : ∀ v ∈ path.vars, ¬ sys.Meets t (.var v)) :
    Ty.boundsWith sys.top (sys.varBounds path) t = sys.gathered us := by
  induction h generalizing path with
  | concrete hc => rw [Ty.boundsWith_of_isConcrete hc, gathered_concrete hc]
  | stuck ht =>
    obtain ⟨path', hstep, -⟩ := exists_path hs htop hpath
    rw [hstep, ht, gathered_stuck ht]
    rfl
  | unfold hc ht _ ih =>
    obtain ⟨path', hstep, hpath'⟩ := exists_path hs htop hpath
    rw [hstep, ht, gathered_cons hc ht]
    exact boundsWithList_eq_gathered fun u hu => ih u hu (hpath' _ ht u hu)

/-- **A walk gathers the concrete bounds**, or the first fault. -/
theorem concreteBounds_eq_gathered (h : sys.Visits t us) :
    sys.concreteBounds t = sys.gathered us :=
  boundsWith_eq_gathered hs htop h (by simp [VarPath.empty])

end

/-- A type has a walk if the types that take its place have one. -/
theorem exists_visits_of_unfolded (hc : t.isConcrete = false) (ht : sys.unfolded t = .ok ts)
    (h : ∀ u ∈ ts, ∃ us, sys.Visits u us) : ∃ us, sys.Visits t us := by
  choose! us hus using h
  exact ⟨_, .unfold hc ht hus⟩

/-- A type has a walk if the variables it meets have one. -/
theorem exists_visits_of_vars (htop : sys.top.isConcrete = true)
    (h : ∀ v, sys.Meets t (.var v) → ∃ us, sys.Visits (.var v) us) : ∃ us, sys.Visits t us := by
  have hstep {t u : Ty} {ts : List Ty}
      (h : ∀ v, sys.Meets t (.var v) → ∃ us, sys.Visits (.var v) us)
      (ht : sys.unfolded t = .ok ts) (hu : u ∈ ts) (v : TypeVarId) (hv : sys.Meets u (.var v)) :
      ∃ us, sys.Visits (.var v) us := h v ((Meets.step ht hu).trans hv)
  induction t with
  | primitive p => exact ⟨_, .concrete rfl⟩
  | array t _ => exact ⟨_, .concrete rfl⟩
  | declared c args _ => exact ⟨_, .concrete rfl⟩
  | var v => exact h v .refl
  | intersection ts ih =>
    exact exists_visits_of_unfolded rfl rfl fun t ht => ih t ht (hstep h rfl ht)
  | wildcard upper lower ihu ihl =>
    cases upper with
    | none =>
      cases lower with
      | none => exact exists_visits_of_unfolded rfl rfl (by simpa using ⟨_, .concrete htop⟩)
      | some l =>
        have hl := ihl l rfl (hstep h rfl (List.mem_singleton_self l))
        exact exists_visits_of_unfolded rfl rfl (by simpa using hl)
    | some u =>
      cases lower with
      | none =>
        have hu := ihu u rfl (hstep h rfl (List.mem_singleton_self u))
        exact exists_visits_of_unfolded rfl rfl (by simpa using hu)
      | some l => exact ⟨_, .stuck rfl⟩

/-- Which variables are met when the bound of another is unfolded is well-founded. -/
theorem AcyclicBounds.wellFounded (hs : sys.AcyclicBounds) :
    WellFounded fun w v => ∃ bound, sys.bound? v = some bound ∧ sys.Meets bound (.var w) := by
  refine wellFounded_of_acyclic fun v hcycle => ?_
  have hmeets {w : TypeVarId} (h : Relation.TransGen (fun w v => ∃ bound,
      sys.bound? v = some bound ∧ sys.Meets bound (.var w)) w v) :
      ∃ bound, sys.bound? v = some bound ∧ sys.Meets bound (.var w) := by
    induction h using Relation.TransGen.head_induction_on with
    | single h => exact h
    | head hstep _ ih =>
      obtain ⟨mid, hmid, hw⟩ := hstep
      obtain ⟨bound, hbound, hv⟩ := ih
      have hunfold := Meets.step (unfolded_var hmid) (List.mem_singleton_self mid)
      exact ⟨bound, hbound, hv.trans (hunfold.trans hw)⟩
  obtain ⟨bound, hbound, hv⟩ := hmeets hcycle
  exact hs v bound hbound hv

/-- **Unfolding comes to an end** where chains of bounds do not go round. -/
theorem exists_visits (hs : sys.AcyclicBounds) (htop : sys.top.isConcrete = true) (t : Ty) :
    ∃ us, sys.Visits t us := by
  have hvar (v : TypeVarId) : ∃ us, sys.Visits (.var v) us := by
    induction v using hs.wellFounded.induction with
    | _ v ih =>
      cases hbound : sys.bound? v with
      | none => exact ⟨_, .stuck (unfolded_eq_error_iff.2 (.inl ⟨v, rfl, hbound, rfl⟩))⟩
      | some bound =>
        refine exists_visits_of_unfolded rfl (unfolded_var hbound) ?_
        simpa using exists_visits_of_vars htop fun w hw => ih w ⟨bound, hbound, hw⟩
  exact exists_visits_of_vars htop fun v _ => hvar v

namespace Visits

theorem self_mem (h : sys.Visits t us) : t ∈ us := by
  cases h <;> simp

/-- **A walk visits what is met**, and nothing else. -/
theorem mem_iff (h : sys.Visits t us) : u ∈ us ↔ sys.Meets t u := by
  constructor
  · intro hu
    induction h with
    | concrete _ | stuck _ =>
      rw [List.mem_singleton.1 hu]
      exact .refl
    | unfold hc ht _ ih =>
      rcases List.mem_cons.1 hu with rfl | hu
      · exact .refl
      · obtain ⟨w, hw, hu⟩ := List.mem_flatMap.1 hu
        exact (Meets.step ht hw).trans (ih w hw hu)
  · refine Meets.mem_of_closed ?_ h.self_mem
    induction h with
    | concrete hc => simp [unfolded_of_isConcrete hc, Except.toOption]
    | stuck ht => simp [ht, Except.toOption]
    | @unfold t ts us hc ht hus ih =>
      have hclosed : ∀ w ∈ ts, us w ⊆ t :: ts.flatMap us := fun w hw x hx =>
        List.mem_cons_of_mem _ (List.mem_flatMap.2 ⟨w, hw, hx⟩)
      refine List.forall_mem_cons.2 ⟨?_, fun x hx => ?_⟩
      · rw [ht]
        rintro ts' ⟨⟩ w hw
        exact hclosed w hw (hus w hw).self_mem
      · obtain ⟨w, hw, hx⟩ := List.mem_flatMap.1 hx
        exact fun ts' hts' => List.Subset.trans (ih w hw x hx ts' hts') (hclosed w hw)

end Visits

end TypeSystem

namespace ClassTable

/-- Unfolding fails at a variable that is not declared and at a wildcard with both bounds. -/
inductive StopsAt (s : ClassTable) : Ty → TypeError → Prop where
  | undeclared {v : TypeVarId} : s.typeVar? v = none → StopsAt s (.var v) (.unknownTypeVariable v)
  | bothBounds (upper lower : Ty) :
      StopsAt s (.wildcard (some upper) (some lower)) .malformedWildcard

variable {s : ClassTable} {fuel : Nat}

theorem unfolded_eq_error_iff_stopsAt {t : Ty} {e : TypeError} :
    (s.system fuel).unfolded t = .error e ↔ s.StopsAt t e := by
  rw [TypeSystem.unfolded_eq_error_iff]
  constructor
  · rintro (⟨v, rfl, hv, rfl⟩ | ⟨upper, lower, rfl, rfl⟩)
    · exact .undeclared (Option.map_eq_none_iff.1 hv)
    · exact .bothBounds upper lower
  · rintro (hv | ⟨upper, lower⟩)
    · exact .inl ⟨_, rfl, Option.map_eq_none_iff.2 hv, rfl⟩
    · exact .inr ⟨upper, lower, rfl, rfl⟩

theorem exists_unfolded_iff {t : Ty} :
    (∃ ts, (s.system fuel).unfolded t = .ok ts) ↔ ∀ e, ¬ s.StopsAt t e := by
  have hstops (e : TypeError) : s.StopsAt t e ↔ (s.system fuel).unfolded t = .error e :=
    unfolded_eq_error_iff_stopsAt.symm
  simp only [hstops]
  cases (s.system fuel).unfolded t <;> simp

/-- Chains of bounds do not go round where the bound of each variable belongs to a list that
unfolding does not leave and that is without the variable. -/
theorem acyclicBounds_of_closed (l : TypeVarId → List Ty)
    (h : ∀ v d, s.typeVar? v = some d → .var v ∉ l v ∧ (∀ bound ∈ s.bound? v, bound ∈ l v) ∧
      ∀ t ∈ l v, ∀ ts ∈ ((s.system fuel).unfolded t).toOption, ts ⊆ l v) :
    (s.system fuel).AcyclicBounds := by
  intro v bound hbound hmeets
  obtain ⟨d, hd, -⟩ := Option.map_eq_some_iff.1 hbound
  obtain ⟨hv, hmem, hclosed⟩ := h v d hd
  exact hv (hmeets.mem_of_closed hclosed (hmem bound hbound))

/-- **The laws of concrete bounds**, in a table whose chains of bounds do not go round. The concrete
bounds of a list are those of its members, one after the other, or the fault of the first member at
fault. Concrete bounds are arrays, class types and primitives, and their own concrete bounds.

Unfolding comes to an end for every type. It fails at variables that are not declared and at
wildcards with both bounds. If it visits none of these, the concrete bounds are the concrete types
that it visits, in this order; else they are the fault of the first of these that it visits. -/
theorem concreteBounds_laws (hs : (s.system fuel).AcyclicBounds) :
    let sys := s.system fuel
    (∀ ts bounds, sys.concreteBoundsList ts = .ok bounds ↔
        ∃ f : Ty → List Ty, (∀ t ∈ ts, sys.concreteBounds t = .ok (f t)) ∧ ts.flatMap f = bounds) ∧
      (∀ ts e, sys.concreteBoundsList ts = .error e ↔ FailsFirst sys.concreteBounds ts e) ∧
      (∀ bounds, (∃ t, sys.concreteBounds t = .ok bounds) ∨
          (∃ ts, sys.concreteBoundsList ts = .ok bounds) →
        (∀ b ∈ bounds, b.isConcrete = true) ∧ sys.concreteBoundsList bounds = .ok bounds) ∧
      (∀ t e, sys.unfolded t = .error e ↔ s.StopsAt t e) ∧
      (∀ t, ∃ us, sys.Visits t us) ∧
      ∀ t us, sys.Visits t us →
        (∀ u, u ∈ us ↔ sys.Meets t u) ∧
        (∀ bounds, sys.concreteBounds t = .ok bounds ↔
          (∀ u ∈ us, ∀ e, ¬ s.StopsAt u e) ∧ bounds = us.filter (·.isConcrete)) ∧
        ∀ e, sys.concreteBounds t = .error e ↔ FailsFirst sys.unfolded us e := by
  intro sys
  have htop : sys.top.isConcrete = true := rfl
  have hconcrete {t : Ty} {bounds : List Ty} (h : sys.concreteBounds t = .ok bounds) :
      ∀ b ∈ bounds, b.isConcrete = true := by
    obtain ⟨us, hus⟩ := TypeSystem.exists_visits hs htop t
    rw [TypeSystem.concreteBounds_eq_gathered hs htop hus] at h
    rw [(TypeSystem.gathered_eq_ok_iff.1 h).2]
    exact fun b hb => (List.mem_filter.1 hb).2
  refine ⟨fun _ _ => TypeSystem.concreteBoundsList_eq_ok_iff,
    fun _ _ => TypeSystem.concreteBoundsList_eq_error_iff, fun bounds h => ?_,
    fun _ _ => unfolded_eq_error_iff_stopsAt, TypeSystem.exists_visits hs htop, fun t us hus => ?_⟩
  · have hall : ∀ b ∈ bounds, b.isConcrete = true := by
      rcases h with ⟨t, h⟩ | ⟨ts, h⟩
      · exact hconcrete h
      · obtain ⟨f, hf, rfl⟩ := TypeSystem.concreteBoundsList_eq_ok_iff.1 h
        exact List.forall_mem_flatMap.2 fun t ht => hconcrete (hf t ht)
    exact ⟨hall, TypeSystem.concreteBoundsList_of_isConcrete hall⟩
  · rw [TypeSystem.concreteBounds_eq_gathered hs htop hus]
    refine ⟨fun _ => hus.mem_iff, fun bounds => ?_, fun _ => TypeSystem.gathered_eq_error_iff⟩
    rw [TypeSystem.gathered_eq_ok_iff]
    simp only [exists_unfolded_iff]

/-- `N extends Number & Comparable<N>` and `P extends (? super N) & U`, with `U` not declared. -/
def openBound : ClassTable :=
  base
    |>.addTypeVar ⟨"N", [ClassId.number.ty, .declared .comparable [.var ⟨11⟩]]⟩
    |>.addTypeVar ⟨"P", [.wildcard none (some (.var ⟨11⟩)), .var ⟨99⟩]⟩

/-- Unfolding `N & P & (? extends N super N)` fails at `U`, before it comes to the wildcard; the
bounds of `? extends N` and `?` are `Number`, `Comparable<N>` and `Object`. -/
theorem concreteBounds_laws_openBound :
    let sys := openBound.system 0
    let n : Ty := .var ⟨11⟩
    let bounds : List Ty := [ClassId.number.ty, .declared .comparable [n], ClassId.object.ty]
    let t : Ty := .intersection [n, .var ⟨12⟩, .wildcard (some n) (some n)]
    sys.AcyclicBounds ∧
      sys.concreteBoundsList [.wildcard (some n) none, .wildcard none none] = .ok bounds ∧
      (∀ b ∈ bounds, b.isConcrete = true) ∧ sys.concreteBoundsList bounds = .ok bounds ∧
      sys.concreteBounds t = .error (.unknownTypeVariable ⟨99⟩) ∧
      FailsFirst sys.concreteBounds [n, t] (.unknownTypeVariable ⟨99⟩) ∧
      openBound.StopsAt (.var ⟨99⟩) (.unknownTypeVariable ⟨99⟩) ∧
      ∃ us, sys.Visits t us ∧ FailsFirst sys.unfolded us (.unknownTypeVariable ⟨99⟩) := by
  intro sys n bounds t
  have hs : sys.AcyclicBounds := by
    let lower : Ty := .intersection [ClassId.number.ty, .declared .comparable [n]]
    let met : List Ty := lower :: bounds
    let l (v : TypeVarId) : List Ty :=
      if v = ⟨12⟩ then
        .intersection [.wildcard none (some n), .var ⟨99⟩] :: .wildcard none (some n) ::
          .var ⟨99⟩ :: n :: met
      else met
    exact acyclicBounds_of_closed l (forall_typeVar? (by decide))
  have hbounds : sys.concreteBoundsList [.wildcard (some n) none, .wildcard none none] =
      .ok bounds := by decide +kernel
  have hfault : sys.concreteBounds t = .error (.unknownTypeVariable ⟨99⟩) := by decide +kernel
  have hlist : sys.concreteBoundsList [n, t] = .error (.unknownTypeVariable ⟨99⟩) := by
    decide +kernel
  obtain ⟨-, hfirst, hown, hstops, hends, hvisits⟩ := concreteBounds_laws hs
  obtain ⟨us, hus⟩ := hends t
  obtain ⟨hconcrete, hagain⟩ := hown bounds (.inr ⟨_, hbounds⟩)
  exact ⟨hs, hbounds, hconcrete, hagain, hfault, (hfirst _ _).1 hlist,
    (hstops _ _).1 (by decide), us, hus, ((hvisits t us hus).2.2 _).1 hfault⟩

end ClassTable

end Wiring
