import Wiring.Proofs.Hierarchy.Base
import Wiring.Proofs.Matching.Ground
import Wiring.Proofs.Subtyping.Settled
import Wiring.Proofs.TypeSystem.Bounds
/-!
# Matching never fails on well-formed types

Matching can fail with an unknown or cyclic variable, with a wildcard that has both bounds, with a
bound that is no array or class type, and with a type that may not stand where it stands. A required
type that is `Requirable` and an offered one that is `Offerable` give it no occasion, at whatever
depth the rules come back to their arguments (`Steady.accepts_converges`).

The answer is also reached: in a founded table without lower bounds every question about subtypes is
settled, so that from some number of steps on matching keeps to one answer (`accepts_total`).
-/

namespace Wiring

namespace TypeSystem

/-- The type may be compared: its variables unfold to arrays and class types, and none of its
arguments is primitive or an intersection. -/
structure WellFormed (sys : TypeSystem) (t : Ty) : Prop where
  concrete : t.isConcrete = true
  vars : ∀ v ∈ t.vars, sys.HasBounds (.var v)
  args : ∀ c as, .declared c as ∈ t.parts → ∀ a ∈ as, a.kind ≠ .primitive ∧ a.kind ≠ .intersection

/-- The type may be required: wildcards among its arguments have at most one bound, which unfolds to
arrays and class types. -/
structure Requirable (sys : TypeSystem) (t : Ty) : Prop extends sys.WellFormed t where
  wildcards : ∀ c as, .declared c as ∈ t.parts → ∀ upper lower, .wildcard upper lower ∈ as →
    (upper = none ∨ lower = none) ∧
      (∀ u ∈ upper, sys.HasBounds u) ∧ ∀ l ∈ lower, sys.HasBounds l

/-- The type may be offered: none of its arguments is a wildcard. -/
structure Offerable (sys : TypeSystem) (t : Ty) : Prop extends sys.WellFormed t where
  noWildcards : ∀ c as, .declared c as ∈ t.parts → ∀ a ∈ as, a.kind ≠ .wildcard

variable {sys : TypeSystem} {c : ClassId} {args : List Ty} {t a : Ty}

/-! ## Arguments -/

/-- Arguments that are no wildcards unfold to arrays and class types. -/
theorem WellFormed.hasBounds_of_mem (h : sys.WellFormed (.declared c args)) (ha : a ∈ args)
    (hw : a.kind ≠ .wildcard) : sys.HasBounds a := by
  obtain ⟨hp, hi⟩ := h.args c args (Ty.self_mem_parts _) a ha
  cases a with
  | array t => exact .of_isBound rfl
  | declared d as => exact .of_isBound rfl
  | var v => exact h.vars v (by simpa [Ty.vars] using ⟨_, ha, by simp [Ty.vars]⟩)
  | primitive p => exact absurd rfl hp
  | wildcard upper lower => exact absurd rfl hw
  | intersection parts => exact absurd rfl hi

theorem WellFormed.of_mem (h : sys.WellFormed (.declared c args)) (ha : a ∈ args)
    (hc : a.isConcrete = true) : sys.WellFormed a where
  concrete := hc
  vars v hv := h.vars v (by simpa [Ty.vars] using ⟨a, ha, hv⟩)
  args d as hd := h.args d as (Ty.mem_parts_declared ha hd)

theorem Requirable.of_mem (h : sys.Requirable (.declared c args)) (ha : a ∈ args)
    (hc : a.isConcrete = true) : sys.Requirable a where
  toWellFormed := h.toWellFormed.of_mem ha hc
  wildcards d as hd := h.wildcards d as (Ty.mem_parts_declared ha hd)

theorem Offerable.of_mem (h : sys.Offerable (.declared c args)) (ha : a ∈ args)
    (hc : a.isConcrete = true) : sys.Offerable a where
  toWellFormed := h.toWellFormed.of_mem ha hc
  noWildcards d as hd := h.noWildcards d as (Ty.mem_parts_declared ha hd)

/-- What may be offered passes the check of offered types. -/
theorem Offerable.checkOfferedArgs (h : sys.Offerable t) : t.checkOfferedArgs = .ok () := by
  have hargs (c : ClassId) (as : List Ty) (hc : .declared c as ∈ t.parts) (a : Ty) (ha : a ∈ as) :
      a.kind ≠ .wildcard ∧ a.kind ≠ .intersection :=
    ⟨h.noWildcards c as hc a ha, (h.args c as hc a ha).2⟩
  clear h
  induction t with
  | array t ih => exact ih fun c as hc => hargs c as (Ty.mem_parts_array hc)
  | declared c as ih =>
    refine Ty.checkOfferedArgList_eq_ok fun a ha => ?_
    obtain ⟨hw, hi⟩ := hargs c as (Ty.self_mem_parts _) a ha
    exact ⟨hw, hi, ih a ha fun d bs hd => hargs d bs (Ty.mem_parts_declared ha hd)⟩
  | _ => rfl

/-- Only the bounds of types count. -/
theorem HasBounds.congr {sys' : TypeSystem}
    (hbounds : ∀ t, sys.concreteBounds t = sys'.concreteBounds t) (h : sys.HasBounds t) :
    sys'.HasBounds t := by
  rwa [HasBounds, ← hbounds t]

theorem WellFormed.congr {sys' : TypeSystem}
    (hbounds : ∀ t, sys.concreteBounds t = sys'.concreteBounds t) (h : sys.WellFormed t) :
    sys'.WellFormed t :=
  ⟨h.concrete, fun v hv => (h.vars v hv).congr hbounds, h.args⟩

theorem Requirable.congr {sys' : TypeSystem}
    (hbounds : ∀ t, sys.concreteBounds t = sys'.concreteBounds t) (h : sys.Requirable t) :
    sys'.Requirable t where
  toWellFormed := h.toWellFormed.congr hbounds
  wildcards c as hc upper lower hw := by
    obtain ⟨hone, hupper, hlower⟩ := h.wildcards c as hc upper lower hw
    exact ⟨hone, fun u hu => (hupper u hu).congr hbounds, fun l hl => (hlower l hl).congr hbounds⟩

theorem Offerable.congr {sys' : TypeSystem}
    (hbounds : ∀ t, sys.concreteBounds t = sys'.concreteBounds t) (h : sys.Offerable t) :
    sys'.Offerable t :=
  ⟨h.toWellFormed.congr hbounds, h.noWildcards⟩

theorem exists_isUnboundedOrTop (h : t.kind = .typeVariable → sys.HasBounds t) :
    ∃ b, sys.isUnboundedOrTop t = .ok b := by
  unfold isUnboundedOrTop
  split
  · exact ⟨true, rfl⟩
  · cases t with
    | var v =>
      obtain ⟨bounds, hbounds, -⟩ := h rfl
      rw [isUnboundedVar, hbounds]
      cases bounds with
      | nil => exact ⟨false, rfl⟩
      | cons b bs => cases bs <;> exact ⟨_, rfl⟩
    | _ => exact ⟨false, rfl⟩

/-- Type systems that differ in assignability only, and there each question gets one answer in the
end. -/
structure Steady (sys : Nat → TypeSystem) : Prop where
  boxed : ∀ n, (sys n).boxed = (sys 0).boxed
  identical : ∀ n t u, (sys n).identical t u = (sys 0).identical t u
  isTop : ∀ n t, (sys n).isTop t = (sys 0).isTop t
  sameRawForm : ∀ n t u, (sys n).sameRawForm t u = (sys 0).sameRawForm t u
  concreteBounds : ∀ n t, (sys n).concreteBounds t = (sys 0).concreteBounds t
  assignable : ∀ t u, ∃ v, Eventually fun n => (sys n).isAssignable t u = v

/-- One type system is steady. -/
theorem Steady.const (sys : TypeSystem) : Steady fun _ => sys where
  boxed _ := rfl
  identical _ _ _ := rfl
  isTop _ _ := rfl
  sameRawForm _ _ _ := rfl
  concreteBounds _ _ := rfl
  assignable t u := ⟨sys.isAssignable t u, Eventually.of_forall fun _ => rfl⟩

namespace Steady

variable {sys : Nat → TypeSystem} (hs : Steady sys)

include hs

theorem concreteBoundsList (n : Nat) (ts : List Ty) :
    (sys n).concreteBoundsList ts = (sys 0).concreteBoundsList ts :=
  concreteBoundsList_congr fun t _ => hs.concreteBounds n t

theorem isUnboundedOrTop (n : Nat) (t : Ty) :
    (sys n).isUnboundedOrTop t = (sys 0).isUnboundedOrTop t :=
  isUnboundedOrTop_congr (hs.isTop n) (hs.concreteBounds n t)

theorem boundsAssignable_converges {rs ps : List Ty} (hr : ∀ r ∈ rs, (sys 0).HasBounds r)
    (hp : ∀ p ∈ ps, (sys 0).HasBounds p) :
    Converges fun n => (sys n).boundsAssignable rs ps := by
  obtain ⟨required, hrequired, hrb⟩ := HasBounds.concreteBoundsList hr
  obtain ⟨offered, hoffered, hpb⟩ := HasBounds.concreteBoundsList hp
  have hcompare : Converges fun n => required.allM fun r => offered.anyM fun p =>
      (sys n).boundAssignable r p := by
    refine Converges.allM fun r hmem => Converges.anyM fun p hmem' => ?_
    obtain ⟨v, hv⟩ := hs.assignable p r
    refine ⟨r == p || v, hv.mono fun n hn => ?_⟩
    show (sys n).boundAssignable r p = .ok (r == p || v)
    rw [boundAssignable_of_isBound (hrb r hmem) (hpb p hmem'), hn]
  refine hcompare.congr fun n => ?_
  rw [boundsAssignable, hs.concreteBoundsList n, hs.concreteBoundsList n, hrequired, hoffered]
  rfl

end Steady

end TypeSystem

theorem Policy.argumentsAccept_converges {sys : Nat → TypeSystem} (policy : Policy)
    {rs ps : List Ty}
    (h : ∀ r ∈ rs, ∀ p ∈ ps, Converges fun n =>
      policy.argumentAccepts (sys n) r p fun _ => policy.accepts (sys n) r p) :
    Converges fun n => policy.argumentsAccept (sys n) rs ps := by
  induction rs generalizing ps with
  | nil => exact .ok true
  | cons r rs ih =>
    cases ps with
    | nil => exact .ok true
    | cons p ps =>
      simp only [Policy.argumentsAccept_cons]
      refine (h r (by simp) p (by simp)).bind fun fits => ?_
      cases fits with
      | true => exact ih fun r hr p hp => h r (by simp [hr]) p (by simp [hp])
      | false => exact .ok false

namespace TypeSystem.Steady

variable {sys : Nat → TypeSystem} (hs : Steady sys) (policy : Policy) {c : ClassId}
  {rs ps : List Ty} {receiver payload r p : Ty}

include hs

theorem wildcardAccepts_converges {upper lower : Option Ty} (hone : upper = none ∨ lower = none)
    (hupper : ∀ u ∈ upper, (sys 0).HasBounds u) (hlower : ∀ l ∈ lower, (sys 0).HasBounds l)
    (hp : (sys 0).HasBounds p) :
    Converges fun n => Policy.wildcardAccepts (sys n) upper lower p := by
  cases upper with
  | none =>
    cases lower with
    | none => exact .ok true
    | some l =>
      exact hs.boundsAssignable_converges (by simpa using hp) (by simpa using hlower)
  | some u =>
    obtain rfl : lower = none := hone.resolve_left (by simp)
    have hu : (sys 0).HasBounds u := hupper u rfl
    refine (hs.boundsAssignable_converges (by simpa using hu) (by simpa using hp)).bind
      fun fits => ?_
    cases fits with
    | true => exact .ok true
    | false =>
      cases p with
      | var v => exact hs.boundsAssignable_converges (by simpa using hp) (by simpa using hu)
      | _ => exact .ok false

/-- Arguments are compared by their bounds, or as types of their own if both are concrete. -/
theorem argumentAccepts_converges {asTypes : Nat → Unit → Except TypeError Bool}
    (hrw : ∀ upper lower, r = .wildcard upper lower → (upper = none ∨ lower = none) ∧
      (∀ u ∈ upper, (sys 0).HasBounds u) ∧ ∀ l ∈ lower, (sys 0).HasBounds l)
    (hri : r.kind ≠ .intersection) (hr : r.kind ≠ .wildcard → (sys 0).HasBounds r)
    (hpw : p.kind ≠ .wildcard) (hpi : p.kind ≠ .intersection) (hp : (sys 0).HasBounds p)
    (htypes : r.isConcrete = true → p.isConcrete = true → Converges fun n => asTypes n ()) :
    Converges fun n => policy.argumentAccepts (sys n) r p (asTypes n) := by
  have hassign {t u : Ty} (ht : (sys 0).HasBounds t) (hu : (sys 0).HasBounds u) :
      Converges fun n => (sys n).boundsAssignable [t] [u] :=
    hs.boundsAssignable_converges (by simpa using ht) (by simpa using hu)
  have hactual (hrc : r.isConcrete = true) (hpc : p.isConcrete = true) :
      Converges fun n => if (sys n).sameRawForm r p then
        if r.yieldsRaw || p.yieldsRaw then asTypes n () else .ok true
      else .ok false := by
    simp only [hs.sameRawForm]
    split
    · split
      · exact htypes hrc hpc
      · exact .ok true
    · exact .ok false
  cases r with
  | wildcard upper lower =>
    obtain ⟨hone, hupper, hlower⟩ := hrw upper lower rfl
    exact hs.wildcardAccepts_converges hone hupper hlower hp
  | intersection parts => exact absurd rfl hri
  | var v =>
    have hr := hr nofun
    cases p with
    | var w => exact hassign hr hp
    | _ =>
      cases policy with
      | injection => exact .ok false
      | event => exact hassign hr hp
  | _ =>
    have hr := hr nofun
    cases p with
    | var w =>
      cases policy with
      | injection => exact hassign hp hr
      | event => exact .ok false
    | wildcard _ _ => exact absurd rfl hpw
    | intersection _ => exact absurd rfl hpi
    | _ => exact hactual rfl rfl

theorem acceptsArgs_converges
    (hr : ∀ r ∈ rs, r.kind = .typeVariable → (sys 0).HasBounds r)
    (hp : ∀ p ∈ ps, p.kind = .typeVariable → (sys 0).HasBounds p)
    (h : Converges fun n => policy.argumentsAccept (sys n) rs ps) :
    Converges fun n => policy.acceptsArgs (sys n) rs ps := by
  have hfree {ts : List Ty} (ht : ∀ t ∈ ts, t.kind = .typeVariable → (sys 0).HasBounds t) :
      Converges fun n => ts.allM (sys n).isUnboundedOrTop := by
    refine Converges.allM fun t hmem => ?_
    exact .of_eq (fun n => hs.isUnboundedOrTop n t) (exists_isUnboundedOrTop (ht t hmem))
  unfold Policy.acceptsArgs
  split
  · exact .ok false
  · exact hfree hp
  · exact hfree hr
  · split
    · exact h
    · exact .ok false

/-- Two types that are not the same are compared by shape. -/
theorem acceptsShape_converges
    (hargs : ∀ c d rs ps, receiver = .declared c rs → payload = .declared d ps →
      Converges fun n => policy.acceptsArgs (sys n) rs ps) :
    Converges fun n => policy.acceptsShape (sys n) receiver payload := by
  have hboxOf (t : Ty) (p : Primitive) (n : Nat) :
      policy.isBoxOf (sys n) t p = policy.isBoxOf (sys 0) t p := by
    rw [Policy.isBoxOf, Policy.isBoxOf, hs.boxed n, hs.identical n]
  unfold Policy.acceptsShape
  split
  · exact .of_eq (fun n => congrArg Except.ok (hboxOf _ _ n)) ⟨_, rfl⟩
  · exact .of_eq (fun n => congrArg Except.ok (hboxOf _ _ n)) ⟨_, rfl⟩
  · exact .of_eq (fun n => congrArg Except.ok (hs.identical n _ _)) ⟨_, rfl⟩
  · simp only [hs.identical, hs.sameRawForm]
    split
    · exact .ok true
    · split
      · exact .ok false
      · exact hargs _ _ _ _ rfl rfl
  · exact .ok false

theorem accepts_converges_of_args (hr : receiver.isConcrete = true) (hp : (sys 0).Offerable payload)
    (hargs : ∀ c d rs ps, receiver = .declared c rs → payload = .declared d ps →
      Converges fun n => policy.acceptsArgs (sys n) rs ps) :
    Converges fun n => policy.accepts (sys n) receiver payload := by
  by_cases hne : receiver = payload
  · subst hne
    exact .of_eq (fun n => Policy.accepts_self hr) ⟨true, rfl⟩
  · exact (hs.acceptsShape_converges policy hargs).congr fun n =>
      (Policy.accepts_of_ne hr hp.concrete hp.checkOfferedArgs hne).symm

/-- **Matching succeeds, with one answer in the end**, on types that may be required and offered. -/
theorem accepts_converges (hr : (sys 0).Requirable receiver) (hp : (sys 0).Offerable payload) :
    Converges fun n => policy.accepts (sys n) receiver payload := by
  -- on the required type: the rules come back to pairs of its arguments and the offered ones
  induction receiver generalizing payload with
  | primitive _ => exact hs.accepts_converges_of_args policy rfl hp nofun
  | array _ _ => exact hs.accepts_converges_of_args policy rfl hp nofun
  | declared c rs ih =>
    refine hs.accepts_converges_of_args policy rfl hp fun c' d rs' ps hrs hps => ?_
    cases hrs
    subst hps
    refine hs.acceptsArgs_converges policy
      (fun r hmem hk => hr.hasBounds_of_mem hmem (by simp [hk]))
      (fun p hmem hk => hp.hasBounds_of_mem hmem (by simp [hk])) ?_
    refine policy.argumentsAccept_converges fun r hrm p hpm => ?_
    have hri := (hr.args c rs (Ty.self_mem_parts _) r hrm).2
    have hpi := (hp.args d ps (Ty.self_mem_parts _) p hpm).2
    have hpw := hp.noWildcards d ps (Ty.self_mem_parts _) p hpm
    refine hs.argumentAccepts_converges policy (fun upper lower hw => ?_) hri
      (hr.hasBounds_of_mem hrm) hpw hpi (hp.hasBounds_of_mem hpm hpw) fun hrc hpc => ?_
    · exact hr.wildcards c rs (Ty.self_mem_parts _) upper lower (hw ▸ hrm)
    · exact ih r hrm (hr.of_mem hrm hrc) (hp.of_mem hpm hpc)
  | var _ => cases hr.concrete
  | wildcard _ _ _ _ => cases hr.concrete
  | intersection _ _ => cases hr.concrete

end TypeSystem.Steady

namespace ClassTable

variable {s : ClassTable} {n : Nat} {receiver payload : Ty}

theorem concreteBounds_system (s : ClassTable) (n m : Nat) (t : Ty) :
    (s.system n).concreteBounds t = (s.system m).concreteBounds t := by
  have hbound : (s.system n).bound? = (s.system m).bound? := rfl
  have htop : (s.system n).top = (s.system m).top := rfl
  exact TypeSystem.concreteBounds_congr hbound htop t

/-- Fuel plays a part in assignability only, and there only up to some amount. -/
theorem Founded.steady (hs : s.Founded) (hn : s.NoLowerBounds) : TypeSystem.Steady s.system where
  boxed _ := rfl
  identical _ _ _ := rfl
  isTop _ _ := rfl
  sameRawForm n t u :=
    Bool.eq_iff_iff.2 ((s.sameRawForm_iff n t u).trans (s.sameRawForm_iff 0 t u).symm)
  concreteBounds n t := s.concreteBounds_system n 0 t
  assignable t u := by
    obtain ⟨v, hv⟩ := hs.exists_assignable? hn t u
    exact ⟨v, hv.mono fun n hn => by simp [system, hn]⟩

end ClassTable

namespace Policy

variable {s : ClassTable} {n : Nat} {receiver payload : Ty}

/-- **Matching never fails on well-formed types**, and its answer is settled. The questions that it
asks have answers, as they all have in the table. -/
theorem accepts_total (hs : s.Founded) (hn : s.NoLowerBounds) (policy : Policy)
    (hr : (s.system n).Requirable receiver) (hp : (s.system n).Offerable payload) :
    (∀ t u, ∃ v, Settles (fun fuel => s.assignable? fuel t u) v) ∧
    (∀ fuel, ∃ fits, policy.accepts (s.system fuel) receiver payload = .ok fits) ∧
    ∃ fits, Eventually fun fuel =>
      policy.accepts (s.system fuel) receiver payload = .ok fits := by
  have hbounds (m : Nat) (t : Ty) := s.concreteBounds_system n m t
  refine ⟨hs.exists_assignable? hn, fun fuel => ?_, ?_⟩
  · obtain ⟨fits, N, h⟩ := (TypeSystem.Steady.const (s.system fuel)).accepts_converges policy
      (hr.congr (hbounds fuel)) (hp.congr (hbounds fuel))
    exact ⟨fits, h N (Nat.le_refl N)⟩
  · exact (hs.steady hn).accepts_converges policy (hr.congr (hbounds 0)) (hp.congr (hbounds 0))

/-- `List<? super Integer>` and `List<E>`. -/
theorem accepts_total_list :
    let r : Ty := .declared .list [.wildcard none (some ClassId.integer.ty)]
    let p : Ty := .declared .list [.var ⟨2⟩]
    ClassTable.base.Founded ∧ ClassTable.base.NoLowerBounds ∧
      (ClassTable.base.system 0).Requirable r ∧ (ClassTable.base.system 0).Offerable p ∧
      ∃ fits, Eventually fun fuel =>
        Policy.injection.accepts (ClassTable.base.system fuel) r p = .ok fits := by
  intro r p
  have hparts {c : ClassId} {as : List Ty} (h : .declared c as ∈ r.parts) :
      as = [.wildcard none (some ClassId.integer.ty)] ∨ as = [] := by
    have h : c = .list ∧ as = [.wildcard none (some ClassId.integer.ty)] ∨
        c = .integer ∧ as = [] := by simpa [r, Ty.parts, Ty.partsOption, ClassId.ty] using h
    exact h.imp (·.2) (·.2)
  have hr : (ClassTable.base.system 0).Requirable r := by
    refine ⟨⟨rfl, by simp [r, Ty.vars, ClassId.ty], fun c as hc a ha => ?_⟩,
      fun c as hc upper lower hw => ?_⟩
    · rcases hparts hc with rfl | rfl
      · rw [List.mem_singleton.1 ha]
        simp [Ty.kind]
      · cases ha
    · rcases hparts hc with rfl | rfl
      · cases List.mem_singleton.1 hw
        exact ⟨.inl rfl, by simp, by simpa using .of_isBound rfl⟩
      · cases hw
  have hp : (ClassTable.base.system 0).Offerable p := by
    refine ⟨⟨rfl, ?_, by simp [p, Ty.parts, Ty.kind]⟩, by simp [p, Ty.parts, Ty.kind]⟩
    have hvar : (ClassTable.base.system 0).concreteBounds (.var ⟨2⟩) = .ok [ClassId.object.ty] :=
      TypeSystem.concreteBounds_var rfl rfl
    simpa [p, Ty.vars] using ⟨_, hvar, by simp [Ty.isBound, ClassId.ty]⟩
  have hs := ClassTable.base_founded
  have hn := ClassTable.base_noLowerBounds
  exact ⟨hs, hn, hr, hp, (accepts_total hs hn .injection hr hp).2.2⟩

end Policy

end Wiring
