import Wiring.Proofs.Hierarchy.Base
import Wiring.Proofs.Matching.Erasure
import Wiring.Proofs.Matching.Ground
import Wiring.Proofs.Subtyping.Ground
import Wiring.Proofs.TypeSystem.Bounds
/-!
# Matching over a closure is subtyping

Matching compares types of one class and never climbs, subtyping climbs to the class first. Over
the closure of an offered type they agree: in a regular table, a ground class type is a subtype
of a required type exactly when some type of its closure matches it (`subtype_iff_accepts`).
-/

namespace Wiring

namespace TypeSystem

variable {sys : TypeSystem} {t u : Ty}

/-- Only against a variable may an upper bound be related the other way round. -/
theorem wildcardAccepts_upper_iff (upper : Ty) (hu : u.isConcrete = true) :
    Policy.wildcardAccepts sys (some upper) none u = .ok true ↔
      sys.boundsAssignable [upper] [u] = .ok true := by
  simp only [Policy.wildcardAccepts]
  cases h : sys.boundsAssignable [upper] [u] with
  | error e => simp [bind, Except.bind]
  | ok b =>
    cases b <;> cases u <;>
      simp [Ty.isConcrete, bind, Except.bind, pure, Except.pure] at hu ⊢

end TypeSystem

namespace ClassTable

/-- A type argument that may be asked for: a ground type, or a wildcard over a ground reference. -/
inductive Requestable (s : ClassTable) : Ty → Prop where
  | ground {t : Ty} : s.FullyApplied [] t → Requestable s t
  | unbounded : Requestable s (.wildcard none none)
  | upper {t : Ty} : s.FullyApplied [] t → t.isReference = true →
      Requestable s (.wildcard (some t) none)
  | lower {t : Ty} : s.FullyApplied [] t → t.isReference = true →
      Requestable s (.wildcard none (some t))

variable {s : ClassTable} {sub sup a p : Ty} {n : Nat} {c d : ClassId} {decl : ClassDecl}
  {args rs : List Ty}

/-- A primitive and a reference are never in the subtype relation. -/
theorem settles_subtype?_mixed (hsub : s.FullyApplied [] sub) (hsup : s.FullyApplied [] sup)
    (h : sub.isReference ≠ sup.isReference) : Settles (fun n => s.subtype? n sub sup) false := by
  refine Settles.of_succ ((Settles.const false).congr fun n => ?_)
  cases hsub with
  | primitive _ =>
    cases hsup with
    | primitive _ => exact absurd rfl h
    | _ => rfl
  | _ =>
    cases hsup with
    | primitive _ => rfl
    | _ => exact absurd rfl h

/-- Bounds are compared by subtyping. -/
theorem Unambiguous.exists_boundsAssignable (hs : s.Unambiguous) (hsub : s.FullyApplied [] sub)
    (hsup : s.FullyApplied [] sup) (h : sub.isReference = true ∨ sup.isReference = true) :
    ∃ v, Settles (fun n => s.subtype? n sub sup) v ∧
      Eventually fun n => (s.system n).boundsAssignable [sup] [sub] = .ok true ↔ v = true := by
  simp only [TypeSystem.boundsAssignable_singleton hsup.isConcrete hsub.isConcrete,
    TypeSystem.boundAssignable_eq_true_iff hsup.isConcrete hsub.isConcrete]
  by_cases hmixed : sub.isReference = sup.isReference
  · have hrsub : sub.isReference = true := h.elim id fun h => hmixed.trans h
    have hrsup : sup.isReference = true := hmixed.symm.trans hrsub
    obtain ⟨v, hv, ha⟩ := hs.exists_assignable? hsub hsup hrsub hrsup
    refine ⟨v, hv, (hv.and ha).mono fun n ⟨hsubtype, hassign⟩ => ?_⟩
    have hassign : (s.system n).isAssignable sub sup = v := by simp [system, hassign]
    rw [hassign]
    refine ⟨fun hb => hb.2.2.elim (fun heq => ?_) id, fun hv => ⟨hrsup, hrsub, Or.inr hv⟩⟩
    subst heq
    exact eq_true_of_subtype?_self hsubtype
  · refine ⟨false, settles_subtype?_mixed hsub hsup hmixed, Eventually.of_forall fun n => ?_⟩
    refine iff_of_false (fun hb => hmixed ?_) (by simp)
    rw [hb.1, hb.2.1]

namespace Regular

variable (hs : s.Regular)

include hs

/-- **A requested argument contains an offered one exactly when it accepts it.** -/
theorem exists_argumentAccepts (policy : Policy) (ha : s.Requestable a)
    (hp : s.FullyApplied [] p) :
    ∃ v, Settles (fun n => contains? (s.subtype? n) a p) v ∧
      Eventually fun n => policy.argumentAccepts (s.system n) a p
        (fun _ => policy.accepts (s.system n) a p) = .ok true ↔ v = true := by
  cases ha with
  | ground ha =>
    refine ⟨decide (a = p), (Settles.const _).congr fun n => ?_, Eventually.of_forall fun n => ?_⟩
    · rw [contains?_of_not_wildcard _ ha.not_wildcard]
      simp [Ty.sameType, ha.not_wildcard, hp.not_wildcard, beq_eq_decide]
    · rw [Policy.argumentAccepts_ground ha hp]
      simp
  | unbounded =>
    refine ⟨true, (Settles.const true).congr fun n => ?_, Eventually.of_forall fun n => ?_⟩
    · cases p <;> rfl
    · simp [Policy.argumentAccepts, Policy.wildcardAccepts]
  | @upper upper hu hr =>
    obtain ⟨v, hv, hb⟩ := hs.unambiguous.exists_boundsAssignable hp hu (Or.inr hr)
    refine ⟨v, hv.congr fun n => (contains?_upper _ upper hp.not_wildcard).symm, ?_⟩
    exact hb.mono fun n hn => (TypeSystem.wildcardAccepts_upper_iff upper hp.isConcrete).trans hn
  | @lower lower hl hr =>
    obtain ⟨v, hv, hb⟩ := hs.unambiguous.exists_boundsAssignable hl hp (Or.inl hr)
    exact ⟨v, hv.congr fun n => (contains?_lower _ lower hp.not_wildcard).symm, hb⟩

theorem exists_argumentsAccept (policy : Policy) {rs ps : List Ty} (hlen : rs.length = ps.length)
    (hr : ∀ r ∈ rs, s.Requestable r) (hp : ∀ p ∈ ps, s.FullyApplied [] p) :
    ∃ v, Settles (fun n => (rs.zip ps).allM fun pair =>
        contains? (s.subtype? n) pair.1 pair.2) v ∧
      Eventually fun n => policy.argumentsAccept (s.system n) rs ps = .ok true ↔ v = true := by
  induction rs generalizing ps with
  | nil =>
    cases ps with
    | nil =>
      refine ⟨true, Settles.const true, Eventually.of_forall fun n => ?_⟩
      simp [Policy.argumentsAccept]
    | cons p ps => cases hlen
  | cons r rs ih =>
    cases ps with
    | nil => cases hlen
    | cons p ps =>
      obtain ⟨v, hv, ha⟩ := hs.exists_argumentAccepts policy (hr r (by simp)) (hp p (by simp))
      have hlen : rs.length = ps.length := by simpa using hlen
      obtain ⟨w, hw, hall⟩ := ih hlen (fun r h => hr r (by simp [h]))
        fun p h => hp p (by simp [h])
      cases v with
      | false =>
        refine ⟨false, hv.bind (Settles.const false), ha.mono fun n hn => ?_⟩
        rw [Policy.argumentsAccept_cons, bind_eq_ok]
        refine iff_of_false ?_ (by simp)
        rintro ⟨fits, hfits, h⟩
        cases fits with
        | true => cases hn.1 hfits
        | false => cases h
      | true =>
        refine ⟨w, hv.bind hw, (ha.and hall).mono fun n hn => ?_⟩
        rw [Policy.argumentsAccept_cons, hn.1.2 rfl]
        exact hn.2

/-- Of the types above, only those of the required class can match. -/
theorem exists_accepts_iff (policy : Policy) {ts : List Ty}
    (hts : ∀ t, t ∈ ts ↔ Climbs s.supertypes (.declared c args) t) :
    (∃ t ∈ ts, policy.accepts (s.system n) (.declared d rs) t = .ok true) ↔
      ∃ as, Climbs s.supertypes (.declared c args) (.declared d as) ∧
        policy.accepts (s.system n) (.declared d rs) (.declared d as) = .ok true := by
  constructor
  · rintro ⟨t, ht, haccepts⟩
    have hclimb := (hts t).1 ht
    obtain ⟨e, as, rfl⟩ := hs.ordered.declared_of_climbs hclimb
    obtain rfl : d = e := Policy.head_eq_of_accepts haccepts
    exact ⟨as, hclimb, haccepts⟩
  · rintro ⟨as, hclimb, haccepts⟩
    exact ⟨_, (hts _).2 hclimb, haccepts⟩

/-- Two uses of one class are compared by their arguments, in matching as in subtyping. -/
theorem exists_accepts_declared (policy : Policy) {as : List Ty}
    (has : s.FullyApplied [] (.declared d as)) (hlen : rs.length = as.length)
    (hrs : ∀ r ∈ rs, s.Requestable r) :
    ∃ v, Settles (fun n => viewSubtype? (s.subtype? n) (some as) rs) v ∧
      (Eventually fun n =>
        policy.accepts (s.system n) (.declared d rs) (.declared d as) = .ok true ↔ v = true) ∧
      (rs = as → v = true) := by
  obtain ⟨decl, -, -, hps⟩ := FullyApplied.declared_iff.1 has
  obtain ⟨v, hv, ha⟩ := hs.exists_argumentsAccept policy hlen hrs hps
  have hself : rs = as → v = true := by
    rintro rfl
    obtain ⟨N, hN⟩ := ha
    refine (hN N (Nat.le_refl N)).1 ?_
    rw [Policy.argumentsAccept_of_forall rfl fun r hr p hp =>
      Policy.argumentAccepts_ground (hps r hr) (hps p hp)]
    simp
  refine ⟨v, hv.congr fun n => ?_, ha.mono fun n hn => ?_, hself⟩
  · cases rs with
    | nil => rfl
    | cons r rs => simp [viewSubtype?, hlen.symm]
  · by_cases heq : rs = as
    · subst heq
      exact iff_of_true (Policy.accepts_self rfl) (hself rfl)
    · rw [Policy.accepts_declared has hlen heq]
      exact hn

/-- Subtyping asks whether the instance above matches. -/
theorem exists_subtype?_iff_accepts (policy : Policy) (hb : s.FullyApplied [] (.declared c args))
    (hd : s.class? d = some decl) (hlen : rs.length = decl.params.length)
    (hrs : ∀ r ∈ rs, s.Requestable r) :
    ∃ v, Settles (fun n => s.subtype? n (.declared c args) (.declared d rs)) v ∧
      Eventually fun n => v = true ↔
        ∃ as, Climbs s.supertypes (.declared c args) (.declared d as) ∧
          policy.accepts (s.system n) (.declared d rs) (.declared d as) = .ok true := by
  by_cases habove : ∃ as, Climbs s.supertypes (.declared c args) (.declared d as)
  · obtain ⟨as, hclimb⟩ := habove
    have has := hs.fullyApplied_of_climbs hb hclimb
    obtain ⟨decl', hd', hlen', -⟩ := FullyApplied.declared_iff.1 has
    cases hd.symm.trans hd'
    obtain ⟨v, hv, ha, hself⟩ :=
      hs.exists_accepts_declared policy has (hlen.trans hlen'.symm) hrs
    refine ⟨v, hs.unambiguous.settles_subtype?_of_climbs hb.takes hclimb hv hself,
      ha.mono fun n hn => ?_⟩
    rw [← hn]
    refine ⟨fun h => ⟨as, hclimb, h⟩, fun ⟨bs, hbs, h⟩ => ?_⟩
    rwa [hs.unambiguous.args_unique hb.takes hclimb hbs]
  · have hnone : ∀ as, ¬ Climbs s.supertypes (.declared c args) (.declared d as) :=
      fun as h => habove ⟨as, h⟩
    refine ⟨false, hs.unambiguous.settles_subtype?_false hb.takes hnone,
      Eventually.of_forall fun n => ?_⟩
    exact iff_of_false (by simp) fun ⟨as, hclimb, _⟩ => hnone as hclimb

/-- **Matching over the closure is subtyping.** -/
theorem subtype_iff_accepts (policy : Policy) (hb : s.FullyApplied [] (.declared c args))
    (hd : s.class? d = some decl) (hlen : rs.length = decl.params.length)
    (hrs : ∀ r ∈ rs, s.Requestable r) :
    ∃ ts v N, ∀ fuel, N ≤ fuel →
      (s.system fuel).closure? fuel (.declared c args) = some ts ∧
      s.subtype? fuel (.declared c args) (.declared d rs) = some v ∧
      (v = true ↔ ∃ t ∈ ts, policy.accepts (s.system fuel) (.declared d rs) t = .ok true) := by
  obtain ⟨ts, hw, hts⟩ := hs.ordered.exists_closure? (.declared c args)
  obtain ⟨v, hv, ha⟩ := hs.exists_subtype?_iff_accepts policy hb hd hlen hrs
  obtain ⟨N, hN⟩ := hts.and (hv.and ha)
  refine ⟨ts, v, N, fun fuel hfuel => ?_⟩
  obtain ⟨hclosure, hsubtype, hiff⟩ := hN fuel hfuel
  exact ⟨hclosure, hsubtype,
    hiff.trans (hs.exists_accepts_iff policy fun t => hw.mem_iff).symm⟩

end Regular

/-- `ArrayList<Integer>` is a `Collection<? extends Number>`, by subtyping and by matching. -/
theorem subtype_iff_accepts_arrayList :
    base.Regular ∧ base.FullyApplied [] (.declared .arrayList [ClassId.integer.ty]) ∧
      base.Requestable (.wildcard (some ClassId.number.ty) none) ∧
      base.subtype? 8 (.declared .arrayList [ClassId.integer.ty])
        (.declared .collection [.wildcard (some ClassId.number.ty) none]) = some true ∧
      ∃ ts v N, ∀ fuel, N ≤ fuel →
        (base.system fuel).closure? fuel (.declared .arrayList [ClassId.integer.ty]) = some ts ∧
        base.subtype? fuel (.declared .arrayList [ClassId.integer.ty])
          (.declared .collection [.wildcard (some ClassId.number.ty) none]) = some v ∧
        (v = true ↔ ∃ t ∈ ts, Policy.event.accepts (base.system fuel)
          (.declared .collection [.wildcard (some ClassId.number.ty) none]) t = .ok true) := by
  have hb : base.FullyApplied [] (.declared .arrayList [ClassId.integer.ty]) := by decide
  have hr : base.Requestable (.wildcard (some ClassId.number.ty) none) :=
    .upper (by decide) rfl
  refine ⟨base_regular, hb, hr, by decide, ?_⟩
  exact base_regular.subtype_iff_accepts .event hb rfl rfl (by simpa using hr)

end ClassTable

end Wiring
