import Wiring.Proofs.Hierarchy.Regular
import Wiring.Proofs.Matching.RawForm
import Wiring.Proofs.Matching.Shapes
/-!
# Matching of ground types

Fully applied types without variables never fail to match or not to match, and as type arguments
they match only themselves (`argumentAccepts_ground`). Types of one class match when their
arguments do (`accepts_declared`).
-/

namespace Wiring

namespace Ty

theorem dropArgs_eq_self {t : Ty} (h : t.yieldsRaw = false) : t.dropArgs = t := by
  induction t with
  | array t ih =>
    rw [dropArgs, ih h]
  | declared c args _ =>
    have hnil : args = [] := by simpa [yieldsRaw, element, isParameterized, Ty.args] using h
    rw [dropArgs, hnil]
  | _ => rfl

/-- Types over equal innermost types are equal if they have equally many array layers. -/
theorem eq_of_element_eq {t u : Ty} (h : t.dropArgs = u.dropArgs) (he : t.element = u.element) :
    t = u := by
  induction t generalizing u with
  | array t ih =>
    cases u with
    | array u => rw [ih (Ty.array.inj h) he]
    | _ => cases h
  | _ =>
    cases u with
    | array u => cases h
    | _ => exact he

theorem checkOfferedArgList_eq_ok {ts : List Ty}
    (h : ∀ t ∈ ts, t.kind ≠ .wildcard ∧ t.kind ≠ .intersection ∧ t.checkOfferedArgs = .ok ()) :
    checkOfferedArgList ts = .ok () := by
  induction ts with
  | nil => rfl
  | cons t ts ih =>
    obtain ⟨hw, hi, ht⟩ := h t (by simp)
    have hts := ih fun u hu => h u (by simp [hu])
    have hbind : checkOfferedArgList (t :: ts) =
        (t.checkOfferedArgs >>= fun _ => checkOfferedArgList ts) := by
      cases t with
      | wildcard _ _ => exact absurd rfl hw
      | intersection _ => exact absurd rfl hi
      | _ => rfl
    rw [hbind, ht]
    exact hts

end Ty

namespace ClassTable.FullyApplied

variable {s : ClassTable} {t : Ty}

theorem isConcrete (h : s.FullyApplied [] t) : t.isConcrete = true := by
  cases h with
  | var hv => cases hv
  | _ => rfl

/-- A ground type may be offered. -/
theorem checkOfferedArgs (h : s.FullyApplied [] t) : t.checkOfferedArgs = .ok () := by
  induction h with
  | primitive _ => rfl
  | array _ ih => exact ih
  | var hv => cases hv
  | declared _ _ hargs ih =>
    refine Ty.checkOfferedArgList_eq_ok fun t ht => ?_
    have hconcrete := (Ty.isConcrete_iff_kind t).1 (hargs t ht).isConcrete
    exact ⟨fun h => by simp [h] at hconcrete, fun h => by simp [h] at hconcrete, ih t ht⟩

end ClassTable.FullyApplied

namespace Policy

variable {s : ClassTable} {fuel : Nat} {policy : Policy} {receiver payload : Ty} {c : ClassId}
  {rs ps : List Ty}

/-- Two uses of one class that are not the same are compared by their arguments. -/
theorem acceptsShape_declared (hne : rs ≠ ps) :
    policy.acceptsShape (s.system fuel) (.declared c rs) (.declared c ps) =
      policy.acceptsArgs (s.system fuel) rs ps := by
  have hid : (s.system fuel).identical (.declared c rs) (.declared c ps) = false := by
    rw [Bool.eq_false_iff]
    exact fun h => hne (Ty.declared.inj ((s.identical_iff fuel _ _).1 h)).2
  have hraw : (s.system fuel).sameRawForm (.declared c rs) (.declared c ps) = true :=
    (s.sameRawForm_iff fuel _ _).2 rfl
  simp only [acceptsShape, hid, hraw, Bool.false_eq_true, Bool.not_true, if_false]

/-- Lists of equally many arguments are compared argument by argument. -/
theorem acceptsArgs_of_length_eq {sys : TypeSystem} (hlen : rs.length = ps.length)
    (hne : rs ≠ ps) : policy.acceptsArgs sys rs ps = policy.argumentsAccept sys rs ps := by
  cases rs with
  | nil => exact absurd (List.length_eq_zero_iff.1 hlen.symm).symm hne
  | cons r rs =>
    cases ps with
    | nil => cases hlen
    | cons p ps => simp only [acceptsArgs, hlen, if_true]

/-- Two uses of one class with equally many arguments are compared by the arguments. -/
theorem accepts_declared (hp : s.FullyApplied [] (.declared c ps)) (hlen : rs.length = ps.length)
    (hne : rs ≠ ps) :
    policy.accepts (s.system fuel) (.declared c rs) (.declared c ps) =
      policy.argumentsAccept (s.system fuel) rs ps := by
  have hty : Ty.declared c rs ≠ .declared c ps := fun h => hne (Ty.declared.inj h).2
  rw [accepts_of_ne rfl rfl hp.checkOfferedArgs hty, acceptsShape_declared hne,
    acceptsArgs_of_length_eq hlen hne]

/-- Arguments that match themselves only do so as a list. -/
theorem argumentsAccept_of_forall (hlen : rs.length = ps.length)
    (h : ∀ r ∈ rs, ∀ p ∈ ps,
      policy.argumentAccepts (s.system fuel) r p (fun _ => policy.accepts (s.system fuel) r p) =
        .ok (decide (r = p))) :
    policy.argumentsAccept (s.system fuel) rs ps = .ok (decide (rs = ps)) := by
  induction rs generalizing ps with
  | nil =>
    cases ps with
    | nil => rfl
    | cons p ps => cases hlen
  | cons r rs ih =>
    cases ps with
    | nil => cases hlen
    | cons p ps =>
      have hlen : rs.length = ps.length := by simpa using hlen
      have hrest := ih hlen fun r hr p hp => h r (by simp [hr]) p (by simp [hp])
      rw [argumentsAccept_cons, h r (by simp) p (by simp)]
      by_cases hrp : r = p
      · simpa [bind, Except.bind, hrp] using hrest
      · simp [bind, Except.bind, hrp]

/-- Concrete arguments match only themselves if they do not match as types of one raw form. -/
theorem argumentAccepts_of_accepts (hr : receiver.isConcrete = true)
    (hp : payload.isConcrete = true)
    (h : receiver ≠ payload → receiver.dropArgs = payload.dropArgs →
      policy.accepts (s.system fuel) receiver payload = .ok false) :
    policy.argumentAccepts (s.system fuel) receiver payload
        (fun _ => policy.accepts (s.system fuel) receiver payload) =
      .ok (decide (receiver = payload)) := by
  have hvar : payload.kind ≠ .typeVariable := by
    cases payload with
    | var _ => cases hp
    | _ => exact nofun
  rw [argumentAccepts_of_isConcrete hr hvar]
  by_cases hraw : receiver.dropArgs = payload.dropArgs
  · rw [if_pos ((s.sameRawForm_iff fuel _ _).2 hraw)]
    by_cases heq : receiver = payload
    · subst heq
      rw [accepts_self hr]
      simp
    · rw [h heq hraw, if_pos, decide_eq_false heq]
      by_contra hyields
      rw [Bool.not_eq_true, Bool.or_eq_false_iff] at hyields
      rw [Ty.dropArgs_eq_self hyields.1, Ty.dropArgs_eq_self hyields.2] at hraw
      exact heq hraw
  · rw [if_neg fun h => hraw ((s.sameRawForm_iff fuel _ _).1 h), decide_eq_false]
    exact fun heq => hraw (congrArg Ty.dropArgs heq)

/-- **Ground type arguments match only themselves.** -/
theorem argumentAccepts_ground (hr : s.FullyApplied [] receiver) (hp : s.FullyApplied [] payload) :
    policy.argumentAccepts (s.system fuel) receiver payload
        (fun _ => policy.accepts (s.system fuel) receiver payload) =
      .ok (decide (receiver = payload)) := by
  induction hr generalizing payload with
  | primitive q =>
    refine argumentAccepts_of_accepts rfl hp.isConcrete fun hne hraw => ?_
    cases hp with
    | primitive _ => exact absurd hraw hne
    | _ => cases hraw
  | @array t ht _ =>
    refine argumentAccepts_of_accepts rfl hp.isConcrete fun hne hraw => ?_
    cases hp with
    | @array u hu =>
      have hid : (s.system fuel).identical t.element u.element = false := by
        rw [Bool.eq_false_iff]
        exact fun h => hne (Ty.eq_of_element_eq hraw ((s.identical_iff fuel _ _).1 h))
      rw [accepts_of_ne rfl rfl hu.array.checkOfferedArgs hne]
      exact congrArg Except.ok hid
    | _ => cases hraw
  | var hv => cases hv
  | @declared c d rs hd hlen _ ih =>
    refine argumentAccepts_of_accepts rfl hp.isConcrete fun hne hraw => ?_
    cases hp with
    | @declared c' d' ps hd' hlen' hps =>
      cases hraw
      cases hd.symm.trans hd'
      have hargs : rs ≠ ps := fun h => hne (by rw [h])
      have hlength : rs.length = ps.length := hlen.trans hlen'.symm
      rw [accepts_declared (.declared hd' hlen' hps) hlength hargs,
        argumentsAccept_of_forall hlength fun r hr p hp => ih r hr (hps p hp),
        decide_eq_false hargs]
    | _ => cases hraw

end Policy

end Wiring
