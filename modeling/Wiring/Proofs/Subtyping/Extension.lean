import Wiring.Proofs.Hierarchy.Extension
import Wiring.Proofs.Subtyping.OneStep
/-!
# Further declarations and subtyping

Every question that a question about declared types leads to is about declared types again, on the
climb from class to class as well as among bounds and arguments. So further declarations leave each
answer as it was, and where there was none, because the questions do not end or fuel ran out, there is
none now.
-/

namespace Wiring.ClassTable

variable {s s' : ClassTable} {c d : ClassId} {t u : Ty} {args targetArgs ts : List Ty}

/-! ## One step -/

section Step

variable {ask ask' : (sub sup : Ty) → Option Bool}
  (hask : ∀ t u, s.Declares t → s.Declares u → ask' t u = ask t u)

include hask

theorem contains?_eq {container arg : Ty} (hc : s.Declares container) (ha : s.Declares arg) :
    contains? ask' container arg = contains? ask container arg := by
  have hupper {u : Ty} {l : Option Ty} (h : s.Declares (.wildcard (some u) l)) : s.Declares u :=
    (declares_wildcard_iff.1 h).1 u rfl
  have hlower {u : Option Ty} {l : Ty} (h : s.Declares (.wildcard u (some l))) : s.Declares l :=
    (declares_wildcard_iff.1 h).2 l rfl
  unfold contains?
  split
  case h_2 => exact hask _ _ (hupper ha) (hupper hc)
  case h_4 => exact hask _ _ ha (hupper hc)
  case h_5 => exact hask _ _ (hlower hc) (hlower ha)
  case h_7 => exact hask _ _ (hlower hc) ha
  all_goals rfl

theorem componentSubtype?_eq (ht : s.Declares t) (hu : s.Declares u) :
    componentSubtype? ask' t u = componentSubtype? ask t u := by
  unfold componentSubtype?
  split
  case h_4 => exact hask _ _ ht hu
  all_goals rfl

theorem viewSubtype?_eq {view : Option (List Ty)}
    (hview : ∀ args ∈ view, ∀ a ∈ args, s.Declares a) (htarget : ∀ a ∈ targetArgs, s.Declares a) :
    viewSubtype? ask' view targetArgs = viewSubtype? ask view targetArgs := by
  cases view with
  | none => rfl
  | some args =>
    have hall : ((targetArgs.zip args).allM fun pair => contains? ask' pair.1 pair.2) =
        (targetArgs.zip args).allM fun pair => contains? ask pair.1 pair.2 :=
      allM_congr fun pair hpair => contains?_eq hask (htarget _ (List.of_mem_zip hpair).1)
        (hview args rfl _ (List.of_mem_zip hpair).2)
    rw [viewSubtype?, viewSubtype?, hall]

/-- A step asks about declared types only. -/
theorem unequalStep_eq {view view' : ClassId → List Ty → ClassId → Option (Option (List Ty))}
    (hview : ∀ c args d, s.Declares (.declared c args) → view' c args d = view c args d)
    (hargs : ∀ c args d found, s.Declares (.declared c args) → view c args d = some found →
      ∀ as ∈ found, ∀ a ∈ as, s.Declares a)
    (hbound : ∀ v, s.Declares (.var v) → s'.bound? v = s.bound? v)
    (hbounds : ∀ v bound, s.bound? v = some bound → s.Declares bound)
    (ht : s.Declares t) (hu : s.Declares u) :
    s'.unequalStep ask' view' t u = s.unequalStep ask view t u := by
  unfold unequalStep
  split
  case h_6 =>
    exact allM_congr fun part hpart => hask _ _ ht (declares_intersection_iff.1 hu part hpart)
  case h_7 =>
    exact anyM_congr fun part hpart => hask _ _ (declares_intersection_iff.1 ht part hpart) hu
  case h_8 v _ _ _ =>
    rw [hbound v ht]
    cases hv : s.bound? v with
    | none => rfl
    | some bound => exact hask _ _ (hbounds v bound hv) hu
  case h_10 =>
    exact componentSubtype?_eq hask (declares_array_iff.1 ht) (declares_array_iff.1 hu)
  case h_13 c args d targetArgs =>
    split
    · rfl
    · rw [hview c args d ht]
      cases hfound : view c args d with
      | none => rfl
      | some found =>
        exact viewSubtype?_eq hask (hargs c args d found ht hfound) (declares_declared_iff.1 hu).2
  all_goals rfl

end Step

/-! ## Any number of steps -/

namespace SelfContained

variable (hb : Extends base s) (hs : s.SelfContained) (hx : Extends s s')

include hb hs

/-- The climb from declared types finds a class with declared arguments. -/
theorem declares_of_viewWalk {target : ClassId} {fuel : Nat} {queue seen : List Ty}
    (hq : ∀ t ∈ queue, s.Declares t) (h : s.viewWalk target fuel queue seen = some (some args)) :
    ∀ a ∈ args, s.Declares a := by
  induction fuel generalizing queue seen with
  | zero => cases queue <;> cases h
  | succ fuel ih =>
    cases queue with
    | nil => cases h
    | cons t queue =>
      have hnext := declares_queue hb hs hq
      obtain ⟨ht, hq⟩ := List.forall_mem_cons.1 hq
      simp only [viewWalk] at h
      split at h
      · exact ih hq h
      · split at h
        · split at h
          · cases h
            exact (declares_declared_iff.1 ht).2
          · exact ih hnext h
        · exact ih hq h

include hx

theorem viewWalk_eq (target : ClassId) (fuel : Nat) (queue seen : List Ty)
    (hq : ∀ t ∈ queue, s.Declares t) :
    s'.viewWalk target fuel queue seen = s.viewWalk target fuel queue seen := by
  induction fuel generalizing queue seen with
  | zero => cases queue <;> rfl
  | succ fuel ih =>
    cases queue with
    | nil => rfl
    | cons t queue =>
      have hnext := ih _ (seen ++ [t]) (declares_queue hb hs hq)
      obtain ⟨ht, hq⟩ := List.forall_mem_cons.1 hq
      simp only [viewWalk, supertypes_eq hs hx ht, ih _ _ hq, hnext]

theorem view?_eq (fuel : Nat) (target : ClassId) (h : s.Declares (.declared c args)) :
    s'.view? fuel c args target = s.view? fuel c args target :=
  viewWalk_eq hb hs hx target fuel _ _ (by simpa using h)

/-- **Subtyping stays**, for every amount of fuel. -/
theorem subtype?_eq (fuel : Nat) (ht : s.Declares t) (hu : s.Declares u) :
    s'.subtype? fuel t u = s.subtype? fuel t u := by
  induction fuel generalizing t u with
  | zero => rfl
  | succ fuel ih =>
    by_cases hne : t = u
    · rw [hne, subtype?_self, subtype?_self]
    · rw [subtype?_of_ne hne, subtype?_of_ne hne]
      refine unequalStep_eq (fun _ _ ht hu => ih ht hu) (fun c args d h => ?_)
        (fun c args d found h hfound as has => ?_) (fun v hv => hx.bound?_eq hv)
        (fun v bound hv => declares_of_bound? hb hs hv) ht hu
      · exact view?_eq hb hs hx fuel d h
      · rw [has] at hfound
        exact declares_of_viewWalk hb hs (by simpa using h) hfound

/-- **Assignability stays**, for every amount of fuel. -/
theorem assignable?_eq (fuel : Nat) (ht : s.Declares t) (hu : s.Declares u) :
    s'.assignable? fuel t u = s.assignable? fuel t u := by
  have hconversion : s'.conversion? fuel t u = s.conversion? fuel t u := by
    unfold conversion?
    split
    case h_2 => exact subtype?_eq hb hs hx fuel (hb.declares_box _) hu
    case h_4 => rw [view?_eq hb hs hx fuel _ ht]
    all_goals rfl
  rw [ClassTable.assignable?_eq, ClassTable.assignable?_eq, subtype?_eq hb hs hx fuel ht hu,
    hconversion]

end SelfContained

end Wiring.ClassTable
