import Wiring.Proofs.Subtyping.Settled
import Wiring.Proofs.Subtyping.Steps
import Wiring.Proofs.TypeSystem.Unfolding
/-!
# Subtyping and concrete bounds

Variables and intersections are unfolded twice in this library, by subtyping and where the concrete
bounds of a type are computed. Below an array or a class type, a step of the one is a step of the
other (`subtype?_unfolded`), so a type is below it if one of its bounds is
(`isSubtype_iff_of_concreteBounds`). Wildcards are left out: they have bounds, but subtyping relates
them to nothing else.
-/

namespace Wiring.ClassTable

variable {s : ClassTable} {m n : Nat} {t u b : Ty} {ts bounds : List Ty}

theorem IsSubtype.subtype?_ne_false (h : s.IsSubtype t u) (n : Nat) :
    s.subtype? n t u ≠ some false :=
  fun hfalse => not_isSubtype hfalse h

/-- A question that is settled, and not by a refusal, is answered with yes. -/
theorem Settled.isSubtype (h : s.Settled t u) (hne : ∀ n, s.subtype? n t u ≠ some false) :
    s.IsSubtype t u := by
  obtain ⟨v, hv⟩ := h
  cases v with
  | true => exact hv
  | false =>
    obtain ⟨n, hn⟩ := hv
    exact absurd (hn n (Nat.le_refl n)) (hne n)

/-- **Subtyping unfolds its left side as concrete bounds do**, and asks for one of the types that
take its place. -/
theorem subtype?_unfolded (hc : t.isConcrete = false) (hw : t.isWildcard = false)
    (hu : u.isBound = true) (h : (s.system m).unfolded t = .ok ts) :
    s.subtype? (n + 1) t u = ts.anyM fun part => s.subtype? n part u := by
  obtain ⟨huw, hur, hi⟩ :
      u.isWildcard = false ∧ u.isReference = true ∧ u.kind ≠ .intersection := by
    cases u with
    | array _ | declared _ _ => exact ⟨rfl, rfl, by simp [Ty.kind]⟩
    | _ => cases hu
  cases t with
  | var v =>
    have hne : Ty.var v ≠ u := by rintro rfl; cases hu
    obtain ⟨bound, hbound, rfl⟩ := TypeSystem.unfolded_var_eq_ok_iff.1 h
    rw [subtype?_var huw hur hi hne, show s.bound? v = some bound from hbound]
    exact (anyM_singleton (fun part => s.subtype? n part u) bound).symm
  | intersection parts =>
    obtain rfl : parts = ts := by simpa [TypeSystem.unfolded] using h
    exact subtype?_intersection_left huw hur hi parts
  | wildcard upper lower => cases hw
  | _ => cases hc

section

variable (hbounds : (s.system m).BoundedBy t bounds)
  (hmeets : (s.system m).MeetsNoWildcard t) (hu : u.isBound = true)

include hbounds hmeets hu

/-- Some bound of a subtype is a subtype. -/
theorem exists_bound_of_within (h : s.SubtypeWithin n t u) : ∃ b ∈ bounds, s.IsSubtype b u := by
  -- on the steps of unfolding, each of which takes one unit of fuel
  induction hbounds generalizing n with
  | concrete _ => exact ⟨_, by simp, h.isSubtype⟩
  | @unfold t ts bounds hc ht _ ih =>
    cases n with
    | zero => cases h
    | succ n =>
      rw [SubtypeWithin, subtype?_unfolded hc hmeets.self hu ht] at h
      obtain ⟨part, hpart, h⟩ := SettledBy.exists_of_anyM h
      obtain ⟨b, hb, h⟩ := ih part hpart (hmeets.of_unfolded ht hpart) h
      exact ⟨b, List.mem_flatMap.2 ⟨part, hpart, hb⟩, h⟩

/-- A type with a bound that is a subtype is not refused. -/
theorem subtype?_ne_false_of_bound (hb : b ∈ bounds) (h : s.IsSubtype b u) (n : Nat) :
    s.subtype? n t u ≠ some false := by
  induction hbounds generalizing n with
  | concrete _ =>
    rw [List.mem_singleton.1 hb] at h
    exact h.subtype?_ne_false n
  | @unfold t ts bounds hc ht _ ih =>
    cases n with
    | zero => exact nofun
    | succ n =>
      rw [subtype?_unfolded hc hmeets.self hu ht]
      obtain ⟨part, hpart, hb⟩ := List.mem_flatMap.1 hb
      have hne := ih part hpart (hmeets.of_unfolded ht hpart) hb n
      exact anyM_ne_false hpart hne

theorem settled_of_bounds (h : ∀ b ∈ bounds, s.Settled b u) : s.Settled t u := by
  induction hbounds with
  | concrete _ => exact h _ (by simp)
  | @unfold t ts bounds hc ht _ ih =>
    have hparts : ∀ part ∈ ts, s.Settled part u := fun part hpart =>
      ih part hpart (hmeets.of_unfolded ht hpart) fun b hb =>
        h b (List.mem_flatMap.2 ⟨part, hpart, hb⟩)
    exact settled_of_succ (Settles.exists_anyM hparts) fun n =>
      subtype?_unfolded hc hmeets.self hu ht

end

/-- **A type is below an array or a class type if and only if one of its concrete bounds is**, where
no wildcard is met and the question has an answer; it has one if those about the bounds have. -/
theorem isSubtype_iff_of_concreteBounds (hbounds : (s.system m).concreteBounds t = .ok bounds)
    (hmeets : (s.system m).MeetsNoWildcard t) (hu : u.isBound = true) :
    ((∀ b ∈ bounds, s.Settled b u) → s.Settled t u) ∧
      (s.Settled t u → (s.IsSubtype t u ↔ ∃ b ∈ bounds, s.IsSubtype b u)) := by
  have hbounds := TypeSystem.boundedBy_of_concreteBounds (by rfl) hbounds
  refine ⟨settled_of_bounds hbounds hmeets hu, fun hsettled => ⟨fun h => ?_, ?_⟩⟩
  · obtain ⟨n, h⟩ := h.exists_within
    exact exists_bound_of_within hbounds hmeets hu h
  · rintro ⟨b, hb, h⟩
    exact hsettled.isSubtype (subtype?_ne_false_of_bound hbounds hmeets hu hb h)

/-- `N extends Number & Serializable` and `M extends N & Comparable<M>`. -/
def nested : ClassTable :=
  base
    |>.addTypeVar ⟨"N", [ClassId.number.ty, ClassId.serializable.ty]⟩
    |>.addTypeVar ⟨"M", [.var ⟨11⟩, .declared .comparable [.var ⟨12⟩]]⟩

theorem nested_varBounds : (nested.system 0).varBounds .empty ⟨12⟩ =
    .ok [ClassId.number.ty, ClassId.serializable.ty, .declared .comparable [.var ⟨12⟩]] := by
  have hm : (nested.system 0).bound? ⟨12⟩ =
      some (.intersection [.var ⟨11⟩, .declared .comparable [.var ⟨12⟩]]) := rfl
  have hn : (nested.system 0).bound? ⟨11⟩ =
      some (.intersection [ClassId.number.ty, ClassId.serializable.ty]) := rfl
  rw [TypeSystem.varBounds_of_bound? List.not_mem_nil hm, Ty.boundsWith, Ty.boundsWithList,
    Ty.boundsWith, TypeSystem.varBounds_of_bound? (by decide) hn]
  rfl

/-- `List<?> & M` is below `Comparable<? extends Number>`, as the last bound of `M` is. -/
theorem isSubtype_iff_nested :
    let list : Ty := .declared .list [.wildcard none none]
    let selfComparable : Ty := .declared .comparable [.var ⟨12⟩]
    let t : Ty := .intersection [list, .var ⟨12⟩]
    let bounds : List Ty :=
      [list, ClassId.number.ty, ClassId.serializable.ty, selfComparable]
    let u : Ty := .declared .comparable [.wildcard (some ClassId.number.ty) none]
    (nested.system 0).concreteBounds t = .ok bounds ∧
      (nested.system 0).MeetsNoWildcard t ∧ u.isBound = true ∧
      nested.Settled t u ∧ nested.IsSubtype selfComparable u ∧ nested.IsSubtype t u := by
  intro list selfComparable t bounds u
  have hbounds : (nested.system 0).concreteBounds t = .ok bounds := by
    simp only [t, TypeSystem.concreteBounds, Ty.boundsWith, Ty.boundsWithList, nested_varBounds]
    rfl
  have hmeets : (nested.system 0).MeetsNoWildcard t := by
    intro w hw
    let met : List Ty := [t, .var ⟨12⟩, .intersection [.var ⟨11⟩, selfComparable], .var ⟨11⟩,
      .intersection [ClassId.number.ty, ClassId.serializable.ty]] ++ bounds
    have hmem : w ∈ met := hw.mem_of_closed (by decide) (by decide)
    exact (by decide : ∀ w ∈ met, w.isWildcard = false) w hmem
  have hsettled : ∀ b ∈ bounds, nested.Settled b u := fun b hb =>
    settled_of_isSome (n := 8) ((by decide : ∀ b ∈ bounds, (nested.subtype? 8 b u).isSome) b hb)
  have hself : nested.IsSubtype selfComparable u :=
    SubtypeWithin.isSubtype (by decide : nested.SubtypeWithin 8 _ _)
  have hu : u.isBound = true := rfl
  obtain ⟨hsettle, hiff⟩ := isSubtype_iff_of_concreteBounds hbounds hmeets hu
  exact ⟨hbounds, hmeets, hu, hsettle hsettled, hself,
    (hiff (hsettle hsettled)).2 ⟨selfComparable, by simp [bounds], hself⟩⟩

end Wiring.ClassTable
