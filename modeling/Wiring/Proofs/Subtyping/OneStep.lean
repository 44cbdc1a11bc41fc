import Wiring.Proofs.Hierarchy.WellScoped
import Wiring.Proofs.Subtyping.Monotone
import Wiring.Proofs.Subtyping.View
/-!
# One step of subtyping

What a question about subtypes comes down to, by the shapes of the two types. Between class types it
climbs to the class asked for and compares the arguments found there: in an ordered table the climb
ends (`Ordered.exists_view?`), so that the question is settled when those about the arguments are
(`Ordered.exists_subtype?_declared`).
-/

namespace Wiring.ClassTable

variable {s : ClassTable} {n : Nat} {c d : ClassId} {args targetArgs : List Ty} {t u : Ty}

/-- What a step between two types that are not the same comes down to, by their shapes. -/
def unequalStep (s : ClassTable) (ask : (sub sup : Ty) → Option Bool)
    (view : ClassId → List Ty → ClassId → Option (Option (List Ty))) (sub sup : Ty) :
    Option Bool :=
  match sub, sup with
  | .wildcard .., _ => some false
  | _, .wildcard .. => some false
  | .primitive p, .primitive q => some (p.widensTo q)
  | .primitive _, _ => some false
  | _, .primitive _ => some false
  | _, .intersection parts => parts.allM fun part => ask sub part
  | .intersection parts, _ => parts.anyM fun part => ask part sup
  | .var v, _ => (s.bound? v).elim (some false) (ask · sup)
  | _, .var _ => some false
  | .array t, .array u => componentSubtype? ask t u
  | .array _, .declared d args =>
    some (args.isEmpty && [ClassId.object, ClassId.cloneable, ClassId.serializable].contains d)
  | .declared .., .array _ => some false
  | .declared c args, .declared d targetArgs =>
    if d = .object ∧ targetArgs = [] then some true
    else view c args d >>= fun found => viewSubtype? ask found targetArgs

theorem subtype?_self (n : Nat) (t : Ty) : s.subtype? (n + 1) t t = some true :=
  if_pos BEq.rfl

theorem subtype?_of_ne (hne : t ≠ u) :
    s.subtype? (n + 1) t u = s.unequalStep (s.subtype? n) (s.view? n) t u := by
  have hb : ¬ (t == u) = true := by simpa using hne
  have hstep : s.subtype? (n + 1) t u = s.subtypeStep (s.subtype? n) (s.view? n) t u := rfl
  rw [hstep]
  unfold subtypeStep
  rw [if_neg hb]
  cases t with
  | var v => cases u <;> first | rfl | (cases hv : s.bound? v <;> simp [unequalStep, hv])
  | _ => cases u <;> rfl

theorem eq_true_of_subtype?_self {v : Bool} (h : s.subtype? n t t = some v) : v = true := by
  cases n with
  | zero => cases h
  | succ n =>
    rw [subtype?_self] at h
    cases h
    rfl

/-- A step between different class types climbs, unless it asks for the root. -/
theorem subtype?_declared (hne : Ty.declared c args ≠ .declared d targetArgs)
    (hobject : ¬ (d = .object ∧ targetArgs = [])) :
    s.subtype? (n + 1) (.declared c args) (.declared d targetArgs) =
      (s.view? n c args d >>= fun view => viewSubtype? (s.subtype? n) view targetArgs) :=
  (subtype?_of_ne hne).trans (if_neg hobject)

theorem settles_subtype?_declared {view : Option (List Ty)} {v : Bool}
    (hne : Ty.declared c args ≠ .declared d targetArgs)
    (hobject : ¬ (d = .object ∧ targetArgs = []))
    (hview : Settles (fun n => s.view? n c args d) view)
    (hv : Settles (fun n => viewSubtype? (s.subtype? n) view targetArgs) v) :
    Settles (fun n => s.subtype? n (.declared c args) (.declared d targetArgs)) v :=
  Settles.of_succ ((hview.bind hv).congr fun _ => (subtype?_declared hne hobject).symm)

theorem settles_subtype?_self (t : Ty) : Settles (fun n => s.subtype? n t t) true :=
  Settles.of_succ ((Settles.const true).congr fun n => (subtype?_self n t).symm)

theorem subtype?_object (n : Nat) (c : ClassId) (args : List Ty) :
    s.subtype? (n + 1) (.declared c args) ClassId.object.ty = some true := by
  by_cases hne : Ty.declared c args = .declared .object []
  · rw [hne]
    exact subtype?_self n _
  · exact subtype?_of_ne hne

theorem settles_subtype?_object (c : ClassId) (args : List Ty) :
    Settles (fun n => s.subtype? n (.declared c args) ClassId.object.ty) true :=
  Settles.of_succ ((Settles.const true).congr fun n => (subtype?_object n c args).symm)

theorem subtype?_array (hne : t ≠ u) :
    s.subtype? (n + 1) (.array t) (.array u) = componentSubtype? (s.subtype? n) t u :=
  subtype?_of_ne (by simpa using hne)

/-- Below an intersection is what is below each of its members. -/
theorem subtype?_intersection_right {parts : List Ty} (ht : t.isWildcard = false)
    (htr : t.isReference = true) (hne : t ≠ .intersection parts) :
    s.subtype? (n + 1) t (.intersection parts) = parts.allM fun part => s.subtype? n t part := by
  cases t with
  | primitive p => cases htr
  | wildcard _ _ => cases ht
  | _ => exact subtype?_of_ne hne

section

variable (hw : u.isWildcard = false) (hr : u.isReference = true) (hi : u.kind ≠ .intersection)

include hw hr hi

/-- An intersection is below what one of its members is below. -/
theorem subtype?_intersection_left (parts : List Ty) :
    s.subtype? (n + 1) (.intersection parts) u = parts.anyM fun part => s.subtype? n part u := by
  cases u with
  | primitive p => cases hr
  | wildcard _ _ => cases hw
  | intersection _ => exact absurd rfl hi
  | _ => exact subtype?_of_ne nofun

/-- A variable is below what its bound is below. -/
theorem subtype?_var {v : TypeVarId} (hne : .var v ≠ u) :
    s.subtype? (n + 1) (.var v) u = (s.bound? v).elim (some false) (s.subtype? n · u) := by
  cases u with
  | primitive p => cases hr
  | wildcard _ _ => cases hw
  | intersection _ => exact absurd rfl hi
  | _ => exact subtype?_of_ne hne

end

/-- Containment in an argument that is no wildcard is sameness. -/
theorem contains?_of_not_wildcard (ask : Ty → Ty → Option Bool) (h : t.isWildcard = false) :
    contains? ask t u = some (t.sameType u) := by
  cases t with
  | wildcard _ _ => cases h
  | _ => rfl

theorem contains?_upper (ask : Ty → Ty → Option Bool) (upper : Ty) (h : t.isWildcard = false) :
    contains? ask (.wildcard (some upper) none) t = ask t upper := by
  cases t with
  | wildcard _ _ => cases h
  | _ => rfl

theorem contains?_lower (ask : Ty → Ty → Option Bool) (lower : Ty) (h : t.isWildcard = false) :
    contains? ask (.wildcard none (some lower)) t = ask lower t := by
  cases t with
  | wildcard _ _ => cases h
  | _ => rfl

/-! ## Climbing -/

namespace Ordered

variable (hs : s.Ordered)

include hs

/-- The view of a class type is some instance of the target above it; there is none only where no
instance stands above. -/
theorem exists_view? (c : ClassId) (args : List Ty) (target : ClassId) :
    ∃ view, Settles (fun n => s.view? n c args target) view ∧
      (∀ as, view = some as → Climbs s.supertypes (.declared c args) (.declared target as)) ∧
      (view = none → ∀ as, ¬ Climbs s.supertypes (.declared c args) (.declared target as)) := by
  obtain ⟨ts, hw, -⟩ := hs.exists_closure? (.declared c args)
  refine ⟨_, view?_of_walks hw (hs.declared_of_walks hw) target, fun as hview => ?_, fun hview as hclimb => ?_⟩
  · obtain ⟨t, ht, rfl⟩ := Option.map_eq_some_iff.1 hview
    obtain ⟨bs, rfl⟩ := eq_declared_of_firstOf ht
    exact hw.mem_iff.1 (mem_of_firstOf ht)
  · have hfirst := firstOf_eq_none_iff.1 (Option.map_eq_none_iff.1 hview)
    exact hfirst _ (hw.mem_iff.2 hclimb) rfl

/-- A question between class types is settled when those about the arguments above are. -/
theorem exists_subtype?_declared
    (hargs : ∀ as, Climbs s.supertypes (.declared c args) (.declared d as) →
      ∀ pair ∈ targetArgs.zip as,
        ∃ v, Settles (fun n => contains? (s.subtype? n) pair.1 pair.2) v) :
    ∃ v, Settles (fun n => s.subtype? n (.declared c args) (.declared d targetArgs)) v := by
  by_cases hne : Ty.declared c args = .declared d targetArgs
  · rw [hne]
    exact ⟨true, settles_subtype?_self _⟩
  by_cases hobject : d = .object ∧ targetArgs = []
  · obtain ⟨rfl, rfl⟩ := hobject
    exact ⟨true, settles_subtype?_object c args⟩
  obtain ⟨view, hview, hclimb, -⟩ := hs.exists_view? c args d
  obtain ⟨v, hv⟩ : ∃ v, Settles (fun n => viewSubtype? (s.subtype? n) view targetArgs) v := by
    cases view with
    | none => exact ⟨false, Settles.const false⟩
    | some as =>
      simp only [viewSubtype?]
      split
      · exact ⟨true, Settles.const true⟩
      · split
        · exact ⟨false, Settles.const false⟩
        · exact Settles.exists_allM (hargs as (hclimb as rfl))
  exact ⟨v, settles_subtype?_declared hne hobject hview hv⟩

/-- Where one instance of each class stands above a class type, it is this one whose arguments are
compared. -/
theorem settles_subtype?_of_climbs {as : List Ty} {v : Bool}
    (hone : s.OneInstance (.declared c args))
    (ha : Climbs s.supertypes (.declared c args) (.declared d as))
    (hv : Settles (fun n => viewSubtype? (s.subtype? n) (some as) targetArgs) v)
    (hself : targetArgs = as → v = true) :
    Settles (fun n => s.subtype? n (.declared c args) (.declared d targetArgs)) v := by
  by_cases hne : Ty.declared c args = .declared d targetArgs
  · cases hne
    rw [hself (hone _ _ _ Relation.ReflTransGen.refl ha)]
    exact settles_subtype?_self _
  by_cases hobject : d = .object ∧ targetArgs = []
  · obtain ⟨rfl, rfl⟩ := hobject
    obtain ⟨n, hn⟩ := hv
    cases hn n (Nat.le_refl n)
    exact settles_subtype?_object c args
  obtain ⟨view, hview, hclimb, hnone⟩ := hs.exists_view? c args d
  cases view with
  | none => exact absurd ha (hnone rfl as)
  | some bs =>
    rw [hone _ _ _ (hclimb bs rfl) ha] at hview
    exact settles_subtype?_declared hne hobject hview hv

end Ordered

end Wiring.ClassTable
