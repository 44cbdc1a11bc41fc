import Wiring.Proofs.Hierarchy.Base
import Wiring.Proofs.Subtyping.Steps
/-!
# Subtyping after erasure

A raw class type is above the types whose class inherits from its class, with whatever arguments
(`Ordered.isSubtype_raw_iff`). So what holds of types with arguments holds of their erasures
(`Ordered.isSubtype_erasure`), and what may be assigned is a subtype once arguments are dropped: the
unchecked use of a raw type adds nothing then (`Ordered.isSubtype_erasure_of_assignable`).
-/

namespace Wiring.ClassTable

variable {s : ClassTable} {n : Nat} {c d : ClassId}
  {args targetArgs as : List Ty} {t u : Ty}

/-- Where no variable is erased, references stay references. -/
theorem isReference_erasure (ht : t.element.isConcrete = true) (hr : t.isReference = true) :
    (s.erasure t).isReference = true := by
  cases t with
  | primitive p => cases hr
  | array t => rw [erasure_array]; rfl
  | declared c args => rw [erasure_declared]; rfl
  | _ => cases ht

namespace Ordered

variable (hs : s.Ordered)

include hs

/-- A climb that found something found an inherited class. -/
theorem inherits_of_view? (h : s.view? n c args d = some (some as)) : s.Inherits c d := by
  obtain ⟨view, hview, hclimb, -⟩ := hs.exists_view? c args d
  have hfound := hview.unique (settles_view? h)
  exact (hs.exists_climbs_iff args).1 ⟨as, hclimb as hfound⟩

/-- Subtyping of class types leads to a class that is inherited, or to the root. -/
theorem inherits_of_within (h : s.SubtypeWithin n (.declared c args) (.declared d targetArgs)) :
    d = .object ∨ s.Inherits c d := by
  cases n with
  | zero => cases h
  | succ n =>
    by_cases hne : Ty.declared c args = .declared d targetArgs
    · cases hne
      exact .inr Relation.ReflTransGen.refl
    by_cases hobject : d = .object ∧ targetArgs = []
    · exact .inl hobject.1
    rw [SubtypeWithin, subtype?_declared hne hobject] at h
    obtain ⟨view, hview, h⟩ := Option.bind_eq_some_iff.1 h
    cases view with
    | none => cases h
    | some as => exact .inr (hs.inherits_of_view? hview)

/-- **A raw class type is above the types whose class inherits from its class**; the root is above
all class types. -/
theorem isSubtype_raw_iff :
    s.IsSubtype (.declared c args) (.declared d []) ↔ d = .object ∨ s.Inherits c d := by
  constructor
  · intro h
    obtain ⟨n, hn⟩ := h.exists_within
    exact hs.inherits_of_within hn
  · rintro (rfl | h)
    · exact settles_subtype?_object c args
    by_cases hne : Ty.declared c args = .declared d []
    · rw [hne]
      exact settles_subtype?_self _
    by_cases hobject : d = .object
    · rw [hobject]
      exact settles_subtype?_object c args
    obtain ⟨as, hclimb⟩ := (hs.exists_climbs_iff args).2 h
    obtain ⟨view, hview, -, hnone⟩ := hs.exists_view? c args d
    refine settles_subtype?_declared hne (fun h => hobject h.1) hview ?_
    cases view with
    | none => exact absurd hclimb (hnone rfl as)
    | some bs => exact Settles.const true

/-- **Subtyping survives erasure**, where types are built from class types and primitives by
arrays. -/
theorem isSubtype_erasure (ht : t.element.isConcrete = true) (hu : u.element.isConcrete = true)
    (h : s.SubtypeWithin n t u) : s.IsSubtype (s.erasure t) (s.erasure u) := by
  induction n generalizing t u with
  | zero => cases h
  | succ n ih =>
    by_cases hne : t = u
    · rw [hne]
      exact settles_subtype?_self _
    have hstep := (subtype?_of_ne hne).symm.trans h
    cases t with
    | primitive p =>
      cases u with
      | primitive q => simpa using h.isSubtype
      | _ => cases hstep
    | array t =>
      cases u with
      | array u =>
        obtain ⟨htr, hur, h⟩ := h.component fun heq => hne (congrArg Ty.array heq)
        rw [erasure_array, erasure_array]
        exact (ih (t := t) (u := u) ht hu h).array (isReference_erasure ht htr)
          (isReference_erasure hu hur)
      | declared d targetArgs =>
        obtain ⟨rfl, hd⟩ := h.array
        rw [erasure_array, erasure_declared]
        exact isSubtype_array hd
      | primitive q => cases hstep
      | _ => cases hu
    | declared c args =>
      cases u with
      | declared d targetArgs =>
        rw [erasure_declared, erasure_declared]
        exact hs.isSubtype_raw_iff.2 (hs.inherits_of_within h)
      | primitive _ | array _ => cases hstep
      | _ => cases hu
    | _ => cases ht

/-- **Assignability is sound after erasure**: a reference that may be assigned is a subtype, once
arguments are dropped. -/
theorem isSubtype_erasure_of_assignable (ht : t.isBound = true) (hte : t.element.isConcrete = true)
    (hu : u.isBound = true) (hue : u.element.isConcrete = true)
    (h : s.assignable? n t u = some true) : s.IsSubtype (s.erasure t) (s.erasure u) := by
  rw [assignable?_eq] at h
  obtain ⟨isSubtype, hsub, h⟩ := Option.bind_eq_some_iff.1 h
  cases isSubtype with
  | true => exact hs.isSubtype_erasure hte hue hsub
  | false =>
    simp only [Bool.false_eq_true, if_false, conversion?] at h
    split at h
    case h_4 =>
      -- the unchecked use of a raw type climbs to a class as well
      obtain ⟨view, hview, h⟩ := Option.bind_eq_some_iff.1 h
      cases view with
      | none => cases h
      | some as =>
        rw [erasure_declared, erasure_declared]
        exact hs.isSubtype_raw_iff.2 (.inr (hs.inherits_of_view? hview))
    case h_2 => cases ht
    case h_3 => cases hu
    all_goals cases h

end Ordered

/-- `ArrayList<List<Integer>>[]` may be assigned to an array of
`Collection<? extends List<? extends Number>>`, and a raw `ArrayList` to `List<String>`. -/
theorem isSubtype_erasure_of_assignable_list :
    let rows : Ty := .array (.declared .arrayList [.declared .list [ClassId.integer.ty]])
    let numbers : Ty := .declared .list [.wildcard (some ClassId.number.ty) none]
    let wanted : Ty := .array (.declared .collection [.wildcard (some numbers) none])
    let strings : Ty := .declared .list [ClassId.string.ty]
    base.Ordered ∧ base.assignable? 8 rows wanted = some true ∧
      base.IsSubtype (.array ClassId.arrayList.ty) (.array ClassId.collection.ty) ∧
      base.assignable? 8 ClassId.arrayList.ty strings = some true ∧
      base.IsSubtype ClassId.arrayList.ty ClassId.list.ty := by
  intro rows numbers wanted strings
  have hs := base_regular.ordered
  have hrows : base.assignable? 8 rows wanted = some true := by decide
  have hraw : base.assignable? 8 ClassId.arrayList.ty strings = some true := by decide
  refine ⟨hs, hrows, ?_, hraw, ?_⟩
  · simpa [rows, wanted, ClassId.ty] using hs.isSubtype_erasure_of_assignable rfl rfl rfl rfl hrows
  · simpa [strings, ClassId.ty] using hs.isSubtype_erasure_of_assignable rfl rfl rfl rfl hraw

end Wiring.ClassTable
