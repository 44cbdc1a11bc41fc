import Wiring.Proofs.Matching.RawForm
import Wiring.Proofs.Matching.Shapes
/-!
# Matching and erasure

Types that match have the same erasure, or are a primitive and its box, or are arrays over one
innermost type (`erasure_of_accepts`). Arrays are compared by what lies below all their layers, so
the number of layers may differ (`accepts_across_dimensions`).
-/

namespace Wiring.Policy

open Ty

variable {s : ClassTable} {fuel : Nat} {policy : Policy} {receiver payload : Ty}

/-- One type is a primitive and the other is its box, under the policy that lets them match. -/
def Boxes (policy : Policy) (receiver payload : Ty) : Prop :=
  policy = .injection ∧ ∃ p : Primitive,
    receiver = .primitive p ∧ payload = p.box.ty ∨ payload = .primitive p ∧ receiver = p.box.ty

/-- Both types are arrays, of any number of layers, over the same type. -/
def ArraysOver (receiver payload : Ty) : Prop :=
  ∃ t u, receiver = .array t ∧ payload = .array u ∧ t.element = u.element

theorem eq_box_of_isBoxOf (s : ClassTable) (fuel : Nat) {t : Ty} {p : Primitive}
    (h : policy.isBoxOf (s.system fuel) t p = true) :
    policy = .injection ∧ t = p.box.ty := by
  obtain ⟨hp, ht⟩ := isBoxOf_eq_true h
  exact ⟨hp, ((s.identical_iff fuel _ _).1 ht).symm⟩

/-- Declared types that match are of one class. -/
theorem head_eq_of_acceptsShape {c d : ClassId} {rs ps : List Ty}
    (h : policy.acceptsShape (s.system fuel) (.declared c rs) (.declared d ps) = .ok true) :
    c = d := by
  simp only [acceptsShape] at h
  split at h
  · rename_i hid
    cases (s.identical_iff fuel _ _).1 hid
    rfl
  · split at h
    · cases h
    · rename_i hraw
      have hraw : (s.system fuel).sameRawForm (.declared c rs) (.declared d ps) = true := by
        simpa using hraw
      cases (s.sameRawForm_iff fuel _ _).1 hraw
      rfl

theorem head_eq_of_accepts {c d : ClassId} {rs ps : List Ty}
    (h : policy.accepts (s.system fuel) (.declared c rs) (.declared d ps) = .ok true) : c = d := by
  obtain ⟨-, -, heq | ⟨-, hs⟩⟩ := accepts_eq_true h
  · cases heq
    rfl
  · exact head_eq_of_acceptsShape hs

theorem acceptsShape_cases (h : policy.acceptsShape (s.system fuel) receiver payload = .ok true) :
    (∃ c rs ps, receiver = .declared c rs ∧ payload = .declared c ps) ∨
      ArraysOver receiver payload ∨ policy.Boxes receiver payload := by
  cases receiver with
  | primitive p =>
    cases payload with
    | declared d ps =>
      obtain ⟨hp, ht⟩ := eq_box_of_isBoxOf s fuel (Except.ok.inj h)
      exact Or.inr (Or.inr ⟨hp, p, Or.inl ⟨rfl, ht⟩⟩)
    | _ => cases h
  | array t =>
    cases payload with
    | array u =>
      have he := (s.identical_iff fuel _ _).1 (Except.ok.inj h)
      exact Or.inr (Or.inl ⟨t, u, rfl, rfl, he⟩)
    | _ => cases h
  | declared c rs =>
    cases payload with
    | primitive p =>
      obtain ⟨hp, ht⟩ := eq_box_of_isBoxOf s fuel (Except.ok.inj h)
      exact Or.inr (Or.inr ⟨hp, p, Or.inr ⟨rfl, ht⟩⟩)
    | declared d ps =>
      obtain rfl := head_eq_of_acceptsShape h
      exact Or.inl ⟨c, rs, ps, rfl, rfl⟩
    | _ => cases h
  | _ => cases h

/-- **Matching keeps the erasure**, up to boxing and up to the number of array layers. A required
array accepts arrays over its own innermost type only. -/
theorem erasure_of_accepts (s : ClassTable) (fuel : Nat) (policy : Policy) (receiver payload : Ty)
    (h : policy.accepts (s.system fuel) receiver payload = .ok true) :
    (s.erasure receiver = s.erasure payload ∨ ArraysOver receiver payload ∨
        policy.Boxes receiver payload) ∧
      ∀ t, receiver = .array t → ∃ u, payload = .array u ∧ u.element = t.element := by
  obtain ⟨-, -, rfl | ⟨-, hs⟩⟩ := accepts_eq_true h
  · exact ⟨Or.inl rfl, fun t ht => ⟨t, ht, rfl⟩⟩
  · rcases acceptsShape_cases hs with ⟨c, rs, ps, rfl, rfl⟩ | ha | hb
    · exact ⟨Or.inl (by simp), fun t ht => by cases ht⟩
    · refine ⟨Or.inr (Or.inl ha), fun t ht => ?_⟩
      obtain ⟨t', u, ht', hu, he⟩ := ha
      cases ht.symm.trans ht'
      exact ⟨u, hu, he.symm⟩
    · refine ⟨Or.inr (Or.inr hb), fun t ht => ?_⟩
      obtain ⟨-, p, ⟨hr, -⟩ | ⟨-, hr⟩⟩ := hb
      · cases ht.symm.trans hr
      · cases ht.symm.trans hr

/-- `List<? extends Number>` matches `List<Integer>`, and both erase to `List`. -/
theorem erasure_of_accepts_list :
    Policy.event.accepts (ClassTable.base.system 4)
        (.declared .list [.wildcard (some ClassId.number.ty) none])
        (.declared .list [ClassId.integer.ty]) = .ok true ∧
      (ClassTable.base.erasure (.declared .list [.wildcard (some ClassId.number.ty) none]) =
          ClassTable.base.erasure (.declared .list [ClassId.integer.ty]) ∨
        ArraysOver (.declared .list [.wildcard (some ClassId.number.ty) none])
          (.declared .list [ClassId.integer.ty]) ∨
        Policy.event.Boxes (.declared .list [.wildcard (some ClassId.number.ty) none])
          (.declared .list [ClassId.integer.ty])) := by
  have h : Policy.event.accepts (ClassTable.base.system 4)
      (.declared .list [.wildcard (some ClassId.number.ty) none])
      (.declared .list [ClassId.integer.ty]) = .ok true := rfl
  exact ⟨h, (erasure_of_accepts ClassTable.base 4 .event _ _ h).1⟩

/-- `int[][]` accepts `int[]`, although their erasures differ and no box plays a part. -/
theorem accepts_across_dimensions :
    ∃ receiver payload : Ty,
      receiver = .array (.array (.primitive .int)) ∧ payload = .array (.primitive .int) ∧
      Policy.injection.accepts (ClassTable.base.system ClassTable.ampleFuel) receiver payload =
        .ok true ∧
      ¬ (ClassTable.base.erasure receiver = ClassTable.base.erasure payload ∨
        Policy.injection.Boxes receiver payload) := by
  refine ⟨_, _, rfl, rfl, rfl, ?_⟩
  rintro (h | ⟨-, p, ⟨h, -⟩ | ⟨h, -⟩⟩)
  · simp at h
  · cases h
  · cases h

end Wiring.Policy
