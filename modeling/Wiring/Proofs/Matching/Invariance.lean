import Wiring.Proofs.Hierarchy.Base
import Wiring.Proofs.Matching.Erasure
import Wiring.Proofs.Matching.Ground
/-!
# Ground types match by equality

Matching compares raw forms, decides by them whether to look at type arguments, and comes back to
itself for each pair of these. For ground types all of this is equality (`accepts_ground`): only
arrays over one innermost type, and a primitive with its box where the policy has boxes, match
without being equal, and neither does so as a type argument.
-/

namespace Wiring

namespace Policy

variable {s : ClassTable} {fuel : Nat} {policy : Policy} {receiver payload : Ty} {c d : ClassId}
  {rs ps : List Ty}

theorem isBoxOf_iff (s : ClassTable) (fuel : Nat) (policy : Policy) (t : Ty) (p : Primitive) :
    policy.isBoxOf (s.system fuel) t p = true ↔ policy = .injection ∧ t = p.box.ty := by
  constructor
  · exact eq_box_of_isBoxOf s fuel
  · rintro ⟨rfl, rfl⟩
    rw [isBoxOf, Bool.and_eq_true]
    exact ⟨rfl, (s.identical_iff fuel _ _).2 rfl⟩

/-- Class types without the same raw form do not match. -/
theorem accepts_declared_of_head_ne (hp : s.FullyApplied [] (.declared d ps)) (hcd : c ≠ d) :
    policy.accepts (s.system fuel) (.declared c rs) (.declared d ps) = .ok false := by
  have hne : Ty.declared c rs ≠ .declared d ps := fun h => hcd (Ty.declared.inj h).1
  have hid : (s.system fuel).identical (.declared c rs) (.declared d ps) = false := by
    rw [Bool.eq_false_iff]
    exact fun h => hne ((s.identical_iff fuel _ _).1 h)
  have hraw : (s.system fuel).sameRawForm (.declared c rs) (.declared d ps) = false := by
    rw [Bool.eq_false_iff]
    exact fun h => hcd (Ty.declared.inj ((s.sameRawForm_iff fuel _ _).1 h)).1
  rw [accepts_of_ne rfl rfl hp.checkOfferedArgs hne]
  simp [acceptsShape, hid, hraw]

/-- Ground class types match only themselves. -/
theorem accepts_ground_declared (hr : s.FullyApplied [] (.declared c rs))
    (hp : s.FullyApplied [] (.declared d ps)) :
    policy.accepts (s.system fuel) (.declared c rs) (.declared d ps) =
      .ok (decide (c = d ∧ rs = ps)) := by
  by_cases hcd : c = d
  · subst hcd
    by_cases hargs : rs = ps
    · subst hargs
      rw [accepts_self rfl]
      simp
    · obtain ⟨decl, hd, hlen, hrs⟩ := ClassTable.FullyApplied.declared_iff.1 hr
      obtain ⟨-, -, -, hps⟩ := ClassTable.FullyApplied.declared_iff.1 hp
      have hlength : rs.length = ps.length := hlen.trans (hp.takes.length_eq hd).symm
      rw [accepts_declared hp hlength hargs, argumentsAccept_of_forall hlength fun r hr p hp =>
        argumentAccepts_ground (hrs r hr) (hps p hp)]
      simp [hargs]
  · rw [accepts_declared_of_head_ne hp hcd]
    simp [hcd]

/-- Ground types are never at fault. -/
theorem exists_accepts_ground (hr : s.FullyApplied [] receiver) (hp : s.FullyApplied [] payload) :
    ∃ fits, policy.accepts (s.system fuel) receiver payload = .ok fits := by
  by_cases heq : receiver = payload
  · subst heq
    exact ⟨true, accepts_self hr.isConcrete⟩
  have hshape : policy.accepts (s.system fuel) receiver payload =
      policy.acceptsShape (s.system fuel) receiver payload :=
    accepts_of_ne hr.isConcrete hp.isConcrete hp.checkOfferedArgs heq
  cases hr with
  | declared hd hlen hrs =>
    cases hp with
    | declared hd' hlen' hps =>
      exact ⟨_, accepts_ground_declared (.declared hd hlen hrs) (.declared hd' hlen' hps)⟩
    | var hv => cases hv
    | _ => exact ⟨_, hshape⟩
  | var hv => cases hv
  | _ =>
    cases hp with
    | var hv => cases hv
    | _ => exact ⟨_, hshape⟩

theorem accepts_of_arraysOver (hp : s.FullyApplied [] payload) (h : ArraysOver receiver payload) :
    policy.accepts (s.system fuel) receiver payload = .ok true := by
  obtain ⟨t, u, rfl, rfl, helement⟩ := h
  by_cases heq : Ty.array t = .array u
  · rw [heq, accepts_self rfl]
  · rw [accepts_of_ne rfl rfl hp.checkOfferedArgs heq]
    exact congrArg Except.ok ((s.identical_iff fuel _ _).2 helement)

theorem accepts_of_boxes (h : policy.Boxes receiver payload) :
    policy.accepts (s.system fuel) receiver payload = .ok true := by
  obtain ⟨hpolicy, p, ⟨rfl, rfl⟩ | ⟨rfl, rfl⟩⟩ := h
  · rw [accepts_of_ne rfl rfl rfl (by simp [ClassId.ty])]
    exact congrArg Except.ok ((isBoxOf_iff s fuel policy _ p).2 ⟨hpolicy, rfl⟩)
  · rw [accepts_of_ne rfl rfl rfl (by simp [ClassId.ty])]
    exact congrArg Except.ok ((isBoxOf_iff s fuel policy _ p).2 ⟨hpolicy, rfl⟩)

theorem accepts_ground_iff (hr : s.FullyApplied [] receiver) (hp : s.FullyApplied [] payload) :
    policy.accepts (s.system fuel) receiver payload = .ok true ↔
      receiver = payload ∨ ArraysOver receiver payload ∨ policy.Boxes receiver payload := by
  constructor
  · intro h
    obtain ⟨-, -, heq | ⟨-, hshape⟩⟩ := accepts_eq_true h
    · exact Or.inl heq
    · rcases acceptsShape_cases hshape with ⟨c, rs, ps, rfl, rfl⟩ | hrest
      · rw [accepts_ground_declared hr hp] at h
        exact Or.inl (by simpa using h)
      · exact Or.inr hrest
  · rintro (rfl | harrays | hboxes)
    · exact accepts_self hr.isConcrete
    · exact accepts_of_arraysOver hp harrays
    · exact accepts_of_boxes hboxes

/-- **Ground types match by equality**, up to the layers of arrays and up to boxes. As class types
and as type arguments they match themselves only. -/
theorem accepts_ground (s : ClassTable) (fuel : Nat) (policy : Policy) (receiver payload : Ty)
    (hr : s.FullyApplied [] receiver) (hp : s.FullyApplied [] payload) :
    (∃ fits, policy.accepts (s.system fuel) receiver payload = .ok fits ∧
      (fits = true ↔
        receiver = payload ∨ ArraysOver receiver payload ∨ policy.Boxes receiver payload)) ∧
    (receiver.kind = .declared → payload.kind = .declared →
      policy.accepts (s.system fuel) receiver payload = .ok (decide (receiver = payload))) ∧
    ∀ r ∈ receiver.args, ∀ p ∈ payload.args,
      policy.argumentAccepts (s.system fuel) r p (fun _ => policy.accepts (s.system fuel) r p) =
        .ok (decide (r = p)) := by
  refine ⟨?_, fun hrd hpd => ?_, fun r hmem p hmem' => ?_⟩
  · obtain ⟨fits, hfits⟩ : ∃ fits, policy.accepts (s.system fuel) receiver payload = .ok fits :=
      exists_accepts_ground hr hp
    refine ⟨fits, hfits, ?_⟩
    rw [← accepts_ground_iff hr hp, hfits, Except.ok.injEq]
  · cases receiver with
    | declared c rs =>
      cases payload with
      | declared d ps =>
        rw [accepts_ground_declared hr hp]
        simp
      | _ => cases hpd
    | _ => cases hrd
  · exact argumentAccepts_ground (hr.of_mem_args hmem) (hp.of_mem_args hmem')

/-- `int[][]` accepts `int[]`, but `Map<int[][], Integer>` does not accept `Map<int[], Integer>`:
as an argument `int[][]` accepts only itself. -/
theorem accepts_ground_map :
    let r : Ty := .declared .map [.array (.array (.primitive .int)), ClassId.integer.ty]
    let p : Ty := .declared .map [.array (.primitive .int), ClassId.integer.ty]
    ClassTable.base.FullyApplied [] r ∧ ClassTable.base.FullyApplied [] p ∧
      (∃ fits, Policy.injection.accepts (ClassTable.base.system 8) r p = .ok fits ∧
        (fits = true ↔ r = p ∨ ArraysOver r p ∨ Policy.injection.Boxes r p)) ∧
      Policy.injection.accepts (ClassTable.base.system 8) r p = .ok (decide (r = p)) := by
  intro r p
  have hr : ClassTable.base.FullyApplied [] r := by decide
  have hp : ClassTable.base.FullyApplied [] p := by decide
  have h := accepts_ground ClassTable.base 8 .injection r p hr hp
  exact ⟨hr, hp, h.1, h.2.1 rfl rfl⟩

end Policy

end Wiring
