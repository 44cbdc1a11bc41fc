import Wiring.Proofs.Faults
import Wiring.TypeSystem.Assignable
import Wiring.TypeSystem.Relations
/-!
# Faults of bounds

Unfolding a type to its bounds and comparing lists of bounds can fail, in any type system, with
faults of bounds only (`TypeError.IsBoundFault`): never because a type stands on the wrong side of
a comparison.
-/

namespace Wiring

/-- A fault that is found where a type is unfolded to its bounds, or bounds are compared. -/
def TypeError.IsBoundFault : TypeError → Prop
  | .malformedWildcard | .malformedBound _ | .unknownTypeVariable _ | .cyclicBound _ => True
  | .illegalKind .. | .wildcardPayloadArgument => False

namespace Ty

variable {top : Ty} {varBounds : TypeVarId → Except TypeError (List Ty)} {P : TypeError → Prop}

theorem boundsWithList_failsOnly {ts : List Ty}
    (h : ∀ t ∈ ts, FailsOnly P (boundsWith top varBounds t)) :
    FailsOnly P (boundsWithList top varBounds ts) := by
  induction ts with
  | nil => exact .ok []
  | cons t ts ih =>
    exact (h t (by simp)).bind fun _ _ =>
      (ih fun t ht => h t (by simp [ht])).bind fun _ _ => .ok _

/-- Besides the faults of its variables, a type has only that of a wildcard with both bounds. -/
theorem boundsWith_failsOnly (hvar : ∀ v, FailsOnly P (varBounds v)) (hw : P .malformedWildcard)
    (t : Ty) : FailsOnly P (boundsWith top varBounds t) := by
  induction t with
  | primitive p => exact .ok _
  | array t _ => exact .ok _
  | declared c args _ => exact .ok _
  | var v => exact hvar v
  | wildcard upper lower ihu ihl =>
    cases upper with
    | none =>
      cases lower with
      | none => exact .ok _
      | some l => exact ihl l rfl
    | some u =>
      cases lower with
      | none => exact ihu u rfl
      | some l => exact .error hw
  | intersection ts ih => exact boundsWithList_failsOnly ih

end Ty

namespace TypeSystem

variable (sys : TypeSystem)

theorem varBounds_failsOnly (path : VarPath) (v : TypeVarId) :
    FailsOnly TypeError.IsBoundFault (sys.varBounds path v) := by
  induction hroom : path.room using Nat.strongRecOn generalizing path v with
  | _ room ih =>
    unfold varBounds
    split
    · exact .error trivial
    · rename_i hv
      split
      · exact .error trivial
      · exact Ty.boundsWith_failsOnly
          (fun w => ih _ (hroom ▸ path.room_push_lt v hv) (path.push v hv) w rfl) trivial _

theorem concreteBounds_failsOnly (t : Ty) :
    FailsOnly TypeError.IsBoundFault (sys.concreteBounds t) :=
  Ty.boundsWith_failsOnly (sys.varBounds_failsOnly .empty) trivial t

theorem concreteBoundsList_failsOnly (ts : List Ty) :
    FailsOnly TypeError.IsBoundFault (sys.concreteBoundsList ts) := by
  unfold concreteBoundsList
  split
  · exact .ok ts
  · exact Ty.boundsWithList_failsOnly fun t _ => sys.concreteBounds_failsOnly t

theorem requireBound_failsOnly (t : Ty) : FailsOnly TypeError.IsBoundFault (requireBound t) := by
  unfold requireBound
  split
  · exact .ok ()
  · exact .ok ()
  · exact .error trivial

/-- **Comparing bounds fails with faults of bounds only.** -/
theorem boundsAssignable_failsOnly (receivers payloads : List Ty) :
    FailsOnly TypeError.IsBoundFault (sys.boundsAssignable receivers payloads) :=
  (sys.concreteBoundsList_failsOnly receivers).bind fun _ _ =>
    (sys.concreteBoundsList_failsOnly payloads).bind fun _ _ =>
      .allM fun receiver _ => .anyM fun payload _ =>
        (requireBound_failsOnly receiver).bind fun _ _ =>
          (requireBound_failsOnly payload).bind fun _ _ => .ok _

theorem isUnboundedOrTop_failsOnly (t : Ty) :
    FailsOnly TypeError.IsBoundFault (sys.isUnboundedOrTop t) := by
  unfold isUnboundedOrTop
  split
  · exact .ok true
  · unfold isUnboundedVar
    split
    · refine (sys.concreteBounds_failsOnly _).bind fun bounds _ => ?_
      split <;> exact .ok _
    · exact .ok false

end TypeSystem

end Wiring
