import Mathlib.Logic.Relation
import Wiring.Proofs.TypeSystem.Bounds
/-!
# Unfolding step by step

What computing the concrete bounds of a type does, one step at a time: a variable gives way to its
bound, an intersection to its members and a wildcard to the one bound it has (`unfolded`). Concrete
bounds are found in finitely many such steps (`boundedBy_of_concreteBounds`), so that what a step
keeps can be shown of them by induction on the steps.
-/

namespace Wiring.TypeSystem

/-- The types that take the place of a type when it is unfolded once. A concrete type stays. -/
def unfolded (sys : TypeSystem) : Ty → Except TypeError (List Ty)
  | .var v =>
    match sys.bound? v with
    | none => .error (.unknownTypeVariable v)
    | some bound => .ok [bound]
  | .intersection ts => .ok ts
  | .wildcard none none => .ok [sys.top]
  | .wildcard (some t) none | .wildcard none (some t) => .ok [t]
  | .wildcard (some _) (some _) => .error .malformedWildcard
  | t => .ok [t]

/-- The type `u` is met when `t` is unfolded. -/
def Meets (sys : TypeSystem) : (t u : Ty) → Prop :=
  Relation.ReflTransGen fun t u => ∃ ts, sys.unfolded t = .ok ts ∧ u ∈ ts

/-- No wildcard is met when the type is unfolded. -/
def MeetsNoWildcard (sys : TypeSystem) (t : Ty) : Prop := ∀ u, sys.Meets t u → u.isWildcard = false

/-- Unfolding ends with these concrete types. -/
inductive BoundedBy (sys : TypeSystem) : (t : Ty) → (bounds : List Ty) → Prop where
  | concrete {t : Ty} : t.isConcrete = true → BoundedBy sys t [t]
  | unfold {t : Ty} {ts : List Ty} {bounds : Ty → List Ty} : t.isConcrete = false →
      sys.unfolded t = .ok ts → (∀ u ∈ ts, BoundedBy sys u (bounds u)) →
      BoundedBy sys t (ts.flatMap bounds)

variable {sys : TypeSystem} {t u : Ty} {ts bounds : List Ty} {v : TypeVarId}

theorem unfolded_of_isConcrete (h : t.isConcrete = true) : sys.unfolded t = .ok [t] := by
  cases t with
  | primitive _ | array _ | declared _ _ => rfl
  | _ => cases h

theorem unfolded_var {bound : Ty} (h : sys.bound? v = some bound) :
    sys.unfolded (.var v) = .ok [bound] := by
  simp only [unfolded, h]

theorem unfolded_var_eq_ok_iff :
    sys.unfolded (.var v) = .ok ts ↔ ∃ bound, sys.bound? v = some bound ∧ ts = [bound] := by
  cases h : sys.bound? v <;> simp [unfolded, h, eq_comm]

theorem Meets.step (ht : sys.unfolded t = .ok ts) (hmem : u ∈ ts) : sys.Meets t u :=
  .single ⟨ts, ht, hmem⟩

/-- What is met is in every list that unfolding does not leave. -/
theorem Meets.mem_of_closed {l : List Ty}
    (hl : ∀ t ∈ l, ∀ ts ∈ (sys.unfolded t).toOption, ts ⊆ l) (ht : t ∈ l) (h : sys.Meets t u) :
    u ∈ l := by
  induction h with
  | refl => exact ht
  | tail _ hstep ih =>
    obtain ⟨ts, hts, hu⟩ := hstep
    exact hl _ ih ts (by rw [hts]; rfl) hu

namespace MeetsNoWildcard

theorem self (h : sys.MeetsNoWildcard t) : t.isWildcard = false := h t .refl

theorem of_unfolded (h : sys.MeetsNoWildcard t) (ht : sys.unfolded t = .ok ts) (hu : u ∈ ts) :
    sys.MeetsNoWildcard u :=
  fun w hw => h w ((Meets.step ht hu).trans hw)

end MeetsNoWildcard

theorem BoundedBy.single (hc : t.isConcrete = false) (ht : sys.unfolded t = .ok [u])
    (hu : sys.BoundedBy u bounds) : sys.BoundedBy t bounds := by
  have h : sys.BoundedBy t ([u].flatMap fun _ => bounds) := .unfold hc ht (by simpa using hu)
  simpa using h

section

variable (htop : sys.top.isConcrete = true)

include htop

theorem boundedBy_of_boundsWith {varBounds : TypeVarId → Except TypeError (List Ty)}
    (hvar : ∀ v bounds, varBounds v = .ok bounds → sys.BoundedBy (.var v) bounds)
    (h : Ty.boundsWith sys.top varBounds t = .ok bounds) : sys.BoundedBy t bounds := by
  induction t generalizing bounds with
  | primitive p | array t _ | declared c args _ =>
    cases h
    exact .concrete rfl
  | var v => exact hvar v bounds h
  | intersection ts ih =>
    obtain ⟨f, hf, rfl⟩ := Ty.boundsWithList_eq_ok_iff.1 h
    exact .unfold rfl rfl fun u hu => ih u hu (hf u hu)
  | wildcard upper lower ihu ihl =>
    cases upper with
    | none =>
      cases lower with
      | none =>
        cases h
        exact .single rfl rfl (.concrete htop)
      | some l => exact .single rfl rfl (ihl l rfl h)
    | some u =>
      cases lower with
      | none => exact .single rfl rfl (ihu u rfl h)
      | some l => cases h

theorem boundedBy_of_varBounds {path : VarPath}
    (h : sys.varBounds path v = .ok bounds) : sys.BoundedBy (.var v) bounds := by
  induction hroom : path.room using Nat.strongRecOn generalizing path v bounds with
  | _ room ih =>
    unfold varBounds at h
    split at h
    case isTrue => cases h
    case isFalse hv =>
      split at h
      case h_1 => cases h
      case h_2 bound hbound =>
        refine .single rfl (unfolded_var hbound) (boundedBy_of_boundsWith htop ?_ h)
        exact fun w bounds hw => ih _ (hroom ▸ path.room_push_lt v hv) hw rfl

/-- **Concrete bounds are found by unfolding step by step.** -/
theorem boundedBy_of_concreteBounds (h : sys.concreteBounds t = .ok bounds) :
    sys.BoundedBy t bounds :=
  boundedBy_of_boundsWith htop (fun _ _ hv => boundedBy_of_varBounds htop hv) h

end

end Wiring.TypeSystem
