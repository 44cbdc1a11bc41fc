import Wiring.Ty.Subst
/-!
# Parts of types

The parts of a type are the type itself and what it is built from, at every depth: components,
arguments, bounds and members. `lowerDepth` counts how often one has to enter the lower bound of a
wildcard on the way to a part.
-/

namespace Wiring.Ty

mutual

/-- The type and the types it is built from, at every depth. -/
def parts : Ty → List Ty
  | .primitive p => [.primitive p]
  | .array t => .array t :: t.parts
  | .declared c ts => .declared c ts :: partsList ts
  | .var v => [.var v]
  | .wildcard upper lower => .wildcard upper lower :: (partsOption upper ++ partsOption lower)
  | .intersection ts => .intersection ts :: partsList ts

def partsList : List Ty → List Ty
  | [] => []
  | t :: ts => t.parts ++ partsList ts

def partsOption : Option Ty → List Ty
  | none => []
  | some t => t.parts

end

variable {c : ClassId} {args : List Ty} {t u a : Ty}

@[simp] theorem partsList_eq_flatMap (ts : List Ty) : partsList ts = ts.flatMap parts := by
  induction ts with
  | nil => rfl
  | cons t ts ih => simp [partsList, ih]

@[simp] theorem self_mem_parts (t : Ty) : t ∈ t.parts := by
  cases t <;> simp [parts]

theorem mem_parts_array (h : u ∈ t.parts) : u ∈ (Ty.array t).parts := by
  simp [parts, h]

/-- Parts of an argument are parts of the type. -/
theorem mem_parts_declared (ha : a ∈ args) (h : u ∈ a.parts) : u ∈ (Ty.declared c args).parts := by
  rw [parts, partsList_eq_flatMap, List.mem_cons]
  exact .inr (List.mem_flatMap.2 ⟨a, ha, h⟩)

/-- What a type is built from at once. -/
def children : Ty → List Ty
  | .primitive _ | .var _ => []
  | .array t => [t]
  | .declared _ ts | .intersection ts => ts
  | .wildcard upper lower => upper.toList ++ lower.toList

theorem parts_eq_children (t : Ty) : t.parts = t :: t.children.flatMap parts := by
  cases t with
  | wildcard upper lower => cases upper <;> cases lower <;> simp [parts, partsOption, children]
  | _ => simp [parts, children]

theorem mem_parts_of_mem_children (h : u ∈ t.children) : u ∈ t.parts := by
  rw [parts_eq_children]
  exact List.mem_cons_of_mem _ (List.mem_flatMap.2 ⟨u, h, u.self_mem_parts⟩)

theorem children_induction {P : Ty → Prop} (h : ∀ t, (∀ u ∈ t.children, P u) → P t) (t : Ty) :
    P t := by
  induction t with
  | primitive p | var v => exact h _ (by simp [children])
  | array t ih => exact h _ (by simpa [children] using ih)
  | declared c ts ih | intersection ts ih => exact h _ ih
  | wildcard upper lower ihu ihl =>
    refine h _ fun u hu => ?_
    rcases List.mem_append.1 hu with hu | hu
    · exact ihu u (Option.mem_toList.1 hu)
    · exact ihl u (Option.mem_toList.1 hu)

/-- Parts of parts are parts. -/
theorem parts_subset_of_mem (h : u ∈ t.parts) : u.parts ⊆ t.parts := by
  induction t using children_induction with
  | h t ih =>
    rw [parts_eq_children t] at h ⊢
    rcases List.mem_cons.1 h with rfl | h
    · rw [parts_eq_children]
      exact List.Subset.refl _
    · obtain ⟨x, hx, hu⟩ := List.mem_flatMap.1 h
      exact fun y hy => List.mem_cons_of_mem _ (List.mem_flatMap.2 ⟨x, hx, ih x hx hu hy⟩)

/-! ## Lower bounds -/

mutual

/-- How deep lower bounds are nested in each other; 0 if the type has none. -/
def lowerDepth : Ty → Nat
  | .primitive _ | .var _ => 0
  | .array t => t.lowerDepth
  | .declared _ ts => lowerDepthList ts
  | .wildcard upper none => lowerDepthOption upper
  | .wildcard upper (some t) => max (lowerDepthOption upper) (t.lowerDepth + 1)
  | .intersection ts => lowerDepthList ts

def lowerDepthList : List Ty → Nat
  | [] => 0
  | t :: ts => max t.lowerDepth (lowerDepthList ts)

def lowerDepthOption : Option Ty → Nat
  | none => 0
  | some t => t.lowerDepth

end

variable {n : Nat} {ts : List Ty} {upper lower : Option Ty} {σ : TypeVarId → Ty}

theorem lowerDepthList_le_iff : lowerDepthList ts ≤ n ↔ ∀ t ∈ ts, t.lowerDepth ≤ n := by
  induction ts with
  | nil => simp [lowerDepthList]
  | cons t ts ih => rw [lowerDepthList, Nat.max_le, ih, List.forall_mem_cons]

theorem lowerDepthOption_le_iff {o : Option Ty} :
    lowerDepthOption o ≤ n ↔ ∀ t ∈ o, t.lowerDepth ≤ n := by
  cases o <;> simp [lowerDepthOption]

@[simp] theorem lowerDepth_array_le_iff : (Ty.array t).lowerDepth ≤ n ↔ t.lowerDepth ≤ n := by
  rw [lowerDepth]

@[simp] theorem lowerDepth_declared_le_iff :
    (Ty.declared c args).lowerDepth ≤ n ↔ ∀ t ∈ args, t.lowerDepth ≤ n := by
  rw [lowerDepth, lowerDepthList_le_iff]

@[simp] theorem lowerDepth_intersection_le_iff :
    (Ty.intersection ts).lowerDepth ≤ n ↔ ∀ t ∈ ts, t.lowerDepth ≤ n := by
  rw [lowerDepth, lowerDepthList_le_iff]

@[simp] theorem lowerDepth_wildcard_le_iff :
    (Ty.wildcard upper lower).lowerDepth ≤ n ↔
      (∀ t ∈ upper, t.lowerDepth ≤ n) ∧ ∀ t ∈ lower, t.lowerDepth < n := by
  cases lower with
  | none => simp [lowerDepth, lowerDepthOption_le_iff]
  | some l =>
    rw [lowerDepth, Nat.max_le, lowerDepthOption_le_iff, Nat.succ_le_iff]
    simp

/-- A type without lower bounds brings no depth of its own. -/
theorem lowerDepth_subst_le (ht : t.lowerDepth ≤ 0) (hσ : ∀ v, (σ v).lowerDepth ≤ n) :
    (t.subst σ).lowerDepth ≤ n := by
  induction t with
  | primitive p => exact Nat.zero_le n
  | array t ih => simpa [subst] using ih (lowerDepth_array_le_iff.1 ht)
  | declared c ts ih =>
    have ht := lowerDepth_declared_le_iff.1 ht
    simpa [subst] using fun t hmem => ih t hmem (ht t hmem)
  | var v => exact hσ v
  | wildcard upper lower ihu _ =>
    obtain ⟨hupper, hlower⟩ := lowerDepth_wildcard_le_iff.1 ht
    have hlower : lower = none :=
      Option.eq_none_iff_forall_not_mem.2 fun t hmem => Nat.not_lt_zero _ (hlower t hmem)
    subst hlower
    simpa [subst] using fun t hmem => ihu t hmem (hupper t hmem)
  | intersection ts ih =>
    have ht := lowerDepth_intersection_le_iff.1 ht
    simpa [subst] using fun t hmem => ih t hmem (ht t hmem)

end Wiring.Ty
