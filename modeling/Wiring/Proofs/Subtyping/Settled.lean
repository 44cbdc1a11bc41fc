import Mathlib.Data.Fintype.EquivFin
import Mathlib.Data.Finite.Defs
import Mathlib.Order.WellFounded
import Wiring.Proofs.Hierarchy.Base
import Wiring.Proofs.Subtyping.OneStep
import Wiring.Proofs.Ty.Parts
/-!
# Subtyping comes to an end

Two things can keep a question about subtypes open. The type on the left is unfolded, from variables
to their bounds and from intersections to their members, and climbed from, so that it may grow; and
lower bounds turn the question round. In a founded table unfolding ends (`Founded.unfolds`), and the
right side shrinks until a lower bound is met. If the table declares no lower bounds, each turn
leaves one bound less, so every question is settled (`Founded.settled`).

`settled_of_inherited` is the part between two turns.
-/

namespace Wiring

instance : Finite TypeVarId :=
  Finite.of_injective (fun v => (⟨v.raw.toNat, v.raw.toNat_lt_size⟩ : Fin UInt32.size)) <| by
    rintro ⟨v⟩ ⟨w⟩ h
    exact congrArg TypeVarId.mk (UInt32.toNat_inj.1 (Fin.mk.inj_iff.1 h))

/-- A relation on variables that never goes round is well-founded, as there are only so many. -/
theorem wellFounded_of_acyclic {r : TypeVarId → TypeVarId → Prop}
    (h : ∀ v, ¬ Relation.TransGen r v v) : WellFounded r := by
  have hirrefl : Std.Irrefl (Relation.TransGen r) := ⟨h⟩
  have hwf : WellFounded (Relation.TransGen r) := Finite.wellFounded_of_trans_of_irrefl _
  exact Subrelation.wf Relation.TransGen.single hwf

/-- The variable stands in the type below nothing but intersections. -/
inductive Ty.HasHead : Ty → TypeVarId → Prop where
  | var (v : TypeVarId) : HasHead (.var v) v
  | intersection {ts : List Ty} {t : Ty} {v : TypeVarId} :
      t ∈ ts → HasHead t v → HasHead (.intersection ts) v

theorem Ty.HasHead.mem_vars {t : Ty} {v : TypeVarId} (h : t.HasHead v) : v ∈ t.vars := by
  induction h with
  | var v => simp [Ty.vars]
  | intersection hmem _ ih => simpa [Ty.vars] using ⟨_, hmem, ih⟩

namespace ClassTable

/-- The bound of `v` unfolds to `w` at once. -/
def LeadsTo (s : ClassTable) (w v : TypeVarId) : Prop :=
  ∃ bound, s.bound? v = some bound ∧ bound.HasHead w

/-- A table in which every chain of supertypes and of bounds ends. Bounds are followed through
variables and intersections; a variable may occur elsewhere in its own bound. -/
structure Founded (s : ClassTable) : Prop where
  ordered : s.Ordered
  acyclic : ∀ v, ¬ Relation.TransGen s.LeadsTo v v

/-- No declared supertype and no bound of a variable has a lower bound in it. -/
structure NoLowerBounds (s : ClassTable) : Prop where
  supers : ∀ c d, s.class? c = some d → ∀ t ∈ d.supers, t.lowerDepth = 0
  bounds : ∀ v d, s.typeVar? v = some d → ∀ t ∈ d.bounds, t.lowerDepth = 0

/-- Unfolding the type, from variables to their bounds and from intersections to their members,
comes to an end. -/
inductive Unfolds (s : ClassTable) : Ty → Prop where
  | primitive (p : Primitive) : Unfolds s (.primitive p)
  | array (t : Ty) : Unfolds s (.array t)
  | declared (c : ClassId) (args : List Ty) : Unfolds s (.declared c args)
  | wildcard (upper lower : Option Ty) : Unfolds s (.wildcard upper lower)
  | var {v : TypeVarId} : (∀ bound, s.bound? v = some bound → Unfolds s bound) → Unfolds s (.var v)
  | intersection {ts : List Ty} : (∀ t ∈ ts, Unfolds s t) → Unfolds s (.intersection ts)

/-- The question whether `t` is a subtype of `u` has an answer. -/
def Settled (s : ClassTable) (t u : Ty) : Prop := ∃ v, Settles (fun n => s.subtype? n t u) v

/-- What holds of a type on the left of a question also holds of the types that take its place. -/
structure Inherited (s : ClassTable) (P : Ty → Prop) : Prop where
  component : ∀ {t}, P (.array t) → P t
  member : ∀ {ts}, P (.intersection ts) → ∀ t ∈ ts, P t
  bound : ∀ {v t}, P (.var v) → s.bound? v = some t → P t
  upper : ∀ {t lower}, P (.wildcard (some t) lower) → P t
  lower : ∀ {upper t}, P (.wildcard upper (some t)) → P t
  above : ∀ {c args e as}, P (.declared c args) →
    Climbs s.supertypes (.declared c args) (.declared e as) → ∀ a ∈ as, P a

variable {s : ClassTable} {P : Ty → Prop} {n : Nat} {c d : ClassId} {args targetArgs : List Ty}
  {t u : Ty}

/-! ## Unfolding -/

theorem LeadsTo.exists_bound {w v : TypeVarId} (h : s.LeadsTo w v) :
    ∃ d, s.typeVar? v = some d ∧ ∃ t ∈ d.bounds, t.HasHead w := by
  obtain ⟨bound, hbound, hhead⟩ := h
  obtain ⟨d, hd, rfl⟩ := Option.map_eq_some_iff.1 hbound
  refine ⟨d, hd, ?_⟩
  split at hhead
  · cases hhead
  · rename_i t heq
    exact ⟨t, by simp [heq], hhead⟩
  · cases hhead with
    | intersection hmem hhead => exact ⟨_, hmem, hhead⟩

/-- Where no bound unfolds to a declared variable at once, no chain of bounds goes round. -/
theorem acyclic_of_heads (h : ∀ v d, s.typeVar? v = some d → ∀ t ∈ d.bounds, ∀ w, t.HasHead w →
    s.typeVar? w = none) (v : TypeVarId) : ¬ Relation.TransGen s.LeadsTo v v := by
  intro hcycle
  obtain ⟨w, hfirst, -⟩ := Relation.TransGen.head'_iff.1 hcycle
  obtain ⟨w', -, hlast⟩ := Relation.TransGen.tail'_iff.1 hcycle
  obtain ⟨d, hd, t, ht, hhead⟩ := hfirst.exists_bound
  obtain ⟨d', hd', -⟩ := hlast.exists_bound
  rw [h w d hd t ht v hhead] at hd'
  cases hd'

theorem acyclic_of_vars (h : ∀ v d, s.typeVar? v = some d → ∀ t ∈ d.bounds, ∀ w ∈ t.vars,
    s.typeVar? w = none) (v : TypeVarId) : ¬ Relation.TransGen s.LeadsTo v v :=
  acyclic_of_heads (fun v d hd t ht w hw => h v d hd t ht w hw.mem_vars) v

/-- A variable may occur in the arguments of its own bound. -/
theorem acyclic_of_concrete (h : ∀ v d, s.typeVar? v = some d → ∀ t ∈ d.bounds,
    t.isConcrete = true) (v : TypeVarId) : ¬ Relation.TransGen s.LeadsTo v v := by
  refine acyclic_of_heads (fun v d hd t ht w hw => ?_) v
  have hconcrete := h v d hd t ht
  cases hw <;> cases hconcrete

namespace Founded

variable (hs : s.Founded)

include hs

/-- **Unfolding ends.** -/
theorem unfolds (t : Ty) : s.Unfolds t := by
  have hhead (t : Ty) (h : ∀ v, t.HasHead v → s.Unfolds (.var v)) : s.Unfolds t := by
    induction t with
    | primitive p => exact .primitive p
    | array t _ => exact .array t
    | declared c args _ => exact .declared c args
    | var v => exact h v (.var v)
    | wildcard upper lower _ _ => exact .wildcard upper lower
    | intersection ts ih =>
      exact .intersection fun t ht => ih t ht fun v hv => h v (.intersection ht hv)
  have hvar (v : TypeVarId) : s.Unfolds (.var v) := by
    induction v using (wellFounded_of_acyclic hs.acyclic).induction with
    | _ v ih =>
      exact .var fun bound hbound => hhead bound fun w hw => ih w ⟨bound, hbound, hw⟩
  exact hhead t fun v _ => hvar v

end Founded

/-! ## Questions, shape by shape -/

theorem settled_self (t : Ty) : s.Settled t t := ⟨true, settles_subtype?_self t⟩

theorem settled_of_isSome (h : (s.subtype? n t u).isSome = true) : s.Settled t u := by
  obtain ⟨v, hv⟩ := Option.isSome_iff_exists.1 h
  exact ⟨v, settles_subtype? hv⟩

theorem settled_of_succ {f : Nat → Option Bool} (hf : ∃ v, Settles f v)
    (hstep : ∀ n, s.subtype? (n + 1) t u = f n) : s.Settled t u := by
  obtain ⟨v, hv⟩ := hf
  exact ⟨v, Settles.of_succ (hv.congr fun n => (hstep n).symm)⟩

theorem settled_of_answer {v : Bool} (hstep : ∀ n, s.subtype? (n + 1) t u = some v) :
    s.Settled t u :=
  settled_of_succ ⟨v, Settles.const v⟩ hstep

theorem settled_wildcard_left (upper lower : Option Ty) (u : Ty) :
    s.Settled (.wildcard upper lower) u := by
  by_cases hne : Ty.wildcard upper lower = u
  · rw [← hne]
    exact settled_self _
  · exact settled_of_answer (v := false) fun n => subtype?_of_ne hne

theorem settled_primitive_left (p : Primitive) (u : Ty) : s.Settled (.primitive p) u := by
  by_cases hne : Ty.primitive p = u
  · rw [← hne]
    exact settled_self _
  · cases u with
    | primitive q =>
      exact settled_of_answer (v := p.widensTo q) fun n => subtype?_of_ne hne
    | _ => exact settled_of_answer (v := false) fun n => rfl

theorem settled_wildcard_right (t : Ty) (upper lower : Option Ty) :
    s.Settled t (.wildcard upper lower) := by
  cases t with
  | wildcard upper' lower' => exact settled_wildcard_left upper' lower' _
  | _ => exact settled_of_answer (v := false) fun n => rfl

theorem settled_primitive_right (t : Ty) (p : Primitive) : s.Settled t (.primitive p) := by
  cases t with
  | primitive q => exact settled_primitive_left q _
  | _ => exact settled_of_answer (v := false) fun n => rfl

/-- All members must be above. -/
theorem settled_intersection_right {parts : List Ty} (h : ∀ part ∈ parts, s.Settled t part) :
    s.Settled t (.intersection parts) := by
  by_cases hne : t = .intersection parts
  · rw [hne]
    exact settled_self _
  · have hparts := Settles.exists_allM (g := fun n part => s.subtype? n t part) h
    cases t with
    | wildcard upper lower => exact settled_wildcard_left upper lower _
    | primitive p => exact settled_primitive_left p _
    | _ => exact settled_of_succ hparts fun n => subtype?_intersection_right rfl rfl hne

/-- One member must be below. -/
theorem settled_intersection_left {parts : List Ty} (hu : u.kind ≠ .intersection)
    (h : ∀ part ∈ parts, s.Settled part u) : s.Settled (.intersection parts) u := by
  have hparts := Settles.exists_anyM (g := fun n part => s.subtype? n part u) h
  cases u with
  | wildcard upper lower => exact settled_wildcard_right _ upper lower
  | primitive p => exact settled_primitive_right _ p
  | intersection _ => exact absurd rfl hu
  | _ => exact settled_of_succ hparts fun n => subtype?_intersection_left rfl rfl hu parts

/-- The bound must be below. -/
theorem settled_var_left {v : TypeVarId} (hu : u.kind ≠ .intersection)
    (h : ∀ bound, s.bound? v = some bound → s.Settled bound u) : s.Settled (.var v) u := by
  by_cases hne : Ty.var v = u
  · rw [← hne]
    exact settled_self _
  · cases hbound : s.bound? v with
    | none =>
      cases u with
      | wildcard upper lower => exact settled_wildcard_right _ upper lower
      | primitive p => exact settled_primitive_right _ p
      | _ =>
        exact settled_of_answer (v := false) fun n => by
          rw [subtype?_var rfl rfl hu hne, hbound]
          rfl
    | some bound =>
      cases u with
      | wildcard upper lower => exact settled_wildcard_right _ upper lower
      | primitive p => exact settled_primitive_right _ p
      | _ =>
        exact settled_of_succ (h bound hbound) fun n => by
          rw [subtype?_var rfl rfl hu hne, hbound]
          rfl

theorem settled_array (h : s.Settled t u) : s.Settled (.array t) (.array u) := by
  by_cases hne : t = u
  · rw [hne]
    exact settled_self _
  · refine settled_of_succ ?_ fun n => subtype?_array hne
    unfold componentSubtype?
    split
    case h_4 => exact h
    all_goals exact ⟨_, Settles.const _⟩

/-! ## Between two turns -/

/-- Whether the argument is contained has an answer, if the questions about upper bounds have one,
and those that a lower bound turns round. -/
theorem exists_settles_contains? {upper lower : Option Ty} (hP : s.Inherited P)
    (hupper : ∀ u ∈ upper, ∀ t, P t → s.Settled t u)
    (hlower : ∀ l ∈ lower, ∀ t, P t → s.Settled l t) {arg : Ty} (harg : P arg) :
    ∃ v, Settles (fun n => contains? (s.subtype? n) (.wildcard upper lower) arg) v := by
  cases upper with
  | none =>
    cases lower with
    | none =>
      refine ⟨true, (Settles.const true).congr fun n => ?_⟩
      cases arg <;> rfl
    | some l =>
      cases arg with
      | wildcard upper' lower' =>
        cases lower' with
        | none => exact ⟨false, (Settles.const false).congr fun n => by cases upper' <;> rfl⟩
        | some l' =>
          obtain ⟨v, hv⟩ := hlower l rfl l' (hP.lower harg)
          exact ⟨v, hv.congr fun n => by cases upper' <;> rfl⟩
      | _ => exact hlower l rfl _ harg
  | some u =>
    cases lower with
    | some l => exact ⟨false, (Settles.const false).congr fun n => by cases arg <;> rfl⟩
    | none =>
      cases arg with
      | wildcard upper' lower' =>
        cases upper' with
        | none => exact ⟨_, Settles.const _⟩
        | some u' => exact hupper u rfl u' (hP.upper harg)
      | _ => exact hupper u rfl _ harg

/-- Below a type that is no intersection, only arrays and class types need to be looked at. -/
theorem settled_of_unfolds (hP : s.Inherited P) (hu : u.kind ≠ .intersection)
    (hconcrete : ∀ t, P t → t.kind = .array ∨ t.kind = .declared → s.Settled t u)
    (ht : s.Unfolds t) (hPt : P t) : s.Settled t u := by
  induction ht with
  | primitive p => exact settled_primitive_left p u
  | wildcard upper lower => exact settled_wildcard_left upper lower u
  | array t => exact hconcrete _ hPt (.inl rfl)
  | declared c args => exact hconcrete _ hPt (.inr rfl)
  | var _ ih => exact settled_var_left hu fun bound hbound => ih bound hbound (hP.bound hPt hbound)
  | intersection _ ih =>
    exact settled_intersection_left hu fun part hpart => ih part hpart (hP.member hPt part hpart)

/-- **Between two turns the right side shrinks**: if the questions are settled that lower bounds
turn round, so are all, where what holds on the left is inherited there. -/
theorem settled_of_inherited (hs : s.Founded) (hP : s.Inherited P)
    (hturn : ∀ l t, l.lowerDepth < n → P t → s.Settled l t) (u : Ty) (hu : u.lowerDepth ≤ n) :
    (∀ t, P t → s.Settled t u) ∧
      ∀ arg, P arg → ∃ v, Settles (fun n => contains? (s.subtype? n) u arg) v := by
  have hsame {u : Ty} (hw : u.isWildcard = false) (arg : Ty) :
      ∃ v, Settles (fun n => contains? (s.subtype? n) u arg) v :=
    ⟨_, (Settles.const _).congr fun n => (contains?_of_not_wildcard _ hw).symm⟩
  induction u with
  | primitive p => exact ⟨fun t _ => settled_primitive_right t p, fun arg _ => hsame rfl arg⟩
  | var v =>
    refine ⟨fun t ht => ?_, fun arg _ => hsame rfl arg⟩
    refine settled_of_unfolds hP (by simp [Ty.kind]) (fun t _ hkind => ?_) (hs.unfolds t) ht
    cases t with
    | array t => exact settled_of_answer (v := false) fun n => rfl
    | declared c args => exact settled_of_answer (v := false) fun n => rfl
    | _ => simp [Ty.kind] at hkind
  | array u ih =>
    have ih := (ih (Ty.lowerDepth_array_le_iff.1 hu)).1
    refine ⟨fun t ht => ?_, fun arg _ => hsame rfl arg⟩
    refine settled_of_unfolds hP (by simp [Ty.kind]) (fun t ht hkind => ?_) (hs.unfolds t) ht
    cases t with
    | array t => exact settled_array (ih t (hP.component ht))
    | declared c args => exact settled_of_answer (v := false) fun n => rfl
    | _ => simp [Ty.kind] at hkind
  | declared d targetArgs ih =>
    refine ⟨fun t ht => ?_, fun arg _ => hsame rfl arg⟩
    refine settled_of_unfolds hP (by simp [Ty.kind]) (fun t ht hkind => ?_) (hs.unfolds t) ht
    cases t with
    | array t => exact settled_of_answer fun n => rfl
    | declared c args =>
      refine hs.ordered.exists_subtype?_declared fun as hclimb pair hpair => ?_
      obtain ⟨htarget, harg⟩ := List.of_mem_zip hpair
      have hle := Ty.lowerDepth_declared_le_iff.1 hu _ htarget
      exact (ih _ htarget hle).2 _ (hP.above ht hclimb _ harg)
    | _ => simp [Ty.kind] at hkind
  | wildcard upper lower ihu _ =>
    obtain ⟨hupper, hlower⟩ := Ty.lowerDepth_wildcard_le_iff.1 hu
    refine ⟨fun t _ => settled_wildcard_right t upper lower, fun arg harg => ?_⟩
    exact exists_settles_contains? hP (fun u hmem => (ihu u hmem (hupper u hmem)).1)
      (fun l hmem t ht => hturn l t (hlower l hmem) ht) harg
  | intersection parts ih =>
    have hle := Ty.lowerDepth_intersection_le_iff.1 hu
    refine ⟨fun t ht => ?_, fun arg _ => hsame rfl arg⟩
    exact settled_intersection_right fun part hpart => (ih part hpart (hle part hpart)).1 t ht

/-! ## Tables without lower bounds -/

namespace NoLowerBounds

variable (hn : s.NoLowerBounds)

include hn

theorem lowerDepth_of_bound? {v : TypeVarId} (hv : s.bound? v = some t) : t.lowerDepth ≤ 0 := by
  obtain ⟨d, hd, rfl⟩ := Option.map_eq_some_iff.1 hv
  have hbounds := hn.bounds v d hd
  split
  · exact Nat.le_refl 0
  · rename_i t heq
    exact Nat.le_of_eq (hbounds t (by simp [heq]))
  · exact Ty.lowerDepth_intersection_le_iff.2 fun t ht => Nat.le_of_eq (hbounds t ht)

theorem lowerDepth_of_mem_supertypes (hs : s.Ordered) (h : (Ty.declared c args).lowerDepth ≤ n)
    (hu : u ∈ s.supertypes (.declared c args)) : u.lowerDepth ≤ n := by
  obtain ⟨d, hd, ⟨t, ht, rfl⟩ | ⟨-, rfl⟩⟩ := mem_supertypes_declared_iff.1 hu
  · unfold instantiate
    split
    · obtain ⟨e, as, rfl, -⟩ := hs c d hd t ht
      simp
    · refine Ty.lowerDepth_subst_le (Nat.le_of_eq (hn.supers c d hd t ht)) fun v => ?_
      rcases Ty.ofParams_mem_or_eq d.params args v with hmem | heq
      · exact Ty.lowerDepth_declared_le_iff.1 h _ hmem
      · rw [heq]
        exact Nat.zero_le n
  · exact Nat.zero_le n

theorem lowerDepth_of_climbs (hs : s.Ordered) (h : (Ty.declared c args).lowerDepth ≤ n)
    (hu : Climbs s.supertypes (.declared c args) u) : u.lowerDepth ≤ n := by
  induction hu with
  | refl => exact h
  | tail hclimb hstep ih =>
    obtain ⟨e, as, rfl⟩ := hs.declared_of_climbs hclimb
    exact hn.lowerDepth_of_mem_supertypes hs ih hstep

/-- How deep lower bounds are nested is inherited. -/
theorem inherited_lowerDepth (hs : s.Ordered) (n : Nat) : s.Inherited (·.lowerDepth ≤ n) where
  component h := Ty.lowerDepth_array_le_iff.1 h
  member h := Ty.lowerDepth_intersection_le_iff.1 h
  bound _ hv := (hn.lowerDepth_of_bound? hv).trans (Nat.zero_le n)
  upper h := (Ty.lowerDepth_wildcard_le_iff.1 h).1 _ rfl
  lower h := Nat.le_of_lt ((Ty.lowerDepth_wildcard_le_iff.1 h).2 _ rfl)
  above h hclimb := Ty.lowerDepth_declared_le_iff.1 (hn.lowerDepth_of_climbs hs h hclimb)

end NoLowerBounds

namespace Founded

variable (hs : s.Founded) (hn : s.NoLowerBounds)

include hs hn

/-- **Every question about subtypes is settled** in a founded table without lower bounds. -/
theorem settled (t u : Ty) : s.Settled t u := by
  -- on the lower bounds of both sides together: a turn leaves one of them behind
  induction hdepth : t.lowerDepth + u.lowerDepth using Nat.strongRecOn generalizing t u with
  | _ depth ih =>
    have hturn (l arg : Ty) (hl : l.lowerDepth < u.lowerDepth)
        (harg : arg.lowerDepth ≤ t.lowerDepth) : s.Settled l arg :=
      ih (l.lowerDepth + arg.lowerDepth) (by omega) l arg rfl
    have hP := hn.inherited_lowerDepth hs.ordered t.lowerDepth
    exact (settled_of_inherited hs hP hturn u (Nat.le_refl _)).1 t (Nat.le_refl _)

theorem exists_conversion? (t u : Ty) : ∃ v, Settles (fun n => s.conversion? n t u) v := by
  unfold conversion?
  split
  case h_2 => exact hs.settled hn _ _
  case h_4 _ _ c args d _ _ =>
    obtain ⟨view, hview, -, -⟩ := hs.ordered.exists_view? c args d
    exact ⟨_, hview.bind (Settles.const (view.any (·.isEmpty)))⟩
  all_goals exact ⟨_, Settles.const _⟩

/-- **So is every question about assignability.** -/
theorem exists_assignable? (t u : Ty) : ∃ v, Settles (fun n => s.assignable? n t u) v := by
  obtain ⟨v, hv⟩ := hs.settled hn t u
  obtain ⟨w, hw⟩ := hs.exists_conversion? hn t u
  have hassign : Settles (fun n => s.subtype? n t u >>= fun isSubtype =>
      if isSubtype then some true else s.conversion? n t u) (if v then true else w) := by
    refine hv.bind ?_
    cases v with
    | true => exact Settles.const true
    | false => exact hw
  exact ⟨_, hassign.congr fun n => (assignable?_eq t u).symm⟩

end Founded

/-! ## The base table -/

theorem base_founded : base.Founded where
  ordered := base_regular.ordered
  acyclic := acyclic_of_vars (forall_typeVar? (by decide))

theorem base_noLowerBounds : base.NoLowerBounds where
  supers := forall_class? (by decide)
  bounds := forall_typeVar? (by decide)

end ClassTable

end Wiring
