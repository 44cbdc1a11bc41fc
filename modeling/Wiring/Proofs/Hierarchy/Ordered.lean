import Wiring.ClassTable.System
import Wiring.Proofs.Fuel
import Wiring.Proofs.Supertypes.Walk
import Wiring.Proofs.Ty.Parts
/-!
# Ordered hierarchies

In an ordered class table every declared supertype is a class type whose class was declared
earlier. A class type then climbs to finitely many types, all of them class types. What another type
climbs to before it comes to a class type is part of the type itself or of a declared bound, so that
every type has a closure (`Ordered.exists_closure?`): cyclic bounds and bounds that name their own
variable do no harm, and arguments that grow from class to class grow only so often.
-/

namespace Wiring

/-- The declared supertypes of a class: its superclass and its interfaces. -/
def ClassDecl.supers (d : ClassDecl) : List Ty := d.superclass.toList ++ d.interfaces

/-- `t` is a class type whose class was declared before `c`. -/
def DeclaredBefore (c : ClassId) (t : Ty) : Prop :=
  ∃ e args, t = .declared e args ∧ e.raw < c.raw

namespace ClassTable

/-- Every declared supertype is a class type whose class was declared earlier. -/
def Ordered (s : ClassTable) : Prop :=
  ∀ c d, s.class? c = some d → ∀ t ∈ d.supers, DeclaredBefore c t

/-- A direct supertype of `c` is of class `e`: it is declared so, or `c` is an interface and `e` the
root. -/
def HasParent (s : ClassTable) (c e : ClassId) : Prop :=
  ∃ d, s.class? c = some d ∧
    ((∃ as, .declared e as ∈ d.supers) ∨ d.kind = .interfaceKind ∧ e = .object)

/-- `e` is reached from `c` by going from class to class any number of times. -/
def Inherits (s : ClassTable) : (c e : ClassId) → Prop := Relation.ReflTransGen s.HasParent

/-- What becomes of a declared supertype of `d` where `d` is used with `args`. -/
def instantiate (s : ClassTable) (d : ClassDecl) (args : List Ty) : Ty → Ty :=
  if args.isEmpty && !d.params.isEmpty then s.erasure else Ty.subst (Ty.ofParams d.params args)

variable {s : ClassTable} {c e : ClassId} {d : ClassDecl} {args as : List Ty} {t u : Ty}

theorem declaredSupertypes_eq (d : ClassDecl) (args : List Ty) :
    s.declaredSupertypes d args =
      if d.kind = .interfaceKind ∧ ClassId.object.ty ∉ d.supers.map (s.instantiate d args) then
        d.supers.map (s.instantiate d args) ++ [ClassId.object.ty]
      else d.supers.map (s.instantiate d args) :=
  rfl

theorem supertypes_declared (hd : s.class? c = some d) (args : List Ty) :
    s.supertypes (.declared c args) = s.declaredSupertypes d args := by
  simp [supertypes, hd]

/-- **The supertypes of a class type**: the declared ones of its class, and the root for an
interface. -/
theorem mem_supertypes_declared_iff :
    u ∈ s.supertypes (.declared c args) ↔
      ∃ d, s.class? c = some d ∧
        ((∃ t ∈ d.supers, s.instantiate d args t = u) ∨
          d.kind = .interfaceKind ∧ u = ClassId.object.ty) := by
  cases hd : s.class? c with
  | none => simp [supertypes, hd]
  | some d =>
    rw [supertypes_declared hd, declaredSupertypes_eq]
    split
    · rename_i h
      simp [h.1]
    · rename_i h
      simp only [Option.some.injEq, exists_eq_left', List.mem_map]
      refine ⟨Or.inl, fun hu => hu.elim id fun ⟨hk, hu⟩ => ?_⟩
      subst hu
      have hmem : ClassId.object.ty ∈ d.supers.map (s.instantiate d args) := by
        by_contra hn
        exact h ⟨hk, hn⟩
      exact List.mem_map.1 hmem

/-- The declared bounds of all variables. -/
def bounds (s : ClassTable) : List Ty := s.typeVars.toList.flatMap (·.bounds)

theorem mem_bounds {v : TypeVarId} {d : TypeVarDecl} (hd : s.typeVar? v = some d)
    (ht : t ∈ d.bounds) : t ∈ s.bounds :=
  List.mem_flatMap.2 ⟨d, Array.mem_toList_iff.2 (Array.mem_of_getElem? hd), ht⟩

theorem exists_bound? {v : TypeVarId} {d : TypeVarDecl} (hd : s.typeVar? v = some d) :
    ∃ bound, s.bound? v = some bound := by
  simp [bound?, hd]

theorem mem_supertypes_var {v : TypeVarId} (hu : u ∈ s.supertypes (.var v)) :
    u ∈ s.bounds ∨ u = ClassId.object.ty := by
  rw [supertypes] at hu
  split at hu
  · rename_i hd
    exact .inl (mem_bounds hd hu)
  · exact .inr (List.mem_singleton.1 hu)

theorem raw_of_mem_arraySupertypes (hu : u ∈ arraySupertypes) : ∃ c, u = .declared c [] := by
  simp only [arraySupertypes, List.mem_cons, List.not_mem_nil, or_false] at hu
  rcases hu with rfl | rfl | rfl <;> exact ⟨_, rfl⟩

theorem instantiate_declared (d : ClassDecl) (args : List Ty) (e : ClassId) (as : List Ty) :
    ∃ bs, s.instantiate d args (.declared e as) = .declared e bs := by
  unfold instantiate
  split
  · exact ⟨[], s.erasure_declared e as⟩
  · exact ⟨_, by rw [Ty.subst]⟩

namespace Ordered

variable (hs : s.Ordered)

include hs

/-- One step leads to the root or to a class declared earlier. -/
theorem of_mem_supertypes (hu : u ∈ s.supertypes (.declared c args)) :
    u = ClassId.object.ty ∨ DeclaredBefore c u := by
  obtain ⟨d, hd, ⟨t, ht, rfl⟩ | ⟨-, rfl⟩⟩ := mem_supertypes_declared_iff.1 hu
  · obtain ⟨e, as, rfl, hlt⟩ := hs c d hd t ht
    obtain ⟨bs, hbs⟩ := instantiate_declared (s := s) d args e as
    exact Or.inr ⟨e, bs, hbs, hlt⟩
  · exact Or.inl rfl

theorem eq_object_of_mem_supertypes (hu : u ∈ s.supertypes (.declared .object args)) :
    u = ClassId.object.ty := by
  rcases hs.of_mem_supertypes hu with hu | ⟨e, as, -, hlt⟩
  · exact hu
  · exact absurd hlt (UInt32.not_lt_zero)

theorem declared_of_climbs (h : Climbs s.supertypes (.declared c args) u) :
    ∃ e as, u = .declared e as := by
  induction h with
  | refl => exact ⟨c, args, rfl⟩
  | tail _ hstep ih =>
    obtain ⟨e, as, rfl⟩ := ih
    rcases hs.of_mem_supertypes hstep with rfl | ⟨e', as', rfl, -⟩
    · exact ⟨_, _, rfl⟩
    · exact ⟨e', as', rfl⟩

theorem declared_of_walks {ts : List Ty} (h : Walks s.supertypes [.declared c args] [] ts) :
    ∀ t ∈ ts, ∃ e as, t = .declared e as :=
  fun _ ht => hs.declared_of_climbs (h.mem_iff.1 ht)

theorem exists_closedUnder_declared (c : ClassId) (args : List Ty) :
    ∃ all, .declared c args ∈ all ∧ ClosedUnder s.supertypes all := by
  -- on the number of the class; the root is the one supertype that need not come before it
  induction hk : c.raw.toNat using Nat.strongRecOn generalizing c args with
  | _ k ih =>
    have hobject : ClosedUnder s.supertypes [ClassId.object.ty] := by
      intro t ht u hu
      rw [List.mem_singleton] at ht
      subst ht
      exact List.mem_singleton.2 (hs.eq_object_of_mem_supertypes hu)
    have hsupers : ∀ u ∈ s.supertypes (.declared c args),
        ∃ all, u ∈ all ∧ ClosedUnder s.supertypes all := by
      intro u hu
      rcases hs.of_mem_supertypes hu with rfl | ⟨e, as, rfl, hlt⟩
      · exact ⟨_, by simp, hobject⟩
      · exact ih _ (hk ▸ hlt) e as rfl
    obtain ⟨all, hsub, hall⟩ := exists_closedUnder hsupers
    refine ⟨.declared c args :: all, by simp, fun t ht u hu => ?_⟩
    rcases List.mem_cons.1 ht with rfl | ht
    · exact List.mem_cons_of_mem _ (hsub hu)
    · exact List.mem_cons_of_mem _ (hall t ht u hu)

/-- A step from a type leads to a part of it, to a declared bound or to a class type. -/
theorem mem_core_of_mem_supertypes {core : List Ty} (hparts : t.parts ⊆ core)
    (hbounds : s.bounds ⊆ core) (hu : u ∈ s.supertypes t) :
    u ∈ core ∨ ∃ c args, u = .declared c args := by
  cases t with
  | primitive p => cases hu
  | array t =>
    obtain ⟨c, rfl⟩ := raw_of_mem_arraySupertypes hu
    exact .inr ⟨c, [], rfl⟩
  | declared c args => exact .inr (hs.declared_of_climbs (Relation.ReflTransGen.single hu))
  | var v =>
    rcases mem_supertypes_var hu with hu | rfl
    · exact .inl (hbounds hu)
    · exact .inr ⟨_, _, rfl⟩
  | wildcard upper lower => cases hu
  | intersection ts => exact .inl (hparts (Ty.mem_parts_of_mem_children hu))

/-- Every type lies in a finite list that no step leaves. -/
theorem exists_closedUnder (t : Ty) : ∃ all, t ∈ all ∧ ClosedUnder s.supertypes all := by
  have hparts : ∀ x ∈ (t :: s.bounds).flatMap Ty.parts,
      x.parts ⊆ (t :: s.bounds).flatMap Ty.parts := by
    intro x hx y hy
    obtain ⟨b, hb, hx⟩ := List.mem_flatMap.1 hx
    exact List.mem_flatMap.2 ⟨b, hb, Ty.parts_subset_of_mem hx hy⟩
  have hself : t :: s.bounds ⊆ (t :: s.bounds).flatMap Ty.parts :=
    fun b hb => List.mem_flatMap.2 ⟨b, hb, b.self_mem_parts⟩
  obtain ⟨all, hsub, hall⟩ : ∃ all, (t :: s.bounds).flatMap Ty.parts ⊆ all ∧
      ClosedUnder s.supertypes all := by
    apply exists_closedUnder_of_core
    intro x hx u hu
    rcases hs.mem_core_of_mem_supertypes (hparts x hx) (List.cons_subset.1 hself).2 hu with
      hu | ⟨c, args, rfl⟩
    · exact .inl hu
    · exact .inr (hs.exists_closedUnder_declared c args)
  exact ⟨all, hsub (hself (by simp)), hall⟩

/-- **Every type has a closure.** -/
theorem exists_closure? (t : Ty) :
    ∃ ts, Walks s.supertypes [t] [] ts ∧ Settles (fun n => (s.system n).closure? n t) ts := by
  obtain ⟨all, hmem, hall⟩ := hs.exists_closedUnder t
  obtain ⟨ts, h⟩ : ∃ ts, Walks s.supertypes [t] [] ts := exists_walks hall (by simpa using hmem)
  obtain ⟨N, hN⟩ := TypeSystem.closureWalk_of_walks h
  exact ⟨ts, h, N, fun n hn => hN n hn _ rfl⟩

/-! ## Which classes stand above a class -/

theorem hasParent_iff (args : List Ty) :
    s.HasParent c e ↔ ∃ as, .declared e as ∈ s.supertypes (.declared c args) := by
  simp only [mem_supertypes_declared_iff, HasParent]
  constructor
  · rintro ⟨d, hd, ⟨as, ht⟩ | ⟨hk, rfl⟩⟩
    · obtain ⟨bs, hbs⟩ := instantiate_declared (s := s) d args e as
      exact ⟨bs, d, hd, .inl ⟨_, ht, hbs⟩⟩
    · exact ⟨[], d, hd, .inr ⟨hk, rfl⟩⟩
  · rintro ⟨as, d, hd, ⟨t, ht, htu⟩ | ⟨hk, hu⟩⟩
    · obtain ⟨e', as', rfl, -⟩ := hs c d hd t ht
      obtain ⟨bs, hbs⟩ := instantiate_declared (s := s) d args e' as'
      cases hbs.symm.trans htu
      exact ⟨d, hd, .inl ⟨as', ht⟩⟩
    · cases hu
      exact ⟨d, hd, .inr ⟨hk, rfl⟩⟩

/-- **The classes above a class type do not depend on its arguments**, although a raw use of a
generic class has other supertypes than the class with arguments. -/
theorem exists_climbs_iff (args : List Ty) :
    (∃ as, Climbs s.supertypes (.declared c args) (.declared e as)) ↔ s.Inherits c e := by
  constructor
  · rintro ⟨as, h⟩
    generalize hu : Ty.declared e as = u at h
    induction h generalizing e as with
    | refl =>
      cases hu
      exact Relation.ReflTransGen.refl
    | tail hclimb hstep ih =>
      obtain ⟨b, bs, rfl⟩ := hs.declared_of_climbs hclimb
      subst hu
      exact (ih bs rfl).tail ((hs.hasParent_iff bs).2 ⟨as, hstep⟩)
  · intro h
    induction h with
    | refl => exact ⟨args, Relation.ReflTransGen.refl⟩
    | tail _ hstep ih =>
      obtain ⟨bs, hclimb⟩ := ih
      obtain ⟨as, has⟩ := (hs.hasParent_iff bs).1 hstep
      exact ⟨as, hclimb.tail has⟩

end Ordered

end ClassTable

end Wiring
