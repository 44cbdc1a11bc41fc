import Wiring.Proofs.Hierarchy.Ordered
/-!
# Complete hierarchies

A table is complete when it comes from the base table by declarations whose supertypes are declared
earlier and have all their arguments, and in which every class has a superclass. A class type with
all its arguments then climbs to such types only (`Complete.takes_of_climbs`), the root among them
(`Complete.climbs_object`). The arguments themselves may be anything.

If besides no use of a class climbs to two instances of another, the table is unambiguous.
-/

namespace Wiring.ClassTable

/-- `s` is `base` with further declarations. -/
inductive Extends (base : ClassTable) : (s : ClassTable) → Prop where
  | refl : Extends base base
  | addClass {s : ClassTable} (d : ClassDecl) : Extends base s → Extends base (s.addClass d)
  | addTypeVar {s : ClassTable} (d : TypeVarDecl) : Extends base s → Extends base (s.addTypeVar d)

/-- The class is declared with as many parameters as there are arguments. -/
def Takes (s : ClassTable) (c : ClassId) (args : List Ty) : Prop :=
  ∃ d, s.class? c = some d ∧ args.length = d.params.length

/-- A table that comes from the base table by declarations with complete supertypes. -/
structure Complete (s : ClassTable) : Prop where
  extends_base : Extends base s
  /-- Declared supertypes are class types of classes declared earlier. -/
  ordered : s.Ordered
  /-- They have all their arguments. -/
  supers_take : ∀ c d, s.class? c = some d → ∀ e as, .declared e as ∈ d.supers → s.Takes e as
  /-- Every class but the root has a superclass. -/
  rooted : ∀ c d, s.class? c = some d → d.kind = .classKind → c ≠ .object → d.superclass ≠ none

/-- A complete table in which no class reaches two instances of one class. Where declared
supertypes hold no variables but the parameters of their class, it is enough to look at each class
applied to its parameters (`Scoped.unambiguous`). -/
structure Unambiguous (s : ClassTable) : Prop extends s.Complete where
  args_unique : ∀ {c e : ClassId} {args as bs : List Ty}, s.Takes c args →
    Climbs s.supertypes (.declared c args) (.declared e as) →
    Climbs s.supertypes (.declared c args) (.declared e bs) → as = bs

variable {s : ClassTable} {c e : ClassId} {d : ClassDecl} {args as : List Ty} {u : Ty}

namespace Extends

theorem class? {base : ClassTable} (h : Extends base s) (hd : base.class? c = some d) :
    s.class? c = some d := by
  induction h with
  | refl => exact hd
  | @addClass s d' _ ih =>
    have hlt := (Array.getElem?_eq_some_iff.1 ih).1
    show (s.classes.push d')[c.raw.toNat]? = some d
    rw [Array.getElem?_push_lt hlt]
    exact (Array.getElem?_eq_getElem hlt).symm.trans ih
  | addTypeVar d' _ ih => exact ih

theorem typeVar? {base : ClassTable} {v : TypeVarId} {d : TypeVarDecl} (h : Extends base s)
    (hd : base.typeVar? v = some d) : s.typeVar? v = some d := by
  induction h with
  | refl => exact hd
  | addClass d' _ ih => exact ih
  | @addTypeVar s d' _ ih =>
    have hlt := (Array.getElem?_eq_some_iff.1 ih).1
    show (s.typeVars.push d')[v.raw.toNat]? = some d
    rw [Array.getElem?_push_lt hlt]
    exact (Array.getElem?_eq_getElem hlt).symm.trans ih

variable (hb : Extends base s)

include hb

theorem class?_object : ∃ d, s.class? .object = some d ∧ d.kind = .classKind ∧ d.params = [] ∧
    d.supers = [] :=
  ⟨_, hb.class? rfl, rfl, rfl, rfl⟩

theorem supertypes_object (args : List Ty) : s.supertypes (.declared .object args) = [] := by
  obtain ⟨d, hd, hk, -, hsupers⟩ := hb.class?_object
  rw [supertypes_declared hd, declaredSupertypes_eq, hsupers]
  simp [hk]

/-- What is above an array is above it in one step. -/
theorem closedUnder_arraySupertypes : ClosedUnder s.supertypes arraySupertypes := by
  have hinterface {c : ClassId} {name : String}
      (hd : s.class? c = some ⟨name, .interfaceKind, [], none, []⟩) :
      s.supertypes (.declared c []) = [ClassId.object.ty] := by
    rw [supertypes_declared hd]
    rfl
  have hcloneable := hinterface (hb.class? (c := .cloneable) rfl)
  have hserializable := hinterface (hb.class? (c := .serializable) rfl)
  intro t ht u hu
  simp only [arraySupertypes, List.mem_cons, List.not_mem_nil, or_false] at ht
  rcases ht with rfl | rfl | rfl
  · simp [ClassId.ty, hb.supertypes_object] at hu
  · rw [ClassId.ty, hcloneable] at hu
    simp [arraySupertypes, List.mem_singleton.1 hu]
  · rw [ClassId.ty, hserializable] at hu
    simp [arraySupertypes, List.mem_singleton.1 hu]

variable (hs : s.Ordered)

include hs

theorem declaredBefore_of_mem_supertypes (hu : u ∈ s.supertypes (.declared c args)) :
    DeclaredBefore c u := by
  rcases hs.of_mem_supertypes hu with rfl | hu
  · refine ⟨.object, [], rfl, ?_⟩
    by_contra hc
    have hc : c = .object := by
      cases c
      simpa [ClassId.object] using hc
    rw [hc, hb.supertypes_object] at hu
    cases hu
  · exact hu

/-- Climbing leads to classes declared earlier. -/
theorem eq_or_declaredBefore_of_climbs (hu : Climbs s.supertypes (.declared c args) u) :
    u = .declared c args ∨ DeclaredBefore c u := by
  induction hu with
  | refl => exact Or.inl rfl
  | tail _ hstep ih =>
    rcases ih with rfl | ⟨e, as, rfl, hlt⟩
    · exact Or.inr (hb.declaredBefore_of_mem_supertypes hs hstep)
    · obtain ⟨e', as', rfl, hlt'⟩ := hb.declaredBefore_of_mem_supertypes hs hstep
      exact Or.inr ⟨e', as', rfl, UInt32.lt_trans hlt' hlt⟩

/-- No class stands above itself. -/
theorem args_eq_of_climbs (ha : Climbs s.supertypes (.declared c args) (.declared c as)) :
    as = args := by
  rcases hb.eq_or_declaredBefore_of_climbs hs ha with ha | ⟨e, bs, he, hlt⟩
  · cases ha
    rfl
  · cases he
    exact absurd hlt (UInt32.lt_irrefl _)

end Extends

/-! ## Number of arguments -/

theorem Takes.length_eq (h : s.Takes c args) (hd : s.class? c = some d) :
    args.length = d.params.length := by
  obtain ⟨d', hd', hlen⟩ := h
  cases hd.symm.trans hd'
  exact hlen

/-- Where a class has all its arguments, its supertypes are instantiated by substitution. -/
theorem instantiate_eq_subst (hlen : args.length = d.params.length) :
    s.instantiate d args = Ty.subst (Ty.ofParams d.params args) := by
  unfold instantiate
  rw [if_neg]
  intro h
  simp only [Bool.and_eq_true, List.isEmpty_iff, Bool.not_eq_true', List.isEmpty_eq_false_iff] at h
  rw [h.1] at hlen
  exact h.2 (List.length_eq_zero_iff.1 hlen.symm)

namespace Complete

variable (hs : s.Complete)

include hs

theorem class?_object : ∃ d, s.class? .object = some d ∧ d.kind = .classKind ∧ d.params = [] ∧
    d.supers = [] :=
  hs.extends_base.class?_object

theorem supertypes_object (args : List Ty) : s.supertypes (.declared .object args) = [] :=
  hs.extends_base.supertypes_object args

theorem takes_object : s.Takes .object [] := by
  obtain ⟨d, hd, -, hparams, -⟩ := hs.class?_object
  exact ⟨d, hd, by simp [hparams]⟩

theorem closedUnder_arraySupertypes : ClosedUnder s.supertypes arraySupertypes :=
  hs.extends_base.closedUnder_arraySupertypes

/-! ## Climbing -/

/-- Supertypes have all their arguments again. -/
theorem takes_of_mem_supertypes (h : s.Takes c args)
    (hu : .declared e as ∈ s.supertypes (.declared c args)) : s.Takes e as := by
  obtain ⟨d, hd, hlen⟩ := h
  obtain ⟨d', hd', ⟨t, ht, htu⟩ | ⟨-, hu⟩⟩ := mem_supertypes_declared_iff.1 hu
  · cases hd.symm.trans hd'
    rw [instantiate_eq_subst hlen] at htu
    obtain ⟨e', as', rfl, -⟩ := hs.ordered c d hd t ht
    obtain ⟨d', hd', hlen'⟩ := hs.supers_take c d hd e' as' ht
    cases htu
    exact ⟨d', hd', by simpa using hlen'⟩
  · cases hu
    exact hs.takes_object

theorem takes_of_climbs (h : s.Takes c args)
    (hu : Climbs s.supertypes (.declared c args) (.declared e as)) : s.Takes e as := by
  generalize ht : Ty.declared e as = t at hu
  induction hu generalizing e as with
  | refl =>
    cases ht
    exact h
  | tail hclimb hstep ih =>
    obtain ⟨e', as', rfl⟩ := hs.ordered.declared_of_climbs hclimb
    subst ht
    exact hs.takes_of_mem_supertypes (ih rfl) hstep

theorem declaredBefore_of_mem_supertypes (hu : u ∈ s.supertypes (.declared c args)) :
    DeclaredBefore c u :=
  hs.extends_base.declaredBefore_of_mem_supertypes hs.ordered hu

theorem args_eq_of_climbs (ha : Climbs s.supertypes (.declared c args) (.declared c as)) :
    as = args :=
  hs.extends_base.args_eq_of_climbs hs.ordered ha

/-- **Every class type has the root above it.** -/
theorem climbs_object (h : s.Takes c args) :
    Climbs s.supertypes (.declared c args) ClassId.object.ty := by
  induction hk : c.raw.toNat using Nat.strongRecOn generalizing c args with
  | _ k ih =>
    obtain ⟨d, hd, hlen⟩ := id h
    by_cases hc : c = .object
    · subst hc
      obtain ⟨d', hd', -, hparams, -⟩ := hs.class?_object
      cases hd.symm.trans hd'
      rw [hparams, List.length_nil, List.length_eq_zero_iff] at hlen
      subst hlen
      exact Relation.ReflTransGen.refl
    · cases hkind : d.kind with
      | interfaceKind =>
        exact Relation.ReflTransGen.single
          (mem_supertypes_declared_iff.2 ⟨d, hd, Or.inr ⟨hkind, rfl⟩⟩)
      | classKind =>
        obtain ⟨t, ht⟩ := Option.ne_none_iff_exists'.1 (hs.rooted c d hd hkind hc)
        have hmem : s.instantiate d args t ∈ s.supertypes (.declared c args) :=
          mem_supertypes_declared_iff.2
            ⟨d, hd, Or.inl ⟨t, by simp [ClassDecl.supers, ht], rfl⟩⟩
        obtain ⟨e, as, hu, hlt⟩ := hs.declaredBefore_of_mem_supertypes hmem
        rw [hu] at hmem
        exact Relation.ReflTransGen.head hmem
          (ih _ (hk ▸ hlt) (hs.takes_of_mem_supertypes h hmem) rfl)

end Complete

end Wiring.ClassTable
