import Wiring.Proofs.Hierarchy.Complete
/-!
# Well-scoped hierarchies

A table is well-scoped when declared supertypes are class types, raw or with all their arguments,
that hold no variables but the parameters of the declaring class. What else stands in their
arguments, such as wildcards and raw types, does not matter: climbing commutes with substitution
(`WellScoped.climbs_subst`, `WellScoped.subst_climbs`). So whether a type climbs to one instance of
each class shows in two uses of each, the class applied to its own parameters and the raw class
(`WellScoped.oneInstance`). Where all supertypes have all their arguments, the first use alone tells
(`Scoped.unambiguous`).
-/

namespace Wiring.ClassTable

/-- A raw class type, or one with all its arguments. -/
inductive Usable (s : ClassTable) : Ty → Prop where
  | raw (c : ClassId) : Usable s (.declared c [])
  | applied {c : ClassId} {args : List Ty} : s.Takes c args → Usable s (.declared c args)

/-- Of each class at most one instance stands above the type. -/
def OneInstance (s : ClassTable) (t : Ty) : Prop :=
  ∀ e as bs, Climbs s.supertypes t (.declared e as) → Climbs s.supertypes t (.declared e bs) →
    as = bs

/-- Declared supertypes are class types of classes declared earlier, raw or with all their
arguments, over the parameters of the declaring class. -/
structure WellScoped (s : ClassTable) : Prop where
  ordered : s.Ordered
  usable : ∀ c d, s.class? c = some d → ∀ t ∈ d.supers, s.Usable t
  vars_mem : ∀ c d, s.class? c = some d → ∀ t ∈ d.supers, ∀ v ∈ t.vars, v ∈ d.params

/-- A complete table in which declared supertypes hold no variables but the parameters of the
declaring class, and no class reaches two instances of one class. -/
structure Scoped (s : ClassTable) : Prop extends s.Complete where
  vars_mem : ∀ c d, s.class? c = some d → ∀ t ∈ d.supers, ∀ v ∈ t.vars, v ∈ d.params
  coherent : ∀ c d, s.class? c = some d → s.OneInstance (.declared c (d.params.map .var))

variable {s : ClassTable} {c e : ClassId} {d : ClassDecl} {args as bs : List Ty} {t u : Ty}
  {σ : TypeVarId → Ty}

theorem Usable.subst (h : s.Usable t) (σ : TypeVarId → Ty) : s.Usable (t.subst σ) := by
  cases h with
  | raw c => exact .raw c
  | applied h =>
    obtain ⟨d, hd, hlen⟩ := h
    rw [Ty.subst, Ty.substList_eq_map]
    exact .applied ⟨d, hd, by simpa using hlen⟩

theorem usable_object : s.Usable ClassId.object.ty := .raw _

/-- Raw uses of a generic class have raw supertypes. -/
theorem instantiate_raw (hparams : d.params ≠ []) (e : ClassId) (as : List Ty) :
    s.instantiate d [] (.declared e as) = .declared e [] := by
  unfold instantiate
  rw [if_pos (by simpa using hparams), erasure_declared]

theorem subst_eq_object_iff : (Ty.declared e as).subst σ = ClassId.object.ty ↔
    Ty.declared e as = ClassId.object.ty := by
  simp [Ty.subst, ClassId.ty]

/-- If a substitution leads from the supertypes of one use of a class to those of another, it does
so for the whole list: the root is added to both or to neither. -/
theorem declaredSupertypes_subst (hd : ∀ t ∈ d.supers, DeclaredBefore c t)
    (h : ∀ t ∈ d.supers, (s.instantiate d args t).subst σ = s.instantiate d bs t) :
    s.declaredSupertypes d bs = (s.declaredSupertypes d args).map (Ty.subst σ) := by
  have hmap : d.supers.map (s.instantiate d bs) =
      (d.supers.map (s.instantiate d args)).map (Ty.subst σ) := by
    rw [List.map_map]
    exact List.map_congr_left fun t ht => (h t ht).symm
  have hobject : ClassId.object.ty ∈ (d.supers.map (s.instantiate d args)).map (Ty.subst σ) ↔
      ClassId.object.ty ∈ d.supers.map (s.instantiate d args) := by
    simp only [List.mem_map, exists_exists_and_eq_and]
    refine exists_congr fun t => and_congr_right fun ht => ?_
    obtain ⟨e, as, rfl, -⟩ := hd t ht
    obtain ⟨bs, hbs⟩ := instantiate_declared (s := s) d args e as
    rw [hbs]
    exact subst_eq_object_iff
  rw [declaredSupertypes_eq, declaredSupertypes_eq, hmap]
  simp only [hobject]
  split
  · simp [Ty.subst, ClassId.ty]
  · rfl

/-- The supertypes of a class applied to arguments are those of the class applied to its own
parameters, with the arguments put in. -/
theorem Ordered.supertypes_of_params (hs : s.Ordered) (hd : s.class? c = some d)
    (hlen : args.length = d.params.length) :
    s.supertypes (.declared c args) =
      (s.supertypes (.declared c (d.params.map .var))).map
        (Ty.subst (Ty.ofParams d.params args)) := by
  rw [supertypes_declared hd, supertypes_declared hd]
  refine declaredSupertypes_subst (hs c d hd) fun t _ => ?_
  rw [instantiate_eq_subst hlen, instantiate_eq_subst (by simp), Ty.ofParams_self,
    Ty.subst_var_self]

/-- Arguments too many or too few count as if there were as many as parameters. -/
theorem supertypes_complete (hd : s.class? c = some d) (hargs : args ≠ []) :
    s.supertypes (.declared c args) =
      s.supertypes (.declared c (d.params.map (Ty.ofParams d.params args))) := by
  have hleft : s.instantiate d args = Ty.subst (Ty.ofParams d.params args) := by
    unfold instantiate
    rw [if_neg (by simp [hargs])]
  have hright : s.instantiate d (d.params.map (Ty.ofParams d.params args)) =
      Ty.subst (Ty.ofParams d.params args) := by
    rw [instantiate_eq_subst (by simp), Ty.ofParams_complete]
  rw [supertypes_declared hd, supertypes_declared hd, declaredSupertypes_eq, declaredSupertypes_eq,
    hleft, hright]

theorem takes_params (hd : s.class? c = some d) : s.Takes c (d.params.map .var) :=
  ⟨d, hd, by simp⟩

/-- Nothing stands above a class that is not declared. -/
theorem oneInstance_undeclared (hd : s.class? c = none) : s.OneInstance (.declared c args) := by
  have hself {u : Ty} (hu : Climbs s.supertypes (.declared c args) u) : .declared c args = u := by
    rcases Relation.ReflTransGen.cases_head hu with hu | ⟨w, hw, -⟩
    · exact hu
    · simp [supertypes, hd] at hw
  intro e as bs has hbs
  cases hself has
  cases hself hbs
  rfl

namespace WellScoped

variable (hs : s.WellScoped)

include hs

theorem usable_of_mem_supertypes (h : s.Usable t) (hu : u ∈ s.supertypes t) : s.Usable u := by
  obtain ⟨c, args, rfl⟩ : ∃ c args, t = .declared c args := by
    cases h <;> exact ⟨_, _, rfl⟩
  obtain ⟨d, hd, ⟨t, ht, rfl⟩ | ⟨-, rfl⟩⟩ := mem_supertypes_declared_iff.1 hu
  · unfold instantiate
    split
    · obtain ⟨e, as, rfl, -⟩ := hs.ordered c d hd t ht
      rw [erasure_declared]
      exact .raw e
    · exact (hs.usable c d hd t ht).subst _
  · exact usable_object

theorem usable_of_climbs (h : s.Usable t) (hu : Climbs s.supertypes t u) : s.Usable u := by
  induction hu with
  | refl => exact h
  | tail _ hstep ih => exact hs.usable_of_mem_supertypes ih hstep

/-- Supertypes commute with substitution. -/
theorem supertypes_subst (h : s.Usable t) (σ : TypeVarId → Ty) :
    s.supertypes (t.subst σ) = (s.supertypes t).map (Ty.subst σ) := by
  have happlied {c : ClassId} {args : List Ty} (h : s.Takes c args) :
      s.supertypes ((Ty.declared c args).subst σ) =
        (s.supertypes (.declared c args)).map (Ty.subst σ) := by
    obtain ⟨d, hd, hlen⟩ := h
    rw [Ty.subst, Ty.substList_eq_map, supertypes_declared hd, supertypes_declared hd]
    refine declaredSupertypes_subst (hs.ordered c d hd) fun t ht => ?_
    rw [instantiate_eq_subst hlen, instantiate_eq_subst (by simpa using hlen), Ty.subst_subst]
    refine Ty.subst_congr fun v hv => ?_
    exact (Ty.ofParams_map _ hlen (hs.vars_mem c d hd t ht v hv)).symm
  cases h with
  | applied h => exact happlied h
  | raw c =>
    cases hd : s.class? c with
    | none => simp [Ty.subst, supertypes, hd]
    | some d =>
      by_cases hparams : d.params = []
      · exact happlied ⟨d, hd, by simp [hparams]⟩
      · rw [Ty.subst, Ty.substList_eq_map, List.map_nil, supertypes_declared hd]
        refine declaredSupertypes_subst (hs.ordered c d hd) fun t ht => ?_
        obtain ⟨e, as, rfl, -⟩ := hs.ordered c d hd t ht
        rw [instantiate_raw hparams, Ty.subst, Ty.substList_eq_map, List.map_nil]

/-! ## Climbing -/

/-- What an instance of a type climbs to is an instance of what the type climbs to. -/
theorem climbs_subst (h : s.Usable t) (σ : TypeVarId → Ty)
    (hu : Climbs s.supertypes (t.subst σ) u) :
    ∃ w, Climbs s.supertypes t w ∧ w.subst σ = u := by
  induction hu with
  | refl => exact ⟨t, Relation.ReflTransGen.refl, rfl⟩
  | tail _ hstep ih =>
    obtain ⟨w, hw, rfl⟩ := ih
    rw [hs.supertypes_subst (hs.usable_of_climbs h hw)] at hstep
    obtain ⟨u, hu, rfl⟩ := List.mem_map.1 hstep
    exact ⟨u, hw.tail hu, rfl⟩

theorem subst_climbs (h : s.Usable t) (σ : TypeVarId → Ty) (hu : Climbs s.supertypes t u) :
    Climbs s.supertypes (t.subst σ) (u.subst σ) := by
  induction hu with
  | refl => exact Relation.ReflTransGen.refl
  | tail hclimb hstep ih =>
    refine Relation.ReflTransGen.tail ih ?_
    rw [hs.supertypes_subst (hs.usable_of_climbs h hclimb)]
    exact List.mem_map_of_mem hstep

/-- Above an instance of a class stand instances of what stands above the class. -/
theorem climbs_of_params (h : s.Takes c args) (hd : s.class? c = some d)
    (hu : Climbs s.supertypes (.declared c args) u) :
    u = .declared c args ∨
      ∃ t, Climbs s.supertypes (.declared c (d.params.map .var)) t ∧
        t.subst (Ty.ofParams d.params args) = u := by
  rcases Relation.ReflTransGen.cases_head hu with hu | ⟨w, hw, hu⟩
  · exact Or.inl hu.symm
  · right
    rw [hs.ordered.supertypes_of_params hd (h.length_eq hd)] at hw
    obtain ⟨t, ht, rfl⟩ := List.mem_map.1 hw
    have husable := hs.usable_of_mem_supertypes (.applied (takes_params hd)) ht
    obtain ⟨t, htu, rfl⟩ := hs.climbs_subst husable _ hu
    exact ⟨t, Relation.ReflTransGen.head ht htu, rfl⟩

/-- Conversely, instances of what stands above a class stand above its instances. -/
theorem climbs_instance (h : s.Takes c args) (hd : s.class? c = some d)
    (hne : u ≠ .declared c (d.params.map .var))
    (hu : Climbs s.supertypes (.declared c (d.params.map .var)) u) :
    Climbs s.supertypes (.declared c args) (u.subst (Ty.ofParams d.params args)) := by
  rcases Relation.ReflTransGen.cases_head hu with hself | ⟨w, hw, hrest⟩
  · exact absurd hself.symm hne
  · have hfirst : w.subst (Ty.ofParams d.params args) ∈ s.supertypes (.declared c args) := by
      rw [hs.ordered.supertypes_of_params hd (h.length_eq hd)]
      exact List.mem_map_of_mem hw
    have husable := hs.usable_of_mem_supertypes (.applied (takes_params hd)) hw
    exact Relation.ReflTransGen.head hfirst (hs.subst_climbs husable _ hrest)

theorem args_eq_map_of_climbs (h : s.Takes c args) (hd : s.class? c = some d) (hne : e ≠ c)
    (ha : Climbs s.supertypes (.declared c args) (.declared e as)) :
    ∃ bs, Climbs s.supertypes (.declared c (d.params.map .var)) (.declared e bs) ∧
      as = bs.map (Ty.subst (Ty.ofParams d.params args)) := by
  rcases hs.climbs_of_params h hd ha with ha | ⟨t, ht, hta⟩
  · cases ha
    exact absurd rfl hne
  · obtain ⟨e', bs, rfl⟩ := hs.ordered.declared_of_climbs ht
    rw [Ty.subst, Ty.substList_eq_map] at hta
    cases hta
    exact ⟨bs, ht, rfl⟩

/-- A class applied to arguments climbs to one instance of each class, if the class applied to its
own parameters does. -/
theorem oneInstance_applied (hb : Extends base s) (h : s.Takes c args) (hd : s.class? c = some d)
    (hgeneric : s.OneInstance (.declared c (d.params.map .var))) :
    s.OneInstance (.declared c args) := by
  intro e as bs has hbs
  -- a parameter may be listed twice, so the class itself is no instance of its generic form
  by_cases hec : e = c
  · subst hec
    rw [hb.args_eq_of_climbs hs.ordered has, hb.args_eq_of_climbs hs.ordered hbs]
  · obtain ⟨as', has', rfl⟩ := hs.args_eq_map_of_climbs h hd hec has
    obtain ⟨bs', hbs', rfl⟩ := hs.args_eq_map_of_climbs h hd hec hbs
    rw [hgeneric e as' bs' has' hbs']

/-- **Two uses of each class tell** whether class types climb to one instance of each class. -/
theorem oneInstance (hb : Extends base s)
    (hgeneric : ∀ c d, s.class? c = some d → s.OneInstance (.declared c (d.params.map .var)))
    (hraw : ∀ c d, s.class? c = some d → s.OneInstance (.declared c []))
    (h : s.Usable t) : s.OneInstance t := by
  cases h with
  | applied h =>
    obtain ⟨d, hd, -⟩ := id h
    exact hs.oneInstance_applied hb h hd (hgeneric _ d hd)
  | raw c =>
    cases hd : s.class? c with
    | some d => exact hraw c d hd
    | none => exact oneInstance_undeclared hd

end WellScoped

namespace Scoped

variable (hs : s.Scoped)

include hs

theorem wellScoped : s.WellScoped where
  ordered := hs.ordered
  usable c d hd t ht := by
    obtain ⟨e, as, rfl, -⟩ := hs.ordered c d hd t ht
    exact .applied (hs.supers_take c d hd e as ht)
  vars_mem := hs.vars_mem

/-- **No class type climbs to two instances of one class**, whatever its arguments, if no class
applied to its own parameters does. -/
theorem unambiguous : s.Unambiguous where
  toComplete := hs.toComplete
  args_unique h ha hb := by
    obtain ⟨d, hd, -⟩ := id h
    exact hs.wellScoped.oneInstance_applied hs.extends_base h hd (hs.coherent _ d hd) _ _ _ ha hb

end Scoped

end Wiring.ClassTable
