import Wiring.Proofs.Subtyping.Turns
import Wiring.Proofs.Subtyping.Unfolding
/-!
# Climbing is subtyping

The closure of a type goes from a variable to all its bounds and from an intersection to all its
members; subtyping looks at the first member that helps, and at arguments by containment. The two
agree in a table where class types climb to one instance of each class and what is declared is
proper: what a type climbs to is never refused (`Consistent.subtype?_ne_false`).

That it is found takes more, for the question about one member of an intersection may be endless
though another member has the answer. No such member is met on the way from class types, arrays and
variables with one bound (`Straight`), and none exists without lower bounds in declarations.
-/

namespace Wiring.ClassTable

/-- Every class type, raw or with all its arguments, climbs to one instance of each class, and
following the bounds of variables comes to an end. -/
structure Consistent (s : ClassTable) : Prop where
  extends_base : Extends base s
  founded : s.Founded
  oneInstance : ∀ t, s.Usable t → s.OneInstance t

/-- The type is an array, a class type whose wildcard arguments have at most one bound each, a
declared variable, or an intersection of such types. -/
inductive Proper (s : ClassTable) : Ty → Prop where
  | array (t : Ty) : Proper s (.array t)
  | declared {c : ClassId} {args : List Ty} :
      (∀ a ∈ args, a.boundedOnce = true) → Proper s (.declared c args)
  | var {v : TypeVarId} {d : TypeVarDecl} : s.typeVar? v = some d → Proper s (.var v)
  | intersection {ts : List Ty} : (∀ t ∈ ts, Proper s t) → Proper s (.intersection ts)

/-- Declared supertypes and bounds are proper. -/
structure ProperlyDeclared (s : ClassTable) : Prop where
  supers : ∀ c d, s.class? c = some d → ∀ t ∈ d.supers, ∀ a ∈ t.args, a.boundedOnce = true
  bounds : ∀ t ∈ s.bounds, s.Proper t

/-- The type is an array or a class type, or leads to one by single bounds. -/
inductive Straight (s : ClassTable) : Ty → Prop where
  | array (t : Ty) : Straight s (.array t)
  | declared (c : ClassId) (args : List Ty) : Straight s (.declared c args)
  | var {v : TypeVarId} {bound : Ty} :
      s.bound? v = some bound → Straight s bound → Straight s (.var v)

variable {s : ClassTable} {n : Nat} {c d e : ClassId} {args as : List Ty} {t u : Ty}
  {v : TypeVarId}

/-! ## Proper types -/

namespace Proper

theorem boundedOnce (h : s.Proper (.declared c args)) : ∀ a ∈ args, a.boundedOnce = true := by
  cases h with
  | declared h => exact h

theorem not_wildcard (h : s.Proper t) : t.isWildcard = false := by
  cases h <;> rfl

theorem isReference (h : s.Proper t) : t.isReference = true := by
  cases h <;> rfl

theorem raw (c : ClassId) : s.Proper (.declared c []) := .declared (by simp)

end Proper

/-- Putting in arguments gives no wildcard a second bound. -/
theorem boundedOnce_subst {σ : TypeVarId → Ty} (h : t.boundedOnce = true)
    (hσ : ∀ v, (σ v).boundedOnce = true) : (t.subst σ).boundedOnce = true := by
  cases t with
  | var v => exact hσ v
  | wildcard upper lower => cases upper <;> cases lower <;> first | rfl | cases h
  | _ => rfl

/-- What a variable climbs to, its bound climbs to, if only from member to member. -/
theorem climbs_of_bound? {bound : Ty} (hbound : s.bound? v = some bound) (hne : .var v ≠ u)
    (hu : Climbs s.supertypes (.var v) u) : Climbs s.supertypes bound u := by
  obtain ⟨⟨name, bounds⟩, hv, rfl⟩ := Option.map_eq_some_iff.1 hbound
  obtain ⟨w, hw, hu⟩ := (Relation.ReflTransGen.cases_head hu).resolve_left hne
  cases bounds with
  | nil =>
    rw [supertypes, hv, List.mem_singleton] at hw
    exact hw ▸ hu
  | cons b bs =>
    have hw : w ∈ b :: bs := by simpa [supertypes, hv] using hw
    cases bs with
    | nil => exact List.mem_singleton.1 hw ▸ hu
    | cons b' bs => exact Relation.ReflTransGen.head hw hu

namespace ProperlyDeclared

variable (hd : s.ProperlyDeclared)

include hd

theorem proper_bound {bound : Ty} (hbound : s.bound? v = some bound) : s.Proper bound := by
  obtain ⟨decl, hv, rfl⟩ := Option.map_eq_some_iff.1 hbound
  have hbounds : ∀ t ∈ decl.bounds, s.Proper t := fun t ht => hd.bounds t (mem_bounds hv ht)
  split
  · exact .raw _
  · rename_i t heq
    exact hbounds t (by simp [heq])
  · exact .intersection hbounds

theorem proper_of_mem_supertypes (hs : s.Ordered) (ht : s.Proper t) (hu : u ∈ s.supertypes t) :
    s.Proper u := by
  cases ht with
  | array t =>
    obtain ⟨c, rfl⟩ := raw_of_mem_arraySupertypes hu
    exact .raw c
  | @declared c args hargs =>
    obtain ⟨d, hc, ⟨t, ht, rfl⟩ | ⟨-, rfl⟩⟩ := mem_supertypes_declared_iff.1 hu
    · obtain ⟨e, as, rfl, -⟩ := hs c d hc t ht
      have has : ∀ a ∈ as, a.boundedOnce = true := hd.supers c d hc _ ht
      unfold instantiate
      split
      · rw [erasure_declared]
        exact .raw e
      · rw [Ty.subst, Ty.substList_eq_map]
        refine .declared fun b hb => ?_
        obtain ⟨a, ha, rfl⟩ := List.mem_map.1 hb
        refine boundedOnce_subst (has a ha) fun v => ?_
        rcases Ty.ofParams_mem_or_eq d.params args v with hmem | heq
        · exact hargs _ hmem
        · rw [heq]
          rfl
    · exact .raw _
  | var hv =>
    rcases mem_supertypes_var hu with hu | rfl
    · exact hd.bounds u hu
    · exact .raw _
  | intersection h => exact h u hu

theorem proper_of_climbs (hs : s.Ordered) (ht : s.Proper t) (hu : Climbs s.supertypes t u) :
    s.Proper u := by
  induction hu with
  | refl => exact ht
  | tail _ hstep ih => exact hd.proper_of_mem_supertypes hs ih hstep

end ProperlyDeclared

/-! ## Class types and arrays -/

/-- Class types with arguments too many or too few climb to one instance of each class as well. -/
theorem Consistent.oneInstance_declared (hs : s.Consistent) (c : ClassId) (args : List Ty) :
    s.OneInstance (.declared c args) := by
  by_cases hargs : args = []
  · rw [hargs]
    exact hs.oneInstance _ (.raw c)
  cases hc : s.class? c with
  | none => exact oneInstance_undeclared hc
  | some d =>
    have htakes : s.Takes c (d.params.map (Ty.ofParams d.params args)) := ⟨d, hc, by simp⟩
    have hcomplete := hs.oneInstance _ (.applied htakes)
    have hclimbs {e : ClassId} {as : List Ty} (hec : e ≠ c)
        (h : Climbs s.supertypes (.declared c args) (.declared e as)) :
        Climbs s.supertypes (.declared c (d.params.map (Ty.ofParams d.params args)))
          (.declared e as) := by
      rcases Relation.ReflTransGen.cases_head h with heq | ⟨w, hw, h⟩
      · cases heq
        exact absurd rfl hec
      · rw [supertypes_complete hc hargs] at hw
        exact Relation.ReflTransGen.head hw h
    intro e as bs has hbs
    by_cases hec : e = c
    · subst hec
      rw [hs.extends_base.args_eq_of_climbs hs.founded.ordered has,
        hs.extends_base.args_eq_of_climbs hs.founded.ordered hbs]
    · exact hcomplete e as bs (hclimbs hec has) (hclimbs hec hbs)

section

variable (hs : s.Consistent) (hd : s.ProperlyDeclared)

include hs hd

theorem Consistent.isSubtype_declared (ht : s.Proper (.declared c args))
    (hu : Climbs s.supertypes (.declared c args) u) : s.IsSubtype (.declared c args) u := by
  obtain ⟨e, as, rfl⟩ := hs.founded.ordered.declared_of_climbs hu
  have has := (hd.proper_of_climbs hs.founded.ordered ht hu).boundedOnce
  exact hs.founded.ordered.isSubtype_of_climbs (hs.oneInstance_declared c args) hu rfl
    (contains_self has)

omit hd in
theorem Consistent.isSubtype_array (hu : Climbs s.supertypes (.array t) u) :
    s.IsSubtype (.array t) u := by
  rcases Relation.ReflTransGen.cases_head hu with rfl | ⟨w, hw, hu⟩
  · exact settles_subtype?_self _
  · have hmem := hs.extends_base.closedUnder_arraySupertypes.mem hw hu
    obtain ⟨c, rfl⟩ := raw_of_mem_arraySupertypes hmem
    exact ClassTable.isSubtype_array hmem

end

/-! ## Variables and intersections -/

theorem Straight.kind_ne (hs : s.Ordered) (ht : s.Straight t) (hu : Climbs s.supertypes t u) :
    u.kind ≠ .intersection := by
  induction ht with
  | array t =>
    rcases Relation.ReflTransGen.cases_head hu with rfl | ⟨w, hw, hu⟩
    · simp [Ty.kind]
    · obtain ⟨c, rfl⟩ := raw_of_mem_arraySupertypes hw
      obtain ⟨e, as, rfl⟩ := hs.declared_of_climbs hu
      simp [Ty.kind]
  | declared c args =>
    obtain ⟨e, as, rfl⟩ := hs.declared_of_climbs hu
    simp [Ty.kind]
  | @var v bound hbound _ ih =>
    by_cases hne : .var v = u
    · rw [← hne]
      simp [Ty.kind]
    · exact ih (climbs_of_bound? hbound hne hu)

namespace Consistent

variable (hs : s.Consistent) (hd : s.ProperlyDeclared)

include hs hd

/-- **What a type climbs to is not refused.** -/
theorem subtype?_ne_false (ht : s.Proper t) (hu : Climbs s.supertypes t u) (n : Nat) :
    s.subtype? n t u ≠ some false := by
  induction n generalizing t u with
  | zero => exact nofun
  | succ n ih =>
    by_cases hne : t = u
    · rw [hne, subtype?_self]
      exact nofun
    have hup := hd.proper_of_climbs hs.founded.ordered ht hu
    by_cases hi : u.kind = .intersection
    · obtain ⟨parts, rfl⟩ : ∃ parts, u = .intersection parts := by
        cases u with
        | intersection parts => exact ⟨parts, rfl⟩
        | _ => cases hi
      rw [subtype?_intersection_right ht.not_wildcard ht.isReference hne]
      exact allM_ne_false fun part hpart => ih ht (hu.tail hpart)
    · cases ht with
      | array t => exact (hs.isSubtype_array hu).subtype?_ne_false _
      | declared h => exact (hs.isSubtype_declared hd (.declared h) hu).subtype?_ne_false _
      | var hv =>
        obtain ⟨bound, hbound⟩ := exists_bound? hv
        rw [subtype?_var hup.not_wildcard hup.isReference hi hne, hbound]
        exact ih (hd.proper_bound hbound) (climbs_of_bound? hbound hne hu)
      | intersection h =>
        -- the walk went on from one of the members, and this one does not refuse
        obtain ⟨part, hpart, hu⟩ := (Relation.ReflTransGen.cases_head hu).resolve_left hne
        rw [subtype?_intersection_left hup.not_wildcard hup.isReference hi]
        exact anyM_ne_false hpart (ih (h part hpart) hu)

theorem isSubtype_of_settled (ht : s.Proper t) (hu : Climbs s.supertypes t u)
    (hsettled : s.Settled t u) : s.IsSubtype t u :=
  hsettled.isSubtype (hs.subtype?_ne_false hd ht hu)

theorem isSubtype_of_straight (ht : s.Proper t) (hstraight : s.Straight t)
    (hu : Climbs s.supertypes t u) : s.IsSubtype t u := by
  induction hstraight with
  | array t => exact hs.isSubtype_array hu
  | declared c args => exact hs.isSubtype_declared hd ht hu
  | @var v bound hbound hstraight ih =>
    by_cases hne : .var v = u
    · rw [hne]
      exact settles_subtype?_self u
    have hclimb := climbs_of_bound? hbound hne hu
    have hup := hd.proper_of_climbs hs.founded.ordered ht hu
    have hi := hstraight.kind_ne hs.founded.ordered hclimb
    refine Settles.of_succ ((ih (hd.proper_bound hbound) hclimb).congr fun n => ?_)
    rw [subtype?_var hup.not_wildcard hup.isReference hi hne, hbound]
    rfl

/-- **Every type in a closure is a supertype**, if the question has an answer; it has one for types
that lead to an array or a class type by single bounds, and for all types if no declaration has a
lower bound in it. -/
theorem isSubtype_of_mem_closure? (ht : s.Proper t) :
    ∃ ts, Settles (fun n => (s.system n).closure? n t) ts ∧
      ∀ u ∈ ts, (s.Settled t u → s.IsSubtype t u) ∧
        (s.Straight t ∨ s.NoLowerBounds → s.IsSubtype t u) := by
  obtain ⟨ts, hw, hts⟩ := hs.founded.ordered.exists_closure? t
  refine ⟨ts, hts, fun u hu => ?_⟩
  have hclimb := hw.mem_iff.1 hu
  have hsettled := hs.isSubtype_of_settled hd ht hclimb
  refine ⟨hsettled, fun h => ?_⟩
  rcases h with hstraight | hn
  · exact hs.isSubtype_of_straight hd ht hstraight hclimb
  · exact hsettled (hs.founded.settled hn t u)

end Consistent

/-- For a well-scoped table it is enough to look at two uses of each class. -/
theorem WellScoped.consistent (hs : s.WellScoped) (hb : Extends base s)
    (hacyclic : ∀ v, ¬ Relation.TransGen s.LeadsTo v v)
    (hgeneric : ∀ c d, s.class? c = some d → s.OneInstance (.declared c (d.params.map .var)))
    (hraw : ∀ c d, s.class? c = some d → s.OneInstance (.declared c [])) : s.Consistent where
  extends_base := hb
  founded := ⟨hs.ordered, hacyclic⟩
  oneInstance _ := hs.oneInstance hb hgeneric hraw

/-- `N extends Number & Comparable<Integer>`. -/
def twoBounds : ClassTable :=
  base.addTypeVar ⟨"N", [ClassId.number.ty, .declared .comparable [ClassId.integer.ty]]⟩

theorem twoBounds_consistent : twoBounds.Consistent :=
  WellScoped.consistent
    ⟨forall_class? (by decide), forall_class? (by decide), forall_class? (by decide)⟩
    (.addTypeVar _ .refl) (acyclic_of_vars (forall_typeVar? (by decide)))
    (coherent_of_closures (n := 24) (by decide))
    (coherent_of_closures (n := 24) (f := fun _ => []) (by decide))

/-- `N` is below its two bounds and whatever they climb to. -/
theorem isSubtype_of_mem_closure?_twoBounds :
    let t : Ty := .var ⟨11⟩
    twoBounds.Consistent ∧ twoBounds.ProperlyDeclared ∧ twoBounds.Proper t ∧
      twoBounds.NoLowerBounds ∧
      ∃ ts, Settles (fun n => (twoBounds.system n).closure? n t) ts ∧
        ∀ u ∈ ts, twoBounds.IsSubtype t u := by
  intro t
  have hbounds : twoBounds.bounds = [ClassId.object.ty, ClassId.number.ty,
      .declared .comparable [ClassId.integer.ty]] := rfl
  have hd : twoBounds.ProperlyDeclared := by
    refine ⟨forall_class? (by decide), fun t ht => ?_⟩
    rw [hbounds] at ht
    simp only [List.mem_cons, List.not_mem_nil, or_false] at ht
    rcases ht with rfl | rfl | rfl
    · exact .raw _
    · exact .raw _
    · exact .declared (by decide)
  have ht : twoBounds.Proper t := .var rfl
  have hn : twoBounds.NoLowerBounds :=
    ⟨forall_class? (by decide), forall_typeVar? (by decide)⟩
  obtain ⟨ts, hts, hsub⟩ := Consistent.isSubtype_of_mem_closure? twoBounds_consistent hd ht
  exact ⟨twoBounds_consistent, hd, ht, hn, ts, hts, fun u hu => (hsub u hu).2 (.inr hn)⟩

/-! ## Where closures hold more -/

/-- `u` is in the closure of `t`, but not found to be above it. -/
structure Misses (s : ClassTable) (t u : Ty) : Prop where
  proper : s.Proper t
  listed : ∃ ts, (s.system 24).closure? 24 t = some ts ∧ u ∈ ts
  apart : ¬ s.IsSubtype t u

/-- A variable bounded by one that is not declared, a supertype with a doubly bounded wildcard, and
two classes with lower bounds in their supertypes. -/
def misfits : ClassTable :=
  let c : Ty := .declared ⟨24⟩ []
  let belowC : Ty := .declared .comparable [.wildcard none (some c)]
  base
    |>.addTypeVar ⟨"T", [.var ⟨99⟩]⟩
    |>.addClass ⟨"Odd", .classKind, [], some ClassId.object.ty,
      [.declared .comparable [.wildcard (some ClassId.number.ty) (some ClassId.integer.ty)]]⟩
    |>.addClass ⟨"C", .classKind, [], some ClassId.object.ty,
      [.declared .comparable [.wildcard none (some belowC)]]⟩
    |>.addClass ⟨"D", .classKind, [], some ClassId.object.ty, [belowC]⟩

theorem misfits_wellScoped : misfits.WellScoped :=
  ⟨forall_class? (by decide), forall_class? (by decide), forall_class? (by decide)⟩

theorem misfits_consistent : misfits.Consistent :=
  misfits_wellScoped.consistent (.addClass _ (.addClass _ (.addClass _ (.addTypeVar _ .refl))))
    (acyclic_of_vars (forall_typeVar? (by decide)))
    (coherent_of_closures (n := 24) (by decide))
    (coherent_of_closures (n := 24) (f := fun _ => []) (by decide))

/-- Whether `C` is a `Comparable<? super C>` comes down to the same question. -/
theorem misfits_subtype?_c (n : Nat) :
    misfits.subtype? n (.declared ⟨24⟩ [])
      (.declared .comparable [.wildcard none (some (.declared ⟨24⟩ []))]) = none := by
  have hview : misfits.view? 8 ⟨24⟩ [] .comparable = some (some [.wildcard none (some
      (.declared .comparable [.wildcard none (some (.declared ⟨24⟩ []))]))]) := by decide
  exact subtype?_of_turn rfl hview n

/-- An endless question about a member keeps that about the intersection from an answer. -/
theorem misfits_subtype?_both (n : Nat) :
    misfits.subtype? n (.intersection [.declared ⟨24⟩ [], .declared ⟨25⟩ []])
      (.declared .comparable [.wildcard none (some (.declared ⟨24⟩ []))]) = none := by
  cases n with
  | zero => rfl
  | succ n =>
    rw [subtype?_intersection_left rfl rfl (by decide)]
    simp [misfits_subtype?_c]

/-- **Not all of a closure need be found to be above.** A variable whose bound is not declared
climbs to the root but is not below it; a wildcard with two bounds contains nothing; and the
question about `C & D` and `Comparable<? super C>` is endless, though `D` is one. -/
theorem closure?_misses :
    misfits.Consistent ∧ misfits.WellScoped ∧
      (∀ bound ∈ misfits.bounds, ∀ t ∈ bound.parts, t.isWildcard = false ∧ t.isReference = true) ∧
      misfits.Misses (.var ⟨11⟩) ClassId.object.ty ∧
      misfits.Misses (.declared ⟨23⟩ [])
        (.declared .comparable [.wildcard (some ClassId.number.ty) (some ClassId.integer.ty)]) ∧
      misfits.Misses (.intersection [.declared ⟨24⟩ [], .declared ⟨25⟩ []])
        (.declared .comparable [.wildcard none (some (.declared ⟨24⟩ []))]) := by
  have hlisted {t u : Ty} (h : ((misfits.system 24).closure? 24 t).any (·.contains u)) :
      ∃ ts, (misfits.system 24).closure? 24 t = some ts ∧ u ∈ ts := by
    obtain ⟨ts, hts, hu⟩ := (Option.any_eq_true _ _).1 h
    exact ⟨ts, hts, List.contains_iff_mem.1 hu⟩
  refine ⟨misfits_consistent, misfits_wellScoped, by decide, ⟨.var rfl, hlisted (by decide), ?_⟩,
    ⟨.raw _, hlisted (by decide), ?_⟩,
    ⟨.intersection (by simp [Proper.raw]), hlisted (by decide), ?_⟩⟩
  · exact not_isSubtype (by decide : misfits.subtype? 8 _ _ = some false)
  · exact not_isSubtype (by decide : misfits.subtype? 8 _ _ = some false)
  · intro h
    obtain ⟨n, hn⟩ := h.exists_within
    rw [SubtypeWithin, misfits_subtype?_both] at hn
    cases hn

end Wiring.ClassTable
