import Wiring.Proofs.Matching.Closure
import Wiring.Proofs.Subtyping.GroundOrder
import Wiring.Proofs.Subtyping.Transitive
/-!
# Relaxing a required wildcard

A wildcard argument accepts a ground type when that lies between its bounds. This is a question
about subtypes (`Unambiguous.isSubtype_of_boundsAssignable`,
`Unambiguous.boundsAssignable_settles`). Since subtyping of ground types is transitive, a wider
upper bound or a deeper lower bound accepts whatever the first did (`accepts_relax`).

Declared supertypes must not hold variables of other declarations for that. No substitution reaches
such a variable, so that a class may climb to two instances of another although the class applied to
its own parameters does not (`not_accepts_relax`).
-/

namespace Wiring

namespace ClassTable

/-- An array or class type, fully applied and without variables. -/
structure GroundReference (s : ClassTable) (t : Ty) : Prop where
  applied : s.FullyApplied [] t
  reference : t.isReference = true

variable {s : ClassTable} {n : Nat} {t u : Ty}

/-- A bound covers itself and those that may be assigned to it. -/
theorem eq_or_assignable?_of_boundsAssignable (ht : t.isConcrete = true) (hu : u.isConcrete = true)
    (h : (s.system n).boundsAssignable [u] [t] = .ok true) :
    u = t ∨ s.assignable? n t u = some true := by
  rw [TypeSystem.boundsAssignable_singleton hu ht,
    TypeSystem.boundAssignable_eq_true_iff hu ht] at h
  obtain ⟨-, -, heq | hassign⟩ := h
  · exact .inl heq
  · exact .inr (by simpa [system, Option.getD_eq_iff] using hassign)

namespace Unambiguous

variable (hs : s.Unambiguous)

include hs

/-- A bound that covers another at all is above it. -/
theorem isSubtype_of_boundsAssignable (ht : s.GroundReference t) (hu : s.GroundReference u)
    (h : (s.system n).boundsAssignable [u] [t] = .ok true) : s.IsSubtype t u := by
  rcases eq_or_assignable?_of_boundsAssignable ht.applied.isConcrete hu.applied.isConcrete h with
    heq | hassign
  · rw [heq]
    exact settles_subtype?_self t
  · obtain ⟨v, hsub, hsettles⟩ :=
      hs.exists_assignable? ht.applied hu.applied ht.reference hu.reference
    rwa [hsettles.unique (settles_assignable? hassign)] at hsub

/-- A bound covers those below it, with fuel enough. -/
theorem boundsAssignable_settles (ht : s.GroundReference t) (hu : s.GroundReference u)
    (h : s.IsSubtype t u) :
    Eventually fun n => (s.system n).boundsAssignable [u] [t] = .ok true := by
  obtain ⟨v, hv, hbounds⟩ := hs.exists_boundsAssignable ht.applied hu.applied (.inl ht.reference)
  have hv : v = true := hv.unique h
  exact hbounds.mono fun _ hiff => hiff.2 hv

end Unambiguous

end ClassTable

namespace Policy

variable {s : ClassTable} {policy : Policy} {fuel : Nat} {c : ClassId} {b : Ty}

/-- A class with one wildcard argument accepts what the wildcard accepts. -/
theorem accepts_wildcard_iff (hp : s.FullyApplied [] (.declared c [b])) (upper lower : Option Ty) :
    policy.accepts (s.system fuel) (.declared c [.wildcard upper lower]) (.declared c [b]) =
        .ok true ↔
      wildcardAccepts (s.system fuel) upper lower b = .ok true := by
  have hne : [Ty.wildcard upper lower] ≠ [b] := by
    intro heq
    have hw := hp.not_wildcard_of_mem b (by simp)
    rw [← (List.cons.inj heq).1] at hw
    cases hw
  have harg (asTypes : Unit → Except TypeError Bool) :
      policy.argumentAccepts (s.system fuel) (.wildcard upper lower) b asTypes =
        wildcardAccepts (s.system fuel) upper lower b := by
    simp only [argumentAccepts]
  have hlen : [Ty.wildcard upper lower].length = [b].length := rfl
  rw [accepts_declared hp hlen hne, argumentsAccept_cons, harg, bind_eq_ok]
  constructor
  · rintro ⟨fits, hfits, h⟩
    cases fits with
    | true => exact hfits
    | false => cases h
  · exact fun h => ⟨true, h, by simp [argumentsAccept]⟩

/-- A wildcard does not accept what may not be assigned to its upper bound. -/
theorem accepts_upper_ne_true (hp : s.FullyApplied [] (.declared c [b])) {upper : Ty}
    (hupper : upper.isConcrete = true) (hne : upper ≠ b) {n : Nat}
    (h : s.assignable? n b upper = some false) :
    policy.accepts (s.system fuel) (.declared c [.wildcard (some upper) none]) (.declared c [b]) ≠
      .ok true := by
  have hb : b.isConcrete = true := (hp.of_mem_args (List.mem_singleton_self b)).isConcrete
  rw [ne_eq, accepts_wildcard_iff hp, TypeSystem.wildcardAccepts_upper_iff upper hb]
  intro haccepts
  rcases ClassTable.eq_or_assignable?_of_boundsAssignable hb hupper haccepts with heq | hassign
  · exact hne heq
  · cases (ClassTable.settles_assignable? hassign).unique (ClassTable.settles_assignable? h)

/-- A class applied to a ground argument is ground. -/
theorem fullyApplied_of_takes (hc : s.Takes c [b]) (hb : s.GroundReference b) :
    s.FullyApplied [] (.declared c [b]) := by
  obtain ⟨d, hd, hlen⟩ := hc
  exact .declared hd hlen (by simpa using hb.applied)

section

variable (hs : s.Unambiguous) (hc : s.Takes c [b]) (hb : s.GroundReference b)

include hs hc hb

/-- A wider upper bound accepts whatever the first did. -/
theorem accepts_relax_upper {upper upper' : Ty} (hu : s.GroundReference upper)
    (hu' : s.GroundReference upper')
    (h : policy.accepts (s.system fuel) (.declared c [.wildcard (some upper) none])
      (.declared c [b]) = .ok true) (hsub : s.IsSubtype upper upper') :
    Eventually fun fuel => policy.accepts (s.system fuel)
      (.declared c [.wildcard (some upper') none]) (.declared c [b]) = .ok true := by
  have hp := fullyApplied_of_takes hc hb
  have hconcrete := hb.applied.isConcrete
  rw [accepts_wildcard_iff hp, TypeSystem.wildcardAccepts_upper_iff upper hconcrete] at h
  have hbelow := hs.isSubtype_of_boundsAssignable hb hu h
  have htrans := hs.isSubtype_trans_ground hb.applied hu.applied hu'.applied hbelow hsub
  refine (hs.boundsAssignable_settles hb hu' htrans).mono fun n hn => ?_
  rwa [accepts_wildcard_iff hp, TypeSystem.wildcardAccepts_upper_iff upper' hconcrete]

/-- A deeper lower bound accepts whatever the first did. -/
theorem accepts_relax_lower {lower lower' : Ty} (hl : s.GroundReference lower)
    (hl' : s.GroundReference lower')
    (h : policy.accepts (s.system fuel) (.declared c [.wildcard none (some lower)])
      (.declared c [b]) = .ok true) (hsub : s.IsSubtype lower' lower) :
    Eventually fun fuel => policy.accepts (s.system fuel)
      (.declared c [.wildcard none (some lower')]) (.declared c [b]) = .ok true := by
  have hp := fullyApplied_of_takes hc hb
  rw [accepts_wildcard_iff hp] at h
  have habove := hs.isSubtype_of_boundsAssignable hl hb h
  have htrans := hs.isSubtype_trans_ground hl'.applied hl.applied hb.applied hsub habove
  refine (hs.boundsAssignable_settles hl' hb htrans).mono fun n hn => ?_
  rwa [accepts_wildcard_iff hp]

end

/-- **Relaxing a required wildcard never loses a match**: neither does raising its upper bound, nor
lowering its lower bound. -/
theorem accepts_relax (hs : s.Scoped) (policy : Policy) (hc : s.Takes c [b])
    (hb : s.GroundReference b) :
    (∀ fuel upper upper', s.GroundReference upper → s.GroundReference upper' →
      policy.accepts (s.system fuel) (.declared c [.wildcard (some upper) none])
        (.declared c [b]) = .ok true →
      s.IsSubtype upper upper' →
      Eventually fun fuel => policy.accepts (s.system fuel)
        (.declared c [.wildcard (some upper') none]) (.declared c [b]) = .ok true) ∧
    ∀ fuel lower lower', s.GroundReference lower → s.GroundReference lower' →
      policy.accepts (s.system fuel) (.declared c [.wildcard none (some lower)])
        (.declared c [b]) = .ok true →
      s.IsSubtype lower' lower →
      Eventually fun fuel => policy.accepts (s.system fuel)
        (.declared c [.wildcard none (some lower')]) (.declared c [b]) = .ok true :=
  ⟨fun _ _ _ => accepts_relax_upper hs.unambiguous hc hb,
    fun _ _ _ => accepts_relax_lower hs.unambiguous hc hb⟩

/-- `List<? extends Number>` accepts `List<Integer>`, and so does `List<? extends Serializable>`.
`List<? super Number>` accepts `List<Number>`, and so does `List<? super Integer>`. -/
theorem accepts_relax_list :
    ClassTable.base.Scoped ∧
      (Eventually fun fuel => Policy.event.accepts (ClassTable.base.system fuel)
        (.declared .list [.wildcard (some ClassId.serializable.ty) none])
        (.declared .list [ClassId.integer.ty]) = .ok true) ∧
      Eventually fun fuel => Policy.injection.accepts (ClassTable.base.system fuel)
        (.declared .list [.wildcard none (some ClassId.integer.ty)])
        (.declared .list [ClassId.number.ty]) = .ok true := by
  have hs : ClassTable.base.Scoped := ClassTable.base_regular.toScoped
  have hground {c : ClassId} (h : ClassTable.base.FullyApplied [] c.ty) :
      ClassTable.base.GroundReference c.ty := ⟨h, rfl⟩
  have hinteger := hground (c := .integer) (by decide)
  have hnumber := hground (c := .number) (by decide)
  have hserializable := hground (c := .serializable) (by decide)
  refine ⟨hs, ?_, ?_⟩
  · exact (accepts_relax hs .event ⟨_, rfl, rfl⟩ hinteger).1 4 ClassId.number.ty _ hnumber
      hserializable rfl (ClassTable.SubtypeWithin.isSubtype (n := 8) (by decide))
  · exact (accepts_relax hs .injection ⟨_, rfl, rfl⟩ hnumber).2 4 ClassId.number.ty _ hnumber
      hinteger rfl (ClassTable.SubtypeWithin.isSubtype (n := 8) (by decide))

end Policy

/-! ## Variables of other declarations -/

namespace ClassTable

/-- `I<P>`, `J<W> implements I<T>`, `A<V> extends I<V>` and `B<T> extends J<T> implements A<T>`: the
`T` of `J` is that of `B`. -/
def strayVariable : ClassTable :=
  base
    |>.addTypeVar ⟨"P", []⟩
    |>.addTypeVar ⟨"W", []⟩
    |>.addTypeVar ⟨"V", []⟩
    |>.addTypeVar ⟨"T", []⟩
    |>.addClass ⟨"I", .interfaceKind, [⟨11⟩], none, []⟩
    |>.addClass ⟨"J", .classKind, [⟨12⟩], some ClassId.object.ty, [.declared ⟨23⟩ [.var ⟨14⟩]]⟩
    |>.addClass ⟨"A", .interfaceKind, [⟨13⟩], none, [.declared ⟨23⟩ [.var ⟨13⟩]]⟩
    |>.addClass ⟨"B", .classKind, [⟨14⟩], some (.declared ⟨24⟩ [.var ⟨14⟩]),
      [.declared ⟨25⟩ [.var ⟨14⟩]]⟩

theorem strayVariable_wellDeclared : strayVariable.WellDeclared where
  extends_base := .addClass _ (.addClass _ (.addClass _ (.addClass _ (.addTypeVar _ (.addTypeVar _
    (.addTypeVar _ (.addTypeVar _ .refl)))))))
  ordered := forall_class? (by decide)
  applied := forall_class? (by decide)
  rooted := forall_class? (by decide)
  coherent := coherent_of_closures (n := 24) (by decide)

end ClassTable

namespace Policy

/-- **Where a supertype holds the variable of another declaration, relaxing may lose a match.** No
substitution reaches the `T` of `J`, so `B<Integer>` climbs to `I<T>` before it climbs to
`I<Integer>`. Hence `List<? extends A<Integer>>` accepts `List<B<Integer>>`, and
`List<? extends I<Integer>>` does not, although `A<Integer>` is a subtype of `I<Integer>`. -/
theorem not_accepts_relax :
    let s := ClassTable.strayVariable
    let i : Ty := .declared ⟨23⟩ [ClassId.integer.ty]
    let a : Ty := .declared ⟨25⟩ [ClassId.integer.ty]
    let b : Ty := .declared ⟨26⟩ [ClassId.integer.ty]
    s.WellDeclared ∧ s.Takes .list [b] ∧ s.GroundReference b ∧ s.GroundReference a ∧
      s.GroundReference i ∧ s.IsSubtype a i ∧
      ∀ policy : Policy,
        policy.accepts (s.system 8) (.declared .list [.wildcard (some a) none])
            (.declared .list [b]) = .ok true ∧
          ∀ fuel, policy.accepts (s.system fuel) (.declared .list [.wildcard (some i) none])
            (.declared .list [b]) ≠ .ok true := by
  intro s i a b
  have hsub : s.IsSubtype a i := ClassTable.SubtypeWithin.isSubtype (n := 8) (by decide)
  refine ⟨ClassTable.strayVariable_wellDeclared, ⟨_, rfl, rfl⟩, ⟨by decide, rfl⟩, ⟨by decide, rfl⟩,
    ⟨by decide, rfl⟩, hsub, fun policy => ⟨?_, fun fuel => ?_⟩⟩
  · cases policy <;> decide +kernel
  · exact accepts_upper_ne_true (n := 8) (by decide) rfl (by decide) (by decide)

end Policy

end Wiring
