import Wiring.Proofs.Hierarchy.Base
import Wiring.Proofs.Subtyping.Steps
/-!
# When subtyping is transitive

Arguments above a class type are compared by containment, but what is below an argument by
sameness. So two steps compose as long as no wildcard of the middle type gets below an argument on
the way up (`Regular.isSubtype_trans`); where one does, they need not.
-/

namespace Wiring.ClassTable

variable {s : ClassTable} {n : Nat} {c d : ClassId} {args : List Ty}
  {t u v container middle arg : Ty}

private theorem exists_mem_zip_between {α β γ : Type} {xs : List α} {ys : List β} {zs : List γ}
    (hlen : ys.length = xs.length) {pair : α × γ} (h : pair ∈ xs.zip zs) :
    ∃ y, (pair.1, y) ∈ xs.zip ys ∧ (y, pair.2) ∈ ys.zip zs := by
  induction xs generalizing ys zs with
  | nil => cases h
  | cons x xs ih =>
    cases ys with
    | nil => cases hlen
    | cons y ys =>
      cases zs with
      | nil => cases h
      | cons z zs =>
        rw [List.zip_cons_cons] at h
        rcases List.mem_cons.1 h with rfl | h
        · exact ⟨y, by simp, by simp⟩
        · obtain ⟨y', hxy, hyz⟩ := ih (by simpa using hlen) h
          exact ⟨y', by simp [hxy], by simp [hyz]⟩

/-! ## The root and the arrays -/

theorem isSubtype_object (ht : t.isBound = true) : s.IsSubtype t ClassId.object.ty := by
  cases t with
  | array t => exact isSubtype_array (by simp [arraySupertypes, ClassId.ty])
  | declared c args => exact settles_subtype?_object c args
  | _ => cases ht

/-- A wildcard bounded by the root contains every reference. -/
theorem contains_object (hu : s.Saturated u) (href : u.isReference = true) :
    Contains s.IsSubtype (.wildcard (some ClassId.object.ty) none) u := by
  by_cases hw : u.isWildcard = true
  · cases u with
    | wildcard upper lower =>
      cases upper with
      | none => exact .top lower
      | some t => exact .upper (isSubtype_object hu.upper.2)
    | _ => cases hw
  · have hw : u.isWildcard = false := by simpa using hw
    exact .inUpper hw (isSubtype_object (hu.isBound_of_reference href hw))

namespace Regular

variable (hs : s.Regular)

include hs

/-- Nothing else is above the root. -/
theorem eq_object_of_within (hu : s.Saturated u) (h : s.SubtypeWithin n ClassId.object.ty u) :
    u = ClassId.object.ty := by
  cases n with
  | zero => cases h
  | succ n =>
    generalize hobject : ClassId.object.ty = t at h
    have hbelow := hs.unambiguous.below_of_within (hobject ▸ hs.saturated_object.rigid) hu.rigid h
    cases hbelow with
    | self => rfl
    | climbs hclimb hlen _ =>
      cases hobject
      rcases Relation.ReflTransGen.cases_head hclimb with heq | ⟨w, hw, -⟩
      · cases heq
        rw [List.length_nil] at hlen
        rw [List.length_eq_zero_iff.1 hlen.symm]
      · rw [hs.complete.supertypes_object] at hw
        cases hw
    | _ => cases hobject

end Regular

/-! ## Composing steps -/

/-- Steps with `n` units of fuel compose. -/
def Composes (s : ClassTable) (n : Nat) : Prop :=
  ∀ t u v, s.Saturated t → s.Saturated u → s.Saturated v → s.Shallow u →
    s.SubtypeWithin n t u → s.SubtypeWithin n u v → s.IsSubtype t v

namespace Regular

variable (hs : s.Regular)

include hs

/-- **Containment composes where subtyping of the bounds does.** -/
theorem contains_trans (htrans : s.Composes n) (hcontainer : s.Saturated container)
    (hmiddle : s.Saturated middle) (harg : s.Saturated arg) (href : arg.isReference = true)
    (hshallow : middle.isWildcard = true → s.Shallow middle)
    (h : Contains (s.SubtypeWithin n) container middle)
    (h' : Contains (s.SubtypeWithin n) middle arg) : Contains s.IsSubtype container arg := by
  cases h' with
  | same hw => exact h.mono fun _ _ hask => hask.isSubtype
  | any =>
    cases h with
    | any => exact .any _
    | top => exact contains_object harg href
    | inUpper hw _ | inLower hw _ | same hw => cases hw
  | @upper u u' l hask =>
    cases h with
    | any => exact .any _
    | upper hask' =>
      exact .upper (htrans _ _ _ harg.upper.1 hmiddle.upper.1 hcontainer.upper.1
        (hshallow rfl).upper hask hask')
    | inUpper hw _ | inLower hw _ | same hw => cases hw
  | top l =>
    cases h with
    | any => exact .any _
    | upper hask' =>
      cases hs.eq_object_of_within hcontainer.upper.1 hask'
      exact .top l
    | inUpper hw _ | inLower hw _ | same hw => cases hw
  | inUpper hwarg hask =>
    cases h with
    | any => exact .any _
    | upper hask' =>
      exact .inUpper hwarg (htrans _ _ _ harg hmiddle.upper.1 hcontainer.upper.1
        (hshallow rfl).upper hask hask')
    | inUpper hw _ | inLower hw _ | same hw => cases hw
  | lower hask =>
    -- lower bounds are asked about the other way round, so that of the container comes first
    cases h with
    | any => exact .any _
    | top => exact contains_object harg href
    | lower hask' =>
      exact .lower (htrans _ _ _ hcontainer.lower.1 hmiddle.lower.1 harg.lower.1
        (hshallow rfl).lower hask' hask)
    | inUpper hw _ | inLower hw _ | same hw => cases hw
  | inLower hwarg hask =>
    cases h with
    | any => exact .any _
    | top => exact contains_object harg href
    | lower hask' =>
      exact .inLower hwarg (htrans _ _ _ hcontainer.lower.1 hmiddle.lower.1 harg
        (hshallow rfl).lower hask' hask)
    | inUpper hw _ | inLower hw _ | same hw => cases hw

/-- Two steps between class types compose: what the middle type has above it, the first type has
above it too, with arguments that the target contains. -/
theorem below_trans_declared (hrefs : s.ReferenceArgs) (htrans : s.Composes n) {e : ClassId}
    {as bs middleArgs targetArgs : List Ty} (ht : s.Saturated (.declared c args))
    (hu : s.Saturated (.declared d middleArgs)) (hv : s.Saturated (.declared e targetArgs))
    (hshallow : s.Shallow (.declared d middleArgs))
    (has : Climbs s.supertypes (.declared c args) (.declared d as))
    (hargs : ∀ pair ∈ middleArgs.zip as, Contains (s.SubtypeWithin n) pair.1 pair.2)
    (hbs : Climbs s.supertypes (.declared d middleArgs) (.declared e bs))
    (hlen : bs.length = targetArgs.length)
    (hargs' : ∀ pair ∈ targetArgs.zip bs, Contains (s.SubtypeWithin n) pair.1 pair.2) :
    Below s s.IsSubtype (.declared c args) (.declared e targetArgs) := by
  have hsame : ∀ pair ∈ middleArgs.zip as, pair.1.isWildcard = false → pair.2 = pair.1 :=
    fun pair hpair hw => (hargs pair hpair).eq_of_not_wildcard hw
  obtain ⟨cs, hcs, hlen', hpairs⟩ := hs.exists_climbs_of_shallow hu.takes
    (hs.complete.takes_of_climbs ht.takes has) hshallow hsame hbs
  have hclimb := has.trans hcs
  have hsat := hs.saturated_of_climbs hrefs ht hclimb
  refine .climbs hclimb (hlen'.trans hlen) fun pair hpair => ?_
  obtain ⟨b, htop, hbottom⟩ := exists_mem_zip_between hlen hpair
  obtain ⟨hz, hb⟩ := List.of_mem_zip htop
  have hc := (List.of_mem_zip hpair).2
  rcases hpairs _ hbottom with hmem | hsame
  · exact hs.contains_trans htrans (hv.of_mem hz)
      ((hs.saturated_of_climbs hrefs hu hbs).of_mem hb) (hsat.of_mem hc)
      (hsat.isReference_of_mem hc) (hshallow.of_mem (List.of_mem_zip hmem).1)
      (hargs' _ htop) (hargs _ hmem)
  · obtain rfl : pair.2 = b := hsame
    exact (hargs' _ htop).mono fun _ _ hask => hask.isSubtype

/-- **Steps compose.** -/
theorem composes (hrefs : s.ReferenceArgs) (n : Nat) : s.Composes n := by
  induction n with
  | zero => exact fun _ _ _ _ _ _ _ h => by cases h
  | succ n ih =>
    intro t u v ht hu hv hshallow htu huv
    have hsub := hs.unambiguous.below_of_within ht.rigid hu.rigid htu
    have hsup := hs.unambiguous.below_of_within hu.rigid hv.rigid huv
    refine hs.unambiguous.isSubtype_of_steps ht.rigid hsub hsup ?_ ?_
    · rintro x y z rfl rfl rfl hask hask'
      cases ht with | array ht =>
      cases hu with | array hu =>
      cases hv with | array hv =>
      cases hshallow with | array hshallow =>
      exact ih _ _ _ ht hu hv hshallow hask hask'
    · rintro c d e args middle targetArgs rfl rfl rfl
      cases hsub with
      | self => exact huv.isSubtype
      | climbs has hlen hargs =>
        cases hsup with
        | self => exact htu.isSubtype
        | climbs hbs hlen' hargs' =>
          have hbelow := hs.below_trans_declared hrefs ih ht hu hv hshallow has hargs hbs hlen' hargs'
          exact hs.unambiguous.isSubtype_of_below ht.rigid hbelow

/-- **Subtyping is transitive through shallow types.** -/
theorem isSubtype_trans (hrefs : s.ReferenceArgs) {a b c : Ty} (ha : s.Saturated a)
    (hb : s.Saturated b) (hc : s.Saturated c) (hshallow : s.Shallow b) (hab : s.IsSubtype a b)
    (hbc : s.IsSubtype b c) : s.IsSubtype a c := by
  obtain ⟨n, hab⟩ := hab.exists_within
  obtain ⟨m, hbc⟩ := hbc.exists_within
  exact hs.composes hrefs (max n m) a b c ha hb hc hshallow (hab.mono (Nat.le_max_left n m))
    (hbc.mono (Nat.le_max_right n m))

end Regular

theorem saturated_upper (hd : s.Takes c [.wildcard (some t) none]) (ht : s.Saturated t)
    (hb : t.isBound = true) : s.Saturated (.declared c [.wildcard (some t) none]) := by
  have hw : s.Saturated (.wildcard (some t) none) :=
    .wildcard (by simpa using ht) (by simp) (by simpa using hb) (by simp)
  exact .declared hd (by simpa using hw) (by simp [Ty.isReference])

/-- Above a list stand only types with the same argument. -/
theorem shallow_list (args : List Ty) (hargs : ∀ t ∈ args, t.isWildcard = true → base.Shallow t) :
    base.Shallow (.declared .list args) := by
  refine .declared rfl (fun e gs hclimb g hg => .inl ⟨⟨3⟩, ?_⟩) hargs
  have hall : ((base.system 24).closure? 24 (.declared .list [.var ⟨3⟩])).any fun ts =>
      ts.all fun t => t.args.all (· == .var ⟨3⟩) := by decide
  cases hts : (base.system 24).closure? 24 (.declared .list [.var ⟨3⟩]) with
  | none => simp [hts] at hall
  | some ts =>
    rw [hts, Option.any_some, List.all_eq_true] at hall
    have hmem := (TypeSystem.mem_closure?_iff hts).2 hclimb
    exact eq_of_beq (List.all_eq_true.1 (hall _ hmem) g hg)

/-- `ArrayList<Integer>`, `List<? extends Number>` and `Collection<? extends Serializable>`. -/
theorem isSubtype_trans_list :
    let a : Ty := .declared .arrayList [ClassId.integer.ty]
    let b : Ty := .declared .list [.wildcard (some ClassId.number.ty) none]
    let c : Ty := .declared .collection [.wildcard (some ClassId.serializable.ty) none]
    base.Regular ∧ base.ReferenceArgs ∧ base.Saturated a ∧ base.Saturated b ∧ base.Saturated c ∧
      base.Shallow b ∧ base.IsSubtype a b ∧ base.IsSubtype b c ∧ base.IsSubtype a c := by
  intro a b c
  have hrefs : base.ReferenceArgs := forall_class? (by decide)
  have ha : base.Saturated a := .of_fullyApplied (by decide) rfl
  have hb : base.Saturated b :=
    saturated_upper ⟨_, rfl, rfl⟩ (.of_fullyApplied (by decide) rfl) rfl
  have hc : base.Saturated c :=
    saturated_upper ⟨_, rfl, rfl⟩ (.of_fullyApplied (by decide) rfl) rfl
  have hshallow : base.Shallow b := by
    have hw : base.Shallow (.wildcard (some ClassId.number.ty) none) :=
      .wildcard (by simpa using .of_fullyApplied (by decide)) (by simp)
    exact shallow_list _ (by simpa using fun _ => hw)
  have hab : base.IsSubtype a b := SubtypeWithin.isSubtype (n := 8) (by decide)
  have hbc : base.IsSubtype b c := SubtypeWithin.isSubtype (n := 8) (by decide)
  exact ⟨base_regular, hrefs, ha, hb, hc, hshallow, hab, hbc,
    base_regular.isSubtype_trans hrefs ha hb hc hshallow hab hbc⟩

/-! ## Where steps do not compose -/

/-- A table in good order, but for what may stand in the arguments of declared supertypes. -/
structure WellDeclared (s : ClassTable) : Prop where
  extends_base : Extends base s
  ordered : s.Ordered
  applied : ∀ c d, s.class? c = some d → ∀ t ∈ d.supers, s.FullyApplied t.vars t
  rooted : ∀ c d, s.class? c = some d → d.kind = .classKind → c ≠ .object → d.superclass ≠ none
  coherent : ∀ c d, s.class? c = some d → ∀ e as bs,
    Climbs s.supertypes (.declared c (d.params.map .var)) (.declared e as) →
    Climbs s.supertypes (.declared c (d.params.map .var)) (.declared e bs) → as = bs

/-- A class that puts its parameter below an argument, one with a primitive argument above it, and
one that uses a variable it does not declare, bounded by a raw type. -/
def oddities : ClassTable :=
  let integers : Ty := .declared .comparable [ClassId.integer.ty]
  base
    |>.addTypeVar ⟨"T", []⟩
    |>.addClass ⟨"Range", .classKind, [⟨11⟩], some ClassId.object.ty,
      [.declared .comparable [.declared .list [.var ⟨11⟩]]]⟩
    |>.addClass ⟨"Count", .classKind, [], some ClassId.object.ty,
      [.declared .comparable [.primitive .int]]⟩
    |>.addTypeVar ⟨"U", []⟩
    |>.addClass ⟨"Box", .classKind, [⟨12⟩], some ClassId.integer.ty, [integers]⟩
    |>.addTypeVar ⟨"V", [.declared ⟨25⟩ []]⟩
    |>.addClass ⟨"Held", .classKind, [], some ClassId.object.ty,
      [.declared .comparable [.var ⟨13⟩]]⟩

theorem oddities_wellDeclared : oddities.WellDeclared where
  extends_base := .addClass _ (.addTypeVar _ (.addClass _ (.addTypeVar _ (.addClass _
    (.addClass _ (.addTypeVar _ .refl))))))
  ordered := forall_class? (by decide)
  applied := forall_class? (by decide)
  rooted := forall_class? (by decide)
  coherent := coherent_of_closures (n := 24) (by decide)

/-- Two steps lead from `a` to `b` and to `c`, but none leads from `a` to `c`. -/
structure Breaks (s : ClassTable) (a b c : Ty) : Prop where
  left : s.Saturated a
  middle : s.Saturated b
  right : s.Saturated c
  below : s.IsSubtype a b
  above : s.IsSubtype b c
  apart : ¬ s.IsSubtype a c

theorem Breaks.of_answers {a b c : Ty} (ha : s.Saturated a) (hb : s.Saturated b)
    (hc : s.Saturated c) (hab : s.subtype? n a b = some true) (hbc : s.subtype? n b c = some true)
    (hac : s.subtype? n a c = some false) : s.Breaks a b c :=
  ⟨ha, hb, hc, SubtypeWithin.isSubtype hab, SubtypeWithin.isSubtype hbc, not_isSubtype hac⟩

/-- **Subtyping need not be transitive.** It is not where a wildcard gets below an argument, for
there it stands for itself only: `Range<Integer>`, `Range<? extends Number>` and
`Comparable<List<? extends Number>>`. Nor is it where an argument above a class is primitive, or a
variable that the class does not declare. -/
theorem not_isSubtype_trans :
    oddities.WellDeclared ∧
      oddities.Breaks (.declared ⟨23⟩ [ClassId.integer.ty])
        (.declared ⟨23⟩ [.wildcard (some ClassId.number.ty) none])
        (.declared .comparable [.declared .list [.wildcard (some ClassId.number.ty) none]]) ∧
      oddities.Breaks (.declared ⟨24⟩ []) (.declared .comparable [.wildcard none none])
        (.declared .comparable [.wildcard (some ClassId.object.ty) none]) ∧
      oddities.Breaks (.declared ⟨26⟩ [])
        (.declared .comparable [.wildcard (some ClassId.integer.ty) none])
        (.declared .comparable
          [.wildcard (some (.declared .comparable [ClassId.integer.ty])) none]) := by
  have hnumber : oddities.Saturated ClassId.number.ty := .of_fullyApplied (by decide) rfl
  have hlist : oddities.Saturated (.declared .list [.wildcard (some ClassId.number.ty) none]) :=
    saturated_upper ⟨_, rfl, rfl⟩ hnumber rfl
  have hany : oddities.Saturated (.declared .comparable [.wildcard none none]) :=
    .declared ⟨_, rfl, rfl⟩
      (by simpa using .wildcard (by simp) (by simp) (by simp) (by simp)) (by simp [Ty.isReference])
  refine ⟨oddities_wellDeclared, ?_, ?_, ?_⟩
  · exact .of_answers (.of_fullyApplied (by decide) rfl)
      (saturated_upper ⟨_, rfl, rfl⟩ hnumber rfl)
      (.declared ⟨_, rfl, rfl⟩ (by simpa using hlist) (by simp [Ty.isReference]))
      (by decide : oddities.subtype? 8 _ _ = some true) (by decide) (by decide)
  · exact .of_answers (.of_fullyApplied (by decide) rfl) hany
      (saturated_upper ⟨_, rfl, rfl⟩ (.of_fullyApplied (by decide) rfl) rfl)
      (by decide : oddities.subtype? 8 _ _ = some true) (by decide) (by decide)
  · exact .of_answers (.of_fullyApplied (by decide) rfl)
      (saturated_upper ⟨_, rfl, rfl⟩ (.of_fullyApplied (by decide) rfl) rfl)
      (saturated_upper ⟨_, rfl, rfl⟩ (.of_fullyApplied (by decide) rfl) rfl)
      (by decide : oddities.subtype? 8 _ _ = some true) (by decide) (by decide)

end Wiring.ClassTable
