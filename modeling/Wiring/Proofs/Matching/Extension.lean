import Wiring.Proofs.Hierarchy.Base
import Wiring.Proofs.Matching.Shapes
import Wiring.Proofs.Subtyping.Extension
/-!
# Further declarations and matching

Matching asks a type system about the two types, about what they are built from and about the
concrete bounds of these. Two type systems that answer alike there match alike (`AlikeOn.accepts_eq`),
and a class table and the same table with further declarations do (`SelfContained.alikeOn`). So all
that was ever answered about declared types is answered the same after any number of further
declarations (`SelfContained.answers_eq`).
-/

namespace Wiring

namespace TypeSystem

/-- The type systems give the same answers about the types of `P`, to which belongs what these are
built from and what they unfold to. -/
structure AlikeOn (P : Ty → Prop) (sys sys' : TypeSystem) : Prop where
  children : ∀ t, P t → ∀ u ∈ t.children, P u
  bounds : ∀ t bounds, P t → sys.concreteBounds t = .ok bounds → ∀ b ∈ bounds, P b
  top : sys'.top = sys.top
  boxed : sys'.boxed = sys.boxed
  sameType : sys'.sameType = sys.sameType
  arrayOf : sys'.arrayOf = sys.arrayOf
  erasure : ∀ t, P t → sys'.erasure t = sys.erasure t
  concreteBounds : ∀ t, P t → sys'.concreteBounds t = sys.concreteBounds t
  isAssignable : ∀ t u, P t → P u → sys'.isAssignable t u = sys.isAssignable t u

namespace AlikeOn

variable {P : Ty → Prop} {sys sys' : TypeSystem} (h : AlikeOn P sys sys') {t u : Ty}
  {ts us : List Ty}

include h

theorem identical_eq (t u : Ty) : sys'.identical t u = sys.identical t u := by
  rw [identical, identical, h.sameType]

theorem isTop_eq (t : Ty) : sys'.isTop t = sys.isTop t := by
  rw [isTop, isTop, h.identical_eq, h.top]

theorem rawForm?_eq (ht : P t) : sys'.rawForm? t = sys.rawForm? t := by
  induction t with
  | array t ih =>
    rw [rawForm?, rawForm?, ih (h.children _ ht t (by simp [Ty.children])), h.arrayOf]
  | _ => simp only [rawForm?, h.erasure _ ht]

theorem sameRawForm_eq (ht : P t) (hu : P u) : sys'.sameRawForm t u = sys.sameRawForm t u := by
  rw [sameRawForm, sameRawForm, rawOrSelf, rawOrSelf, rawOrSelf, rawOrSelf, h.rawForm?_eq ht,
    h.rawForm?_eq hu, h.identical_eq]

theorem isUnboundedOrTop_eq (ht : P t) : sys'.isUnboundedOrTop t = sys.isUnboundedOrTop t :=
  isUnboundedOrTop_congr h.isTop_eq (h.concreteBounds t ht)

theorem concreteBoundsList_eq (hts : ∀ t ∈ ts, P t) :
    sys'.concreteBoundsList ts = sys.concreteBoundsList ts :=
  concreteBoundsList_congr fun t ht => h.concreteBounds t (hts t ht)

theorem mem_concreteBoundsList {bounds : List Ty} (hts : ∀ t ∈ ts, P t)
    (hbounds : sys.concreteBoundsList ts = .ok bounds) : ∀ b ∈ bounds, P b := by
  intro b hb
  obtain ⟨t, ht, own, hown, hb⟩ := (mem_concreteBoundsList_iff hbounds).1 hb
  exact h.bounds t own (hts t ht) hown b hb

theorem boundAssignable_eq (ht : P t) (hu : P u) :
    sys'.boundAssignable t u = sys.boundAssignable t u := by
  rw [boundAssignable, boundAssignable, h.isAssignable u t hu ht]

theorem boundsAssignable_eq (hts : ∀ t ∈ ts, P t) (hus : ∀ u ∈ us, P u) :
    sys'.boundsAssignable ts us = sys.boundsAssignable ts us := by
  rw [boundsAssignable, boundsAssignable, h.concreteBoundsList_eq hts, h.concreteBoundsList_eq hus]
  cases hts' : sys.concreteBoundsList ts with
  | error e => rfl
  | ok required =>
    cases hus' : sys.concreteBoundsList us with
    | error e => rfl
    | ok offered =>
      exact allM_congr fun r hr => anyM_congr fun p hp => h.boundAssignable_eq
        (h.mem_concreteBoundsList hts hts' r hr) (h.mem_concreteBoundsList hus hus' p hp)

theorem boundsAssignable_pair_eq (ht : P t) (hu : P u) :
    sys'.boundsAssignable [t] [u] = sys.boundsAssignable [t] [u] :=
  h.boundsAssignable_eq (by simpa using ht) (by simpa using hu)

end AlikeOn

end TypeSystem

namespace Policy

open TypeSystem

variable {P : Ty → Prop} {sys sys' : TypeSystem} (h : AlikeOn P sys sys') (policy : Policy)
  {receiver payload : Ty} {rs ps : List Ty}

include h

theorem wildcardAccepts_eq {upper lower : Option Ty} (hr : P (.wildcard upper lower))
    (hp : P payload) :
    wildcardAccepts sys' upper lower payload = wildcardAccepts sys upper lower payload := by
  cases upper with
  | none =>
    cases lower with
    | none => rfl
    | some l => exact h.boundsAssignable_pair_eq hp (h.children _ hr l (by simp [Ty.children]))
  | some u =>
    cases lower with
    | none =>
      have hu : P u := h.children _ hr u (by simp [Ty.children])
      simp only [wildcardAccepts, h.boundsAssignable_pair_eq hu hp,
        h.boundsAssignable_pair_eq hp hu]
    | some l => rfl

theorem argumentAccepts_eq (asTypes : Unit → Except TypeError Bool) (hr : P receiver)
    (hp : P payload) : policy.argumentAccepts sys' receiver payload asTypes =
      policy.argumentAccepts sys receiver payload asTypes := by
  unfold argumentAccepts
  split
  · exact wildcardAccepts_eq h hr hp
  · rfl
  · exact h.boundsAssignable_pair_eq hr hp
  · split
    · rfl
    · exact h.boundsAssignable_pair_eq hr hp
  · split
    · exact h.boundsAssignable_pair_eq hp hr
    · rfl
  · rw [h.sameRawForm_eq hr hp]

theorem acceptsArgs_eq (hrs : ∀ r ∈ rs, P r) (hps : ∀ p ∈ ps, P p)
    (haccepts : ∀ r ∈ rs, ∀ p ∈ ps, policy.accepts sys' r p = policy.accepts sys r p) :
    policy.acceptsArgs sys' rs ps = policy.acceptsArgs sys rs ps := by
  have hlists : policy.argumentsAccept sys' rs ps = policy.argumentsAccept sys rs ps := by
    refine argumentsAccept_congr fun r hr p hp => ?_
    rw [haccepts r hr p hp, argumentAccepts_eq h policy _ (hrs r hr) (hps p hp)]
  unfold acceptsArgs
  split
  · rfl
  · exact allM_congr fun p hp => h.isUnboundedOrTop_eq (hps p hp)
  · exact allM_congr fun r hr => h.isUnboundedOrTop_eq (hrs r hr)
  · rw [hlists]

theorem accepts_eq_of_args (hr : P receiver) (hp : P payload)
    (hargs : ∀ c d rs ps, receiver = .declared c rs → payload = .declared d ps →
      policy.acceptsArgs sys' rs ps = policy.acceptsArgs sys rs ps) :
    policy.accepts sys' receiver payload = policy.accepts sys receiver payload := by
  have hshape : policy.acceptsShape sys' receiver payload =
      policy.acceptsShape sys receiver payload := by
    unfold acceptsShape
    split
    · rw [isBoxOf, isBoxOf, h.boxed, h.identical_eq]
    · rw [isBoxOf, isBoxOf, h.boxed, h.identical_eq]
    · rw [h.identical_eq]
    · rw [h.identical_eq, h.sameRawForm_eq hr hp, hargs _ _ _ _ rfl rfl]
    · rfl
  rw [accepts_eq, accepts_eq, hshape]

/-- **Type systems that answer alike match alike.** -/
theorem accepts_eq_of_alikeOn (hr : P receiver) (hp : P payload) :
    policy.accepts sys' receiver payload = policy.accepts sys receiver payload := by
  -- on the required type: the rules come back to pairs of its arguments and the offered ones
  induction receiver generalizing payload with
  | declared c rs ih =>
    refine accepts_eq_of_args h policy hr hp ?_
    rintro _ d _ ps ⟨⟩ rfl
    have hrs : ∀ r ∈ rs, P r := h.children _ hr
    have hps : ∀ p ∈ ps, P p := h.children _ hp
    exact acceptsArgs_eq h policy hrs hps fun r hmem p hmem' =>
      ih r hmem (hrs r hmem) (hps p hmem')
  | _ => exact accepts_eq_of_args h policy hr hp (by simp)

end Policy

namespace ClassTable.SelfContained

variable {s s' : ClassTable} (hb : Extends base s) (hs : s.SelfContained) (hx : Extends s s')

include hb hs hx

/-- The questions about declared types get the same answers after further declarations. -/
theorem alikeOn (fuel : Nat) :
    TypeSystem.AlikeOn s.Declares (s.system fuel) (s'.system fuel) where
  children _ ht := (declares_iff.1 ht).2
  bounds _ _ ht h := declares_of_concreteBounds hb hs ht h
  top := rfl
  boxed := rfl
  sameType := rfl
  arrayOf := rfl
  erasure _ ht := erasure_eq hs hx ht
  concreteBounds _ ht := concreteBounds_eq hb hs hx ht
  isAssignable _ _ ht hu :=
    congrArg (Option.getD · false) (assignable?_eq hb hs hx fuel ht hu)

/-- **Declarations never change earlier answers.** Let every class and variable in the supertypes and
bounds of a table be declared, and let any declarations be added, under whatever names. Whatever was
asked before about types of declared classes and variables has the same answer now: subtyping,
assignability and closures within any number of steps, so that they also end where they ended before;
erasure, supertypes, concrete bounds, matching under both policies, and the names. -/
theorem answers_eq (fuel : Nat) (policy : Policy) {t u : Ty} {ts : List Ty} (ht : s.Declares t)
    (hu : s.Declares u) (hts : ∀ t ∈ ts, s.Declares t) :
    s'.subtype? fuel t u = s.subtype? fuel t u ∧
      s'.assignable? fuel t u = s.assignable? fuel t u ∧
      s'.erasure t = s.erasure t ∧
      s'.supertypes t = s.supertypes t ∧
      (s'.system fuel).closure? fuel t = (s.system fuel).closure? fuel t ∧
      (s'.system fuel).concreteBounds t = (s.system fuel).concreteBounds t ∧
      (s'.system fuel).concreteBoundsList ts = (s.system fuel).concreteBoundsList ts ∧
      policy.accepts (s'.system fuel) t u = policy.accepts (s.system fuel) t u ∧
      s'.nameOf t = s.nameOf t :=
  ⟨subtype?_eq hb hs hx fuel ht hu, assignable?_eq hb hs hx fuel ht hu, erasure_eq hs hx ht,
    supertypes_eq hs hx ht, closure?_eq hb hs hx fuel ht, concreteBounds_eq hb hs hx ht,
    (alikeOn hb hs hx fuel).concreteBoundsList_eq hts,
    Policy.accepts_eq_of_alikeOn (alikeOn hb hs hx fuel) policy ht hu, hx.nameOf_eq ht⟩

end ClassTable.SelfContained

namespace ClassTable

theorem base_selfContained : base.SelfContained where
  supers := forall_class? (by decide)
  bounds := forall_typeVar? (by decide)

/-- A variable and a class that takes over the name of another. -/
theorem SelfContained.answers_eq_renamed :
    let t : Ty := .declared .arrayList [ClassId.integer.ty]
    let u : Ty := .declared .list [.wildcard (some ClassId.number.ty) none]
    let s := (base.addTypeVar ⟨"N", [ClassId.number.ty]⟩).addClass
      ⟨"java.util.List", .interfaceKind, [⟨11⟩], none, []⟩
    base.SelfContained ∧ base.Extends s ∧ base.Declares t ∧ base.Declares u ∧
      base.classId? "java.util.List" = some .list ∧ s.classId? "java.util.List" = some ⟨23⟩ ∧
      s.nameOf u = base.nameOf u ∧
      Policy.injection.accepts (s.system 8) u t = Policy.injection.accepts (base.system 8) u t := by
  intro t u s
  have hx : base.Extends s := .addClass _ (.addTypeVar _ .refl)
  have ht : base.Declares t := by decide
  have hu : base.Declares u := by decide
  obtain ⟨-, -, -, -, -, -, -, haccepts, hname⟩ := base_selfContained.answers_eq .refl hx 8
    .injection hu ht (fun _ h => absurd h List.not_mem_nil)
  exact ⟨base_selfContained, hx, ht, hu, by decide, by decide, hname, haccepts⟩

end ClassTable

end Wiring
