import Wiring.ClassTable.System
import Wiring.Proofs.Matching.Shapes
import Wiring.Proofs.TypeSystem.Faults
/-!
# What matching may fail with

An offered type that has passed its check is never at fault when it is matched, at whatever depth
the rules come back to one of its arguments. On the side of the required type the one illegal kind
is an intersection, and it is met only where an intersection is a type argument
(`accepts_failsOnly`). An offered type that fails its check is refused with the fault found there,
before anything else is looked at (`accepts_blames_iff`).
-/

namespace Wiring

namespace Ty

/-- The type is a class type that has an intersection among its arguments, or such a type among
them. -/
inductive HasIntersectionArg : Ty → Prop where
  | here {c : ClassId} {args parts : List Ty} :
      .intersection parts ∈ args → HasIntersectionArg (.declared c args)
  | inside {c : ClassId} {args : List Ty} {t : Ty} :
      t ∈ args → HasIntersectionArg t → HasIntersectionArg (.declared c args)

theorem checkOfferedArgList_cons {t : Ty} {ts : List Ty}
    (h : checkOfferedArgList (t :: ts) = .ok ()) :
    (t.kind ≠ .wildcard ∧ t.kind ≠ .intersection ∧ t.checkOfferedArgs = .ok ()) ∧
      checkOfferedArgList ts = .ok () := by
  cases t with
  | wildcard _ _ => cases h
  | intersection _ => cases h
  | _ =>
    obtain ⟨_, hargs, hrest⟩ := bind_eq_ok.1 h
    exact ⟨⟨nofun, nofun, hargs⟩, hrest⟩

/-- A type that may be offered is concrete, and so are its arguments, but for variables. -/
theorem checkOffered_eq_ok {t : Ty} (h : t.checkOffered = .ok ()) :
    t.isConcrete = true ∧ t.checkOfferedArgs = .ok () := by
  obtain ⟨_, hconcrete, hargs⟩ := bind_eq_ok.1 h
  exact ⟨requireConcrete_eq_ok.1 hconcrete, hargs⟩

end Ty

/-- The faults that a checked offer leaves possible when `required` is asked for. -/
def TypeError.Expected (required : Ty) : TypeError → Prop
  | .illegalKind role kind =>
    role = .receiver ∧ kind = .intersection ∧ required.HasIntersectionArg
  | .wildcardPayloadArgument => False
  | .malformedWildcard | .malformedBound _ | .unknownTypeVariable _ | .cyclicBound _ => True

theorem TypeError.IsBoundFault.expected {required : Ty} {e : TypeError} (h : e.IsBoundFault) :
    e.Expected required := by
  cases e with
  | illegalKind _ _ => exact h.elim
  | wildcardPayloadArgument => exact h.elim
  | _ => trivial

/-- What is expected inside an argument is expected of the whole type. -/
theorem TypeError.Expected.of_mem {c : ClassId} {args : List Ty} {t : Ty} (ht : t ∈ args)
    {e : TypeError} (h : e.Expected t) : e.Expected (.declared c args) := by
  cases e with
  | illegalKind _ _ => exact ⟨h.1, h.2.1, .inside ht h.2.2⟩
  | wildcardPayloadArgument => exact h
  | _ => trivial

namespace Policy

variable {policy : Policy} {sys : TypeSystem} {P : TypeError → Prop} {receiver payload : Ty}
  {rs ps : List Ty}

theorem wildcardAccepts_failsOnly (upper lower : Option Ty) (payload : Ty) :
    FailsOnly TypeError.IsBoundFault (wildcardAccepts sys upper lower payload) := by
  unfold wildcardAccepts
  split
  · exact .error trivial
  · exact .ok true
  · exact sys.boundsAssignable_failsOnly _ _
  · refine (sys.boundsAssignable_failsOnly _ _).bind fun fits _ => ?_
    cases fits with
    | true => exact .ok true
    | false =>
      cases payload with
      | var _ => exact sys.boundsAssignable_failsOnly _ _
      | _ => exact .ok false

/-- An argument comparison fails with a fault of bounds, because the required argument is an
intersection, or as the comparison of two concrete types does. -/
theorem argumentAccepts_failsOnly {asTypes : Unit → Except TypeError Bool}
    (hbound : ∀ e : TypeError, e.IsBoundFault → P e)
    (hpart : ∀ parts, receiver = .intersection parts → P (.illegalKind .receiver .intersection))
    (hw : payload.kind ≠ .wildcard) (hi : payload.kind ≠ .intersection)
    (htypes : receiver.isConcrete = true → payload.isConcrete = true →
      FailsOnly P (asTypes ())) :
    FailsOnly P (policy.argumentAccepts sys receiver payload asTypes) := by
  have hassign (ts us : List Ty) : FailsOnly P (sys.boundsAssignable ts us) :=
    (sys.boundsAssignable_failsOnly ts us).mono hbound
  have hactual (hr : receiver.isConcrete = true) (hp : payload.isConcrete = true) :
      FailsOnly P (if sys.sameRawForm receiver payload then
        if receiver.yieldsRaw || payload.yieldsRaw then asTypes () else .ok true
      else .ok false) := by
    split
    · split
      · exact htypes hr hp
      · exact .ok true
    · exact .ok false
  cases receiver with
  | wildcard upper lower => exact (wildcardAccepts_failsOnly upper lower payload).mono hbound
  | intersection parts => exact .error (hpart parts rfl)
  | var v =>
    cases payload with
    | var w => exact hassign _ _
    | _ =>
      cases policy with
      | injection => exact .ok false
      | event => exact hassign _ _
  | _ =>
    cases payload with
    | var w =>
      cases policy with
      | injection => exact hassign _ _
      | event => exact .ok false
    | wildcard _ _ => exact absurd rfl hw
    | intersection _ => exact absurd rfl hi
    | _ => exact hactual rfl rfl

theorem argumentsAccept_failsOnly (hps : Ty.checkOfferedArgList ps = .ok ())
    (h : ∀ r ∈ rs, ∀ p ∈ ps, p.kind ≠ .wildcard → p.kind ≠ .intersection →
      p.checkOfferedArgs = .ok () →
      FailsOnly P (policy.argumentAccepts sys r p fun _ => policy.accepts sys r p)) :
    FailsOnly P (policy.argumentsAccept sys rs ps) := by
  induction rs generalizing ps with
  | nil => exact .ok true
  | cons r rs ih =>
    cases ps with
    | nil => exact .ok true
    | cons p ps =>
      obtain ⟨⟨hw, hi, hp⟩, hps⟩ := Ty.checkOfferedArgList_cons hps
      rw [argumentsAccept]
      refine (h r (by simp) p (by simp) hw hi hp).bind fun fits _ => ?_
      cases fits with
      | true => exact ih hps fun r hr p hp => h r (by simp [hr]) p (by simp [hp])
      | false => exact .ok false

theorem acceptsArgs_failsOnly (hbound : ∀ e : TypeError, e.IsBoundFault → P e)
    (h : FailsOnly P (policy.argumentsAccept sys rs ps)) :
    FailsOnly P (policy.acceptsArgs sys rs ps) := by
  have hfree (ts : List Ty) : FailsOnly P (ts.allM sys.isUnboundedOrTop) :=
    .allM fun t _ => (sys.isUnboundedOrTop_failsOnly t).mono hbound
  unfold acceptsArgs
  split
  · exact .ok false
  · exact hfree _
  · exact hfree _
  · split
    · exact h
    · exact .ok false

/-- Two types that may stand where they stand can fail to compare by their shapes only. -/
theorem accepts_failsOnly_of_shape (hr : receiver.isConcrete = true)
    (hp : payload.isConcrete = true) (hargs : payload.checkOfferedArgs = .ok ())
    (h : FailsOnly P (policy.acceptsShape sys receiver payload)) :
    FailsOnly P (policy.accepts sys receiver payload) := by
  by_cases hne : receiver = payload
  · subst hne
    rw [accepts_self hr]
    exact .ok true
  · rwa [accepts_of_ne hr hp hargs hne]

theorem accepts_failsOnly_of_legal (policy : Policy) (sys : TypeSystem)
    (hr : receiver.isConcrete = true) (hp : payload.isConcrete = true)
    (hargs : payload.checkOfferedArgs = .ok ()) :
    FailsOnly (TypeError.Expected receiver) (policy.accepts sys receiver payload) := by
  -- on the required type: each argument is compared with one that passed the same check
  induction receiver generalizing payload with
  | primitive p =>
    refine accepts_failsOnly_of_shape hr hp hargs ?_
    cases payload <;> exact .ok _
  | array t _ =>
    refine accepts_failsOnly_of_shape hr hp hargs ?_
    cases payload <;> exact .ok _
  | declared c rs ih =>
    refine accepts_failsOnly_of_shape hr hp hargs ?_
    cases payload with
    | declared d ps =>
      simp only [acceptsShape]
      split
      · exact .ok true
      · split
        · exact .ok false
        · refine acceptsArgs_failsOnly (fun e he => he.expected) ?_
          refine argumentsAccept_failsOnly hargs fun r hr p _ hw hi hp => ?_
          refine argumentAccepts_failsOnly (fun e he => he.expected) (fun parts hparts => ?_) hw hi
            fun hrc hpc => (ih r hr hrc hpc hp).mono fun e he => he.of_mem hr
          exact ⟨rfl, rfl, .here (hparts ▸ hr)⟩
    | _ => exact .ok _
  | var v => cases hr
  | wildcard upper lower _ _ => cases hr
  | intersection parts _ => cases hr

/-- **A checked offer is never at fault.** -/
theorem accepts_failsOnly (policy : Policy) (sys : TypeSystem) (hr : receiver.isConcrete = true)
    (hp : payload.checkOffered = .ok ()) :
    FailsOnly (TypeError.Expected receiver) (policy.accepts sys receiver payload) :=
  accepts_failsOnly_of_legal policy sys hr (Ty.checkOffered_eq_ok hp).1 (Ty.checkOffered_eq_ok hp).2

end Policy

/-! ## Faults of the offer -/

/-- The fault lies with the offered type. -/
def TypeError.BlamesPayload : TypeError → Prop
  | .illegalKind role _ => role = .payload
  | .wildcardPayloadArgument => True
  | .malformedWildcard | .malformedBound _ | .unknownTypeVariable _ | .cyclicBound _ => False

theorem TypeError.Expected.not_blamesPayload {required : Ty} {e : TypeError}
    (h : e.Expected required) : ¬ e.BlamesPayload := by
  intro hblame
  cases e with
  | illegalKind role kind =>
    have hpayload : role = .payload := hblame
    cases hpayload.symm.trans h.1
  | wildcardPayloadArgument => exact h
  | _ => exact hblame

namespace Ty

theorem checkOfferedArgList_failsOnly {ts : List Ty}
    (h : ∀ t ∈ ts, FailsOnly TypeError.BlamesPayload t.checkOfferedArgs) :
    FailsOnly TypeError.BlamesPayload (checkOfferedArgList ts) := by
  induction ts with
  | nil => exact .ok ()
  | cons t ts ih =>
    have hrest := ih fun u hu => h u (by simp [hu])
    cases t with
    | wildcard _ _ => exact .error trivial
    | intersection _ => exact .error rfl
    | _ => exact (h _ (by simp)).bind fun _ _ => hrest

/-- The check of an offer finds only faults of the offer. -/
theorem checkOfferedArgs_failsOnly (t : Ty) :
    FailsOnly TypeError.BlamesPayload t.checkOfferedArgs := by
  induction t with
  | array t ih => exact ih
  | declared c ts ih => exact checkOfferedArgList_failsOnly ih
  | _ => exact .ok ()

theorem checkOffered_of_isConcrete {t : Ty} (h : t.isConcrete = true) :
    t.checkOffered = t.checkOfferedArgs := by
  simp [checkOffered, requireConcrete, h, bind, Except.bind]

end Ty

namespace Policy

variable {receiver payload : Ty}

/-- **Matching blames the offer exactly where its check does**, and then with the same fault. -/
theorem accepts_blames_iff (policy : Policy) (sys : TypeSystem) (hr : receiver.isConcrete = true)
    (hp : payload.isConcrete = true) (hne : receiver ≠ payload) (e : TypeError) :
    (policy.accepts sys receiver payload = .error e ∧ e.BlamesPayload) ↔
      payload.checkOffered = .error e := by
  rw [Ty.checkOffered_of_isConcrete hp]
  cases hargs : payload.checkOfferedArgs with
  | error fault =>
    -- the arguments of the offer are looked at before the shapes are compared
    have haccepts : policy.accepts sys receiver payload = .error fault := by
      simp [accepts_eq, requireConcrete, hr, hp, hne, hargs, bind, Except.bind]
    have hblame : fault.BlamesPayload := Ty.checkOfferedArgs_failsOnly payload fault hargs
    rw [haccepts]
    constructor
    · rintro ⟨h, -⟩
      cases h
      rfl
    · intro h
      cases h
      exact ⟨rfl, hblame⟩
  | ok _ =>
    constructor
    · rintro ⟨herror, hblame⟩
      have hexpected := accepts_failsOnly_of_legal policy sys hr hp hargs e herror
      exact absurd hblame hexpected.not_blamesPayload
    · intro h
      cases h

/-- `Map<String, String>` and `Map<Integer, ?>`: the first arguments differ, but the second is at
fault. -/
theorem accepts_blames_map :
    let r : Ty := .declared .map [ClassId.string.ty, ClassId.string.ty]
    let p : Ty := .declared .map [ClassId.integer.ty, .wildcard none none]
    r.isConcrete = true ∧ p.isConcrete = true ∧ r ≠ p ∧
      p.checkOffered = .error .wildcardPayloadArgument ∧
      Policy.injection.accepts (ClassTable.base.system 0) r p = .error .wildcardPayloadArgument := by
  intro r p
  have hne : r ≠ p := by decide
  have hcheck : p.checkOffered = .error .wildcardPayloadArgument := rfl
  exact ⟨rfl, rfl, hne, hcheck,
    ((accepts_blames_iff .injection (ClassTable.base.system 0) rfl rfl hne _).2 hcheck).1⟩

end Policy

end Wiring
