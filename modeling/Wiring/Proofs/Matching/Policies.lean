import Wiring.Proofs.Hierarchy.Base
import Wiring.Proofs.Matching.Ground
/-!
# The two policies

The policies part ways in three places: where a box meets a primitive, and where a variable meets
another argument on one side or the other. The first is reached only at the top: below it, types are
compared as types of their own only if one of them has arguments, and such a type is not at once the
box of a primitive and of the primitive's raw form (`PlainBoxes`). So without variables the policies
agree unless one of the two types is primitive. Where a box has arguments they need not
(`event_ne_injection`). A variable in the offered type makes the event policy refuse what the
injection policy may accept, so where the required type has none, events match no more than
injections do.
-/

namespace Wiring

/-- The wrapper of a primitive is a class without arguments: no type with arguments is both the same
as the wrapper and, once raw, the same as the primitive. Nothing but this is asked of a type system,
and a type system that gave both answers would tell the policies apart below the top. -/
def TypeSystem.PlainBoxes (sys : TypeSystem) : Prop :=
  ∀ p c a args, sys.identical (sys.boxed p) (.declared c (a :: args)) = true →
    ¬(sys.sameRawForm (.primitive p) (.declared c (a :: args)) = true ∨
      sys.sameRawForm (.declared c (a :: args)) (.primitive p) = true)

theorem ClassTable.plainBoxes (s : ClassTable) (fuel : Nat) : (s.system fuel).PlainBoxes := by
  intro p c a args h
  cases (s.identical_iff fuel _ _).1 h

namespace Policy

variable {sys : TypeSystem} {receiver payload : Ty} {rs ps : List Ty}

/-! ## Argument by argument -/

section Arguments

variable {policy other : Policy}

/-- Where every argument that one policy accepts is accepted by the other, so are the lists. -/
theorem argumentsAccept_mono
    (h : ∀ r ∈ rs, ∀ p ∈ ps,
      policy.argumentAccepts sys r p (fun _ => policy.accepts sys r p) = .ok true →
        other.argumentAccepts sys r p (fun _ => other.accepts sys r p) = .ok true)
    (hall : policy.argumentsAccept sys rs ps = .ok true) :
    other.argumentsAccept sys rs ps = .ok true := by
  induction rs generalizing ps with
  | nil => simp [argumentsAccept]
  | cons r rs ih =>
    cases ps with
    | nil => simp [argumentsAccept]
    | cons p ps =>
      rw [argumentsAccept_cons, bind_eq_ok] at hall
      obtain ⟨fits, hfits, hall⟩ := hall
      cases fits with
      | false => cases hall
      | true =>
        rw [argumentsAccept_cons, h r (by simp) p (by simp) hfits]
        exact ih (fun r hr p hp => h r (by simp [hr]) p (by simp [hp])) hall

/-- The policies are consulted at variables only. -/
theorem argumentAccepts_congr {asTypes asTypes' : Unit → Except TypeError Bool}
    (hr : receiver.vars = []) (hp : payload.vars = [])
    (h : sys.sameRawForm receiver payload = true →
      (receiver.yieldsRaw || payload.yieldsRaw) = true → asTypes () = asTypes' ()) :
    policy.argumentAccepts sys receiver payload asTypes =
      other.argumentAccepts sys receiver payload asTypes' := by
  by_cases hconcrete : receiver.isConcrete = true
  · have hvar := Ty.kind_ne_of_vars_eq_nil hp
    rw [argumentAccepts_of_isConcrete hconcrete hvar, argumentAccepts_of_isConcrete hconcrete hvar]
    by_cases hraw : sys.sameRawForm receiver payload = true
    · by_cases hyields : (receiver.yieldsRaw || payload.yieldsRaw) = true
      · rw [h hraw hyields]
      · simp [hyields]
    · simp [hraw]
  · cases receiver with
    | var v => cases hr
    | wildcard _ _ | intersection _ => rfl
    | _ => exact absurd rfl hconcrete

end Arguments

theorem acceptsArgs_congr {policy other : Policy}
    (h : policy.argumentsAccept sys rs ps = other.argumentsAccept sys rs ps) :
    policy.acceptsArgs sys rs ps = other.acceptsArgs sys rs ps := by
  unfold acceptsArgs
  split <;> simp [h]

theorem acceptsArgs_mono {policy other : Policy}
    (h : policy.argumentsAccept sys rs ps = .ok true → other.argumentsAccept sys rs ps = .ok true)
    (haccepts : policy.acceptsArgs sys rs ps = .ok true) :
    other.acceptsArgs sys rs ps = .ok true := by
  cases rs with
  | nil => cases ps <;> exact haccepts
  | cons r rs =>
    cases ps with
    | nil => exact haccepts
    | cons p ps =>
      simp only [acceptsArgs] at haccepts ⊢
      split at haccepts
      · rename_i hlen
        rw [if_pos hlen]
        exact h haccepts
      · cases haccepts

/-! ## Without variables -/

/-- Both or neither of two types are primitive, or they are compared below the top, where one of
them has arguments. -/
def Comparable (sys : TypeSystem) (receiver payload : Ty) : Prop :=
  receiver.isReference = payload.isReference ∨
    sys.sameRawForm receiver payload = true ∧ (receiver.yieldsRaw || payload.yieldsRaw) = true

/-- Among the arguments, no policy lets a box stand for its primitive. -/
theorem isBoxOf_eq_false (policy : Policy) (hb : sys.PlainBoxes) {p : Primitive} {c : ClassId}
    {args : List Ty} (hyields : (Ty.declared c args).yieldsRaw = true)
    (hraw : sys.sameRawForm (.primitive p) (.declared c args) = true ∨
      sys.sameRawForm (.declared c args) (.primitive p) = true) :
    policy.isBoxOf sys (.declared c args) p = false := by
  cases args with
  | nil => cases hyields
  | cons a args =>
    have hbox : sys.identical (sys.boxed p) (.declared c (a :: args)) = false :=
      Bool.eq_false_iff.2 fun hbox => hb p c a args hbox hraw
    rw [isBoxOf, hbox, Bool.and_false]

/-- Two comparable types are treated alike under both policies if their arguments are. -/
theorem accepts_congr_of_arguments {policy other : Policy} (hb : sys.PlainBoxes)
    (h : Comparable sys receiver payload)
    (hargs : ∀ c d rs ps, receiver = .declared c rs → payload = .declared d ps →
      policy.argumentsAccept sys rs ps = other.argumentsAccept sys rs ps) :
    policy.accepts sys receiver payload = other.accepts sys receiver payload := by
  have hshape : policy.acceptsShape sys receiver payload =
      other.acceptsShape sys receiver payload := by
    cases receiver with
    | primitive p =>
      cases payload with
      | declared d ps =>
        obtain h | ⟨hraw, hyields⟩ := h
        · cases h
        · simp only [acceptsShape, isBoxOf_eq_false _ hb hyields (.inl hraw)]
      | _ => rfl
    | declared c rs =>
      cases payload with
      | primitive p =>
        obtain h | ⟨hraw, hyields⟩ := h
        · cases h
        · rw [Bool.or_comm] at hyields
          simp only [acceptsShape, isBoxOf_eq_false _ hb hyields (.inr hraw)]
      | declared d ps => simp only [acceptsShape, acceptsArgs_congr (hargs c d rs ps rfl rfl)]
      | _ => rfl
    | _ => cases payload <;> rfl
  rw [accepts_eq, accepts_eq, hshape]

/-- Without variables, comparable types are treated alike at every depth. -/
theorem accepts_congr (policy other : Policy) (hb : sys.PlainBoxes) (hr : receiver.vars = [])
    (hp : payload.vars = []) (h : Comparable sys receiver payload) :
    policy.accepts sys receiver payload = other.accepts sys receiver payload := by
  induction receiver generalizing payload with
  | declared c rs ih =>
    apply accepts_congr_of_arguments hb h
    rintro _ d _ ps ⟨⟩ rfl
    apply argumentsAccept_congr
    intro r hrm p hpm
    have hr := Ty.vars_eq_nil_of_mem hr hrm
    have hp := Ty.vars_eq_nil_of_mem hp hpm
    exact argumentAccepts_congr hr hp fun hraw hyields => ih r hrm hr hp (.inr ⟨hraw, hyields⟩)
  | _ => exact accepts_congr_of_arguments hb h (by simp)

/-! ## From events to injections -/

/-- A variable in the offered type makes the event policy refuse. -/
theorem argumentAccepts_injection {asTypes asTypes' : Unit → Except TypeError Bool}
    (hr : receiver.vars = []) (h : asTypes () = .ok true → asTypes' () = .ok true)
    (haccepts : Policy.event.argumentAccepts sys receiver payload asTypes = .ok true) :
    Policy.injection.argumentAccepts sys receiver payload asTypes' = .ok true := by
  by_cases hconcrete : receiver.isConcrete = true
  · have hvar : payload.kind ≠ .typeVariable := by
      intro hkind
      cases payload with
      | var v =>
        cases receiver with
        | var _ | wildcard _ _ | intersection _ => cases hconcrete
        | _ => cases haccepts
      | _ => cases hkind
    rw [argumentAccepts_of_isConcrete hconcrete hvar] at haccepts ⊢
    split at haccepts
    · rename_i hraw
      rw [if_pos hraw]
      split at haccepts
      · rename_i hyields
        rw [if_pos hyields]
        exact h haccepts
      · rename_i hyields
        rw [if_neg hyields]
    · cases haccepts
  · cases receiver with
    | var v => cases hr
    | wildcard _ _ | intersection _ => exact haccepts
    | _ => exact absurd rfl hconcrete

theorem event_isBoxOf (t : Ty) (p : Primitive) : Policy.event.isBoxOf sys t p = false := rfl

/-- What answers by its shape as an event does so as an injection, if its arguments do. -/
theorem acceptsShape_injection
    (hargs : ∀ c d rs ps, receiver = .declared c rs → payload = .declared d ps →
      Policy.event.argumentsAccept sys rs ps = .ok true →
        Policy.injection.argumentsAccept sys rs ps = .ok true)
    (h : Policy.event.acceptsShape sys receiver payload = .ok true) :
    Policy.injection.acceptsShape sys receiver payload = .ok true := by
  cases receiver with
  | primitive p =>
    cases payload with
    | declared d ps => simp [acceptsShape, event_isBoxOf] at h
    | _ => exact h
  | array r => cases payload <;> exact h
  | declared c rs =>
    cases payload with
    | primitive p => simp [acceptsShape, event_isBoxOf] at h
    | declared d ps =>
      simp only [acceptsShape] at h ⊢
      split at h
      · rename_i hsame
        rw [if_pos hsame]
      · rename_i hsame
        split at h
        · cases h
        · rename_i hraw
          rw [if_neg hsame, if_neg hraw]
          exact acceptsArgs_mono (hargs c d rs ps rfl rfl) h
    | _ => exact h
  | _ => exact h

/-- What answers as an event does so as an injection, if its arguments do. -/
theorem accepts_injection_of_arguments
    (hargs : ∀ c d rs ps, receiver = .declared c rs → payload = .declared d ps →
      Policy.event.argumentsAccept sys rs ps = .ok true →
        Policy.injection.argumentsAccept sys rs ps = .ok true)
    (h : Policy.event.accepts sys receiver payload = .ok true) :
    Policy.injection.accepts sys receiver payload = .ok true := by
  obtain ⟨hr, hp, rfl | ⟨hoffered, hshape⟩⟩ := accepts_eq_true h
  · exact accepts_self hr
  · by_cases heq : receiver = payload
    · rw [← heq]
      exact accepts_self hr
    · rw [accepts_of_ne hr hp hoffered heq]
      exact acceptsShape_injection hargs hshape

/-- Where the required type has no variables, an offer that answers it as an event answers it as an
injection. -/
theorem accepts_injection (hr : receiver.vars = [])
    (h : Policy.event.accepts sys receiver payload = .ok true) :
    Policy.injection.accepts sys receiver payload = .ok true := by
  induction receiver generalizing payload with
  | declared c rs ih =>
    refine accepts_injection_of_arguments ?_ h
    rintro _ d _ ps ⟨⟩ rfl
    apply argumentsAccept_mono
    intro r hrm p _
    have hr := Ty.vars_eq_nil_of_mem hr hrm
    exact argumentAccepts_injection hr (ih r hrm hr)
  | _ => exact accepts_injection_of_arguments (by simp) h

/-- **The two policies agree on types without variables, unless exactly one of the two is primitive;
and where the required type has none, what answers it as an event answers it as an injection.** -/
theorem event_injection (sys : TypeSystem) (receiver payload : Ty) (hr : receiver.vars = []) :
    (sys.PlainBoxes → payload.vars = [] → receiver.isReference = payload.isReference →
      Policy.event.accepts sys receiver payload = Policy.injection.accepts sys receiver payload) ∧
    (Policy.event.accepts sys receiver payload = .ok true →
      Policy.injection.accepts sys receiver payload = .ok true) :=
  ⟨fun hb hp h => accepts_congr _ _ hb hr hp (.inl h), accepts_injection hr⟩

/-- `Set<List<? extends Number>>` accepts `Set<List<Integer>>` under both policies. -/
theorem event_injection_set :
    let r : Ty := .declared .set [.declared .list [.wildcard (some ClassId.number.ty) none]]
    let p : Ty := .declared .set [.declared .list [ClassId.integer.ty]]
    let sys := ClassTable.base.system 8
    r.vars = [] ∧ p.vars = [] ∧ r.isReference = p.isReference ∧
      Policy.event.accepts sys r p = .ok true ∧
      Policy.injection.accepts sys r p = .ok true ∧
      Policy.event.accepts sys r p = Policy.injection.accepts sys r p := by
  intro r p sys
  have hr : r.vars = [] := rfl
  have h : Policy.event.accepts sys r p = .ok true := by decide +kernel
  obtain ⟨hsame, hmono⟩ := event_injection sys r p hr
  exact ⟨hr, rfl, rfl, h, hmono h, hsame (ClassTable.base.plainBoxes 8) rfl rfl⟩

end Policy

/-- `int` is boxed as `C<D>`, for some classes `C` and `D`, and is the same type as the raw `C`. -/
def TypeSystem.boxedWithArguments : TypeSystem :=
  let same : List Ty := [.primitive .int, .declared ⟨100⟩ []]
  { ClassTable.base.system 8 with
    boxed := fun _ => .declared ⟨100⟩ [.declared ⟨101⟩ []]
    sameType := fun t u => t == u || same.contains t && same.contains u }

/-- **Where a box has arguments, the policies may part below the top**: `E<int>` accepts `E<C<D>>`
as an injection but not as an event, since `C<D>` is the box of `int` and the raw `C` is `int`
itself. -/
theorem Policy.event_ne_injection :
    let sys := TypeSystem.boxedWithArguments
    let r : Ty := .declared ⟨200⟩ [.primitive .int]
    let p : Ty := .declared ⟨200⟩ [sys.boxed .int]
    r.vars = [] ∧ p.vars = [] ∧ r.isReference = true ∧ p.isReference = true ∧
      Policy.event.accepts sys r p = .ok false ∧ Policy.injection.accepts sys r p = .ok true := by
  decide +kernel

end Wiring
