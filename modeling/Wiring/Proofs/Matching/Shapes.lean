import Wiring.Matching
import Wiring.Proofs.Faults
/-!
# Matching, shape by shape

`Policy.accepts` first checks that both types are legal and then compares their shapes. Here the
comparison has a name (`Policy.acceptsShape`), and so has the part that looks at type arguments
(`Policy.acceptsArgs`); `accepts_eq` puts the pieces together again.
-/

namespace Wiring

theorem requireConcrete_eq_ok {role : Role} {t : Ty} {u : Unit} :
    requireConcrete role t = .ok u ↔ t.isConcrete = true := by
  simp [requireConcrete]

namespace Policy

variable (policy : Policy) (sys : TypeSystem)

/-- The type arguments of two declared types that are not the same: where one side has none, those
of the other must be unbounded. -/
def acceptsArgs (rs ps : List Ty) : Except TypeError Bool :=
  match rs, ps with
  | [], [] => .ok false
  | [], ps => ps.allM sys.isUnboundedOrTop
  | rs, [] => rs.allM sys.isUnboundedOrTop
  | rs, ps => if rs.length = ps.length then policy.argumentsAccept sys rs ps else .ok false

/-- Two legal types that are not equal, compared by their shapes. -/
def acceptsShape (receiver payload : Ty) : Except TypeError Bool :=
  match receiver, payload with
  | .primitive p, .declared .. => .ok (policy.isBoxOf sys payload p)
  | .declared .., .primitive p => .ok (policy.isBoxOf sys receiver p)
  | .array _, .array _ => .ok (sys.identical receiver.element payload.element)
  | .declared _ rs, .declared _ ps =>
    if sys.identical receiver payload then .ok true
    else if !sys.sameRawForm receiver payload then .ok false
    else policy.acceptsArgs sys rs ps
  | _, _ => .ok false

theorem accepts_eq (receiver payload : Ty) :
    policy.accepts sys receiver payload =
      (do
        requireConcrete .receiver receiver
        requireConcrete .payload payload
        if receiver = payload then .ok true
        else do
          payload.checkOfferedArgs
          policy.acceptsShape sys receiver payload) := by
  unfold accepts
  by_cases h : receiver = payload
  · simp only [h, BEq.rfl, if_true]
    rfl
  · have hb : (receiver == payload) = false := by simpa using h
    rw [hb, if_neg h]
    cases receiver <;> cases payload <;> rfl

variable {policy sys} {receiver payload : Ty}

theorem accepts_self (h : receiver.isConcrete = true) :
    policy.accepts sys receiver receiver = .ok true := by
  simp [accepts_eq, requireConcrete, h, bind, Except.bind]

/-- Two different types are compared by shape once they are known to be legal. -/
theorem accepts_of_ne (hr : receiver.isConcrete = true) (hp : payload.isConcrete = true)
    (hargs : payload.checkOfferedArgs = .ok ()) (hne : receiver ≠ payload) :
    policy.accepts sys receiver payload = policy.acceptsShape sys receiver payload := by
  simp [accepts_eq, requireConcrete, hr, hp, hne, hargs, bind, Except.bind]

/-- A match has passed the legality checks and is one by equality or by shape. -/
theorem accepts_eq_true (h : policy.accepts sys receiver payload = .ok true) :
    receiver.isConcrete = true ∧ payload.isConcrete = true ∧
      (receiver = payload ∨
        payload.checkOfferedArgs = .ok () ∧
          policy.acceptsShape sys receiver payload = .ok true) := by
  rw [accepts_eq, bind_eq_ok] at h
  obtain ⟨_, hr, h⟩ := h
  obtain ⟨_, hp, h⟩ := bind_eq_ok.1 h
  refine ⟨requireConcrete_eq_ok.1 hr, requireConcrete_eq_ok.1 hp, ?_⟩
  by_cases he : receiver = payload
  · exact Or.inl he
  · rw [if_neg he, bind_eq_ok] at h
    obtain ⟨_, ha, hs⟩ := h
    exact Or.inr ⟨ha, hs⟩

theorem argumentsAccept_cons (sys : TypeSystem) (r p : Ty) (rs ps : List Ty) :
    policy.argumentsAccept sys (r :: rs) (p :: ps) =
      (policy.argumentAccepts sys r p (fun _ => policy.accepts sys r p) >>= fun fits =>
        if fits then policy.argumentsAccept sys rs ps else .ok false) := by
  rw [argumentsAccept]
  rfl

/-- Lists are compared alike if their members are, whatever the policies and the type systems. -/
theorem argumentsAccept_congr {other : Policy} {sys' : TypeSystem} {rs ps : List Ty}
    (h : ∀ r ∈ rs, ∀ p ∈ ps,
      policy.argumentAccepts sys r p (fun _ => policy.accepts sys r p) =
        other.argumentAccepts sys' r p (fun _ => other.accepts sys' r p)) :
    policy.argumentsAccept sys rs ps = other.argumentsAccept sys' rs ps := by
  induction rs generalizing ps with
  | nil => simp [argumentsAccept]
  | cons r rs ih =>
    cases ps with
    | nil => simp [argumentsAccept]
    | cons p ps =>
      have hrest : policy.argumentsAccept sys rs ps = other.argumentsAccept sys' rs ps :=
        ih fun r hr p hp => h r (by simp [hr]) p (by simp [hp])
      rw [argumentsAccept_cons, argumentsAccept_cons, h r (by simp) p (by simp), hrest]

/-- A concrete argument is first compared with another without their own arguments, unless that is a
variable. -/
theorem argumentAccepts_of_isConcrete (hr : receiver.isConcrete = true)
    (hp : payload.kind ≠ .typeVariable) (asTypes : Unit → Except TypeError Bool) :
    policy.argumentAccepts sys receiver payload asTypes =
      if sys.sameRawForm receiver payload then
        if receiver.yieldsRaw || payload.yieldsRaw then asTypes () else .ok true
      else .ok false := by
  cases receiver with
  | var _ | wildcard _ _ | intersection _ => cases hr
  | _ =>
    cases payload with
    | var _ => exact absurd rfl hp
    | _ => rfl

theorem isBoxOf_eq_true {t : Ty} {p : Primitive} (h : policy.isBoxOf sys t p = true) :
    policy = .injection ∧ sys.identical (sys.boxed p) t = true := by
  simpa [isBoxOf] using h

end Policy

end Wiring
