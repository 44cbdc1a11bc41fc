import Wiring.ClassTable.System
import Wiring.Proofs.Matching.Faults
import Wiring.Proofs.Resolver.Transparency
/-!
# What an answer may fail with

Candidates are checked when they are built, and requests when they are made. After that nothing
that is offered is at fault any more: selecting, reducing and resolving fail because a request is
unsatisfied or ambiguous, because of a fault of bounds, or because the required type has an
intersection for a type argument (`failsOnly_of_session`).
-/

namespace Wiring

/-- The errors that are left once candidates and requests have passed their checks. -/
def ResolutionError.Expected (request : Request) : ResolutionError → Prop
  | .type fault => fault.Expected request.required
  | .unsatisfied r | .ambiguous r _ => r = request
  | .illegalRequiredType _ | .invalidCandidate .. => False

namespace Request

variable {sys : TypeSystem}

theorem typesMatch_failsOnly (r : Request) {ts : List Ty}
    (h : ∀ t ∈ ts, t.checkOffered = .ok ()) :
    FailsOnly (TypeError.Expected r.required) (r.typesMatch sys ts) := by
  induction ts with
  | nil => exact .ok false
  | cons t ts ih =>
    exact (Policy.accepts_failsOnly r.policy sys r.concrete (h t (by simp))).bind fun _ _ =>
      (ih fun t ht => h t (by simp [ht])).bind fun _ _ => .ok _

theorem selects_failsOnly (r : Request) (c : Candidate) :
    FailsOnly (TypeError.Expected r.required) (r.selects sys c.types c.annotations) :=
  (r.typesMatch_failsOnly c.legal).bind fun _ _ => .ok _

end Request

namespace Pool

variable (pool : Pool) (sys : TypeSystem) (request : Request)

theorem selectFrom_failsOnly (cs : List Candidate) :
    FailsOnly (ResolutionError.Expected request) (selectFrom sys request cs) := by
  induction cs with
  | nil => exact .ok []
  | cons c cs ih =>
    unfold selectFrom
    cases hc : request.selects sys c.types c.annotations with
    | error fault => exact .error (request.selects_failsOnly c fault hc)
    | ok selected => exact ih.bind fun _ _ => .ok _

theorem select_failsOnly :
    FailsOnly (ResolutionError.Expected request) (pool.select sys request) :=
  selectFrom_failsOnly sys request pool.candidates

theorem refuse_failsOnly (cs : List Candidate) :
    FailsOnly (ResolutionError.Expected request) (TieRule.refuse request cs) := by
  cases cs with
  | nil => exact .error rfl
  | cons c cs => exact .error rfl

theorem reduce_failsOnly :
    FailsOnly (ResolutionError.Expected request) (pool.reduce sys .refuse request) := by
  refine (pool.select_failsOnly sys request).bind fun cs _ => ?_
  cases Reduction.ofList cs with
  | empty => exact .ok none
  | resolved c => exact .ok (some c)
  | unresolved tied => exact refuse_failsOnly request tied

theorem resolve_failsOnly :
    FailsOnly (ResolutionError.Expected request) (pool.resolve sys .refuse request) := by
  unfold resolve
  cases hr : pool.reduce sys .refuse request with
  | error e => exact .error (pool.reduce_failsOnly sys request e hr)
  | ok winner =>
    cases winner with
    | none => exact .error rfl
    | some c => exact .ok c

end Pool

namespace Resolver

variable {sys : TypeSystem} {pool : Pool} {rule : TieRule}

/-- Calls that leave the rule for ties in place keep a resolver transparent. -/
theorem transparent_run {calls : List Call} (hrule : ∀ c ∈ calls, c.ruleAfter rule = rule)
    {s : Session} (h : s.resolver.Transparent sys pool rule) :
    (s.run calls).2.resolver.Transparent sys pool rule := by
  induction calls generalizing s with
  | nil => exact h
  | cons c calls ih =>
    have hcall := (call_answer h c).2
    rw [hrule c (by simp)] at hcall
    exact ih (fun c hc => hrule c (by simp [hc])) hcall

/-- **Nothing offered is at fault after construction.** In any type system, and at any time in a
session in which ties are refused, the three ways to ask a resolver fail in the expected ways
only. -/
theorem failsOnly_of_session (sys : TypeSystem) (pool : Pool) (settings : ResolutionSettings)
    (calls : List Call) (hrule : ∀ c ∈ calls, c.ruleAfter .refuse = .refuse) (request : Request) :
    let r := ((Session.start (new sys pool settings .refuse)).run calls).2.resolver
    FailsOnly (ResolutionError.Expected request) (r.select request).1 ∧
      FailsOnly (ResolutionError.Expected request) (r.reduce request).1 ∧
      FailsOnly (ResolutionError.Expected request) (r.resolve request).1 := by
  have h := transparent_run hrule (s := .start (new sys pool settings .refuse))
    (transparent_new sys pool settings .refuse)
  refine ⟨?_, ?_, ?_⟩
  · rw [(select_answer h request).1]
    exact pool.select_failsOnly sys request
  · rw [(reduce_answer h request).1]
    exact pool.reduce_failsOnly sys request
  · rw [(resolve_answer h request).1]
    exact pool.resolve_failsOnly sys request

/-- A candidate that offers `List<Integer>`. -/
def listCandidate : Candidate where
  id := "numbers"
  types := [.declared .list [ClassId.integer.ty]]
  annotations := ∅
  alternate := false
  rank := 0
  offersSome := by simp
  distinct := by simp
  legal := fun t ht => by
    rw [List.mem_singleton.1 ht]
    rfl

/-- A request for `List<Number & Serializable>`. -/
def partsRequest : Request :=
  ⟨.injection, .declared .list [.intersection [ClassId.number.ty, ClassId.serializable.ty]], ∅, rfl⟩

/-- The intersection is met, also after other calls, and stands among the arguments. -/
theorem failsOnly_of_session_parts :
    (∀ c ∈ [Call.reduce partsRequest, .clear], c.ruleAfter .refuse = .refuse) ∧
      (((Session.start (new (ClassTable.base.system 4) (Pool.ofList [listCandidate]) .default
        .refuse)).run [.reduce partsRequest, .clear]).2.resolver.resolve partsRequest).1 =
          .error (.type (.illegalKind .receiver .intersection)) ∧
      partsRequest.required.HasIntersectionArg := by
  have hrule : ∀ c ∈ [Call.reduce partsRequest, .clear], c.ruleAfter .refuse = .refuse := by
    simp [Call.ruleAfter]
  have hfault : (((Session.start (new (ClassTable.base.system 4) (Pool.ofList [listCandidate])
      .default .refuse)).run [.reduce partsRequest, .clear]).2.resolver.resolve partsRequest).1 =
        .error (.type (.illegalKind .receiver .intersection)) := by
    have hpool : (Pool.ofList [listCandidate]).candidates = [listCandidate] := by
      simp [Pool.ofList, Pool.firstById]
    rw [(resolve_answer (transparent_run hrule (transparent_new _ _ _ _)) partsRequest).1,
      Pool.resolve, Pool.reduce, Pool.select, hpool]
    rfl
  exact ⟨hrule, hfault, ((failsOnly_of_session (ClassTable.base.system 4)
    (Pool.ofList [listCandidate]) .default _ hrule partsRequest).2.2 _ hfault).2.2⟩

end Resolver

end Wiring
