import Wiring.Resolver.Session
import Wiring.Proofs.Memo.Agreement
/-!
# Remembering is transparent

A resolver answers every call of every session as if it remembered nothing
(`run_answers`), whichever memos it has, however full they are and whenever they are cleared.
The invariant is `Transparent`: each memo agrees with the pool's own answer to its requests.
-/

namespace Wiring

/-- The winner among the candidates of the pool that answer the request; that there is none is an
error. -/
def Pool.resolve (pool : Pool) (sys : TypeSystem) (rule : TieRule) (request : Request) :
    Except ResolutionError Candidate :=
  match pool.reduce sys rule request with
  | .error e => .error e
  | .ok none => .error (.unsatisfied request)
  | .ok (some c) => .ok c

namespace Resolver

/-- The resolver serves `pool` with these rules, and all it remembers is what it would find
again. -/
structure Transparent (sys : TypeSystem) (pool : Pool) (rule : TieRule) (r : Resolver) :
    Prop where
  sys_eq : r.sys = sys
  pool_eq : r.pool = pool
  rule_eq : r.rule = rule
  selections : ∀ m ∈ r.selections, m.Agrees (pool.select sys)
  reductions : ∀ m ∈ r.reductions, m.Agrees (pool.reduce sys rule)

variable {sys : TypeSystem} {pool : Pool} {rule : TieRule} {r : Resolver}

theorem transparent_new (sys : TypeSystem) (pool : Pool) (settings : ResolutionSettings)
    (rule : TieRule) : (new sys pool settings rule).Transparent sys pool rule :=
  ⟨rfl, rfl, rfl, fun _ hm => Memo.agrees_of_mem_new hm, fun _ hm => Memo.agrees_of_mem_new hm⟩

theorem transparent_withRule (h : r.Transparent sys pool rule) (rule' : TieRule) :
    (r.withRule rule').Transparent sys pool rule' := by
  unfold withRule
  rw [h.sys_eq, h.pool_eq]
  exact transparent_new sys pool r.settings rule'

theorem transparent_clear (h : r.Transparent sys pool rule) :
    r.clear.Transparent sys pool rule :=
  ⟨h.sys_eq, h.pool_eq, h.rule_eq, fun _ hm => Memo.agrees_of_mem_clear hm,
    fun _ hm => Memo.agrees_of_mem_clear hm⟩

/-! ## One request -/

/-- A selection leaves everything else alone. -/
theorem select_frame (r : Resolver) (request : Request) :
    (r.select request).2 = { r with selections := (r.select request).2.selections } := by
  unfold select
  cases r.selections <;> rfl

theorem select_agrees (h : ∀ m ∈ r.selections, m.Agrees (r.pool.select r.sys))
    (request : Request) :
    (r.select request).1 = r.pool.select r.sys request ∧
      ∀ m ∈ (r.select request).2.selections, m.Agrees (r.pool.select r.sys) := by
  unfold select
  cases hs : r.selections with
  | none => exact ⟨rfl, by simp [hs]⟩
  | some m =>
    obtain ⟨h1, h2, _⟩ := Memo.compute_agrees (P := fun _ : Unit => True) (t := ())
      (fun m _ => (r.pool.select r.sys request, m, ())) (h m hs) trivial
      (fun _ _ hm _ => ⟨rfl, hm, trivial⟩)
    refine ⟨h1, fun m' hm' => ?_⟩
    cases hm'
    exact h2

theorem select_answer (h : r.Transparent sys pool rule) (request : Request) :
    (r.select request).1 = pool.select sys request ∧
      (r.select request).2.Transparent sys pool rule := by
  have hagrees : ∀ m ∈ r.selections, m.Agrees (r.pool.select r.sys) := by
    rw [h.sys_eq, h.pool_eq]
    exact h.selections
  obtain ⟨h1, h2⟩ := select_agrees hagrees request
  rw [h.sys_eq, h.pool_eq] at h1 h2
  rw [select_frame]
  exact ⟨h1, h.sys_eq, h.pool_eq, h.rule_eq, h2, h.reductions⟩

theorem consult_answer (h : r.Transparent sys pool rule) (request : Request)
    (cs : List Candidate) :
    (r.consult request cs).1 = rule request cs ∧
      (r.consult request cs).2.Transparent sys pool rule :=
  ⟨by rw [consult, h.rule_eq], h.sys_eq, h.pool_eq, h.rule_eq, h.selections, h.reductions⟩

theorem reduceAnew_answer (h : r.Transparent sys pool rule) (request : Request) :
    (r.reduceAnew request).1 = pool.reduce sys rule request ∧
      (r.reduceAnew request).2.Transparent sys pool rule := by
  obtain ⟨h1, h2⟩ := select_answer h request
  unfold reduceAnew Pool.reduce
  rw [← h1]
  cases hs : r.select request with
  | mk answer r' =>
    rw [hs] at h2
    cases answer with
    | error e => exact ⟨rfl, h2⟩
    | ok cs =>
      simp only [bind, Except.bind]
      cases Reduction.ofList cs with
      | empty => exact ⟨rfl, h2⟩
      | resolved c => exact ⟨rfl, h2⟩
      | unresolved cs => exact consult_answer h2 request cs

theorem reduce_answer (h : r.Transparent sys pool rule) (request : Request) :
    (r.reduce request).1 = pool.reduce sys rule request ∧
      (r.reduce request).2.Transparent sys pool rule := by
  unfold reduce
  cases hr : r.reductions with
  | none => exact reduceAnew_answer h request
  | some m =>
    obtain ⟨h1, h2, h3⟩ := Memo.compute_agrees (P := Transparent sys pool rule)
      (fun m r => ((r.reduceAnew request).1, m, (r.reduceAnew request).2))
      (h.reductions m hr) h (fun m' r' hm' hr' =>
        ⟨(reduceAnew_answer hr' request).1, hm', (reduceAnew_answer hr' request).2⟩)
    refine ⟨h1, h3.sys_eq, h3.pool_eq, h3.rule_eq, h3.selections, ?_⟩
    intro m' hm'
    cases hm'
    exact h2

theorem resolve_answer (h : r.Transparent sys pool rule) (request : Request) :
    (r.resolve request).1 = pool.resolve sys rule request ∧
      (r.resolve request).2.Transparent sys pool rule := by
  obtain ⟨h1, h2⟩ := reduce_answer h request
  unfold resolve Pool.resolve
  rw [← h1]
  cases hr : r.reduce request with
  | mk answer r' =>
    rw [hr] at h2
    cases answer with
    | error e => exact ⟨rfl, h2⟩
    | ok winner =>
      cases winner with
      | none => exact ⟨rfl, h2⟩
      | some c => exact ⟨rfl, h2⟩

/-! ## Sessions -/

/-- The rule for ties after a call. -/
def Call.ruleAfter (rule : TieRule) : Call → TieRule
  | .setRule rule' => rule'
  | _ => rule

/-- What a call answers when nothing is remembered. -/
def Call.plainAnswer (sys : TypeSystem) (pool : Pool) (rule : TieRule) : Call → Answer
  | .select request => .selected (pool.select sys request)
  | .reduce request => .reduced (pool.reduce sys rule request)
  | .resolve request => .resolved (pool.resolve sys rule request)
  | .tie request => .reduced (rule request pool.candidates)
  | .clear | .close | .shutdown | .setRule _ => .done

/-- What the calls of a session answer when nothing is remembered: each on its own, under the rule
for ties that was set last. -/
def plainAnswers (sys : TypeSystem) (pool : Pool) : TieRule → List Call → List Answer
  | _, [] => []
  | rule, c :: cs => c.plainAnswer sys pool rule :: plainAnswers sys pool (c.ruleAfter rule) cs

/-- One call answers plainly and keeps the resolver transparent. -/
theorem call_answer {s : Session} (h : s.resolver.Transparent sys pool rule) (c : Call) :
    (s.call c).1 = c.plainAnswer sys pool rule ∧
      (s.call c).2.resolver.Transparent sys pool (c.ruleAfter rule) := by
  cases c with
  | select request =>
    have := select_answer h request
    exact ⟨congrArg Answer.selected this.1, this.2⟩
  | reduce request =>
    have := reduce_answer h request
    exact ⟨congrArg Answer.reduced this.1, this.2⟩
  | resolve request =>
    have := resolve_answer h request
    exact ⟨congrArg Answer.resolved this.1, this.2⟩
  | tie request =>
    have := consult_answer h request s.resolver.pool.candidates
    rw [h.pool_eq] at this
    exact ⟨congrArg Answer.reduced (by rw [h.pool_eq]; exact this.1), by
      simp only [Session.call, h.pool_eq]; exact this.2⟩
  | clear => exact ⟨rfl, transparent_clear h⟩
  | close => exact ⟨rfl, transparent_clear h⟩
  | shutdown =>
    refine ⟨rfl, ?_⟩
    simp only [Session.call]
    split
    · exact transparent_clear h
    · exact h
  | setRule rule' => exact ⟨rfl, transparent_withRule h rule'⟩

theorem run_plainAnswers (cs : List Call) :
    ∀ (s : Session) (rule : TieRule), s.resolver.Transparent sys pool rule →
      (s.run cs).1 = plainAnswers sys pool rule cs := by
  induction cs with
  | nil => intro s rule _; rfl
  | cons c cs ih =>
    intro s rule h
    obtain ⟨h1, h2⟩ := call_answer h c
    simp only [Session.run, plainAnswers, h1, ih _ _ h2]

/-- **Remembering is transparent**: whatever the type system, the pool, the settings and the rule
for ties, every call of every session answers what it would answer alone. -/
theorem run_answers (sys : TypeSystem) (pool : Pool) (settings : ResolutionSettings)
    (rule : TieRule) (cs : List Call) :
    ((Session.start (new sys pool settings rule)).run cs).1 = plainAnswers sys pool rule cs :=
  run_plainAnswers cs _ rule (transparent_new sys pool settings rule)

end Resolver

end Wiring
