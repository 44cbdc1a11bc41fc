import Wiring.Proofs.Memo.Growth
import Wiring.Proofs.Reduction.Ranking
import Wiring.Proofs.Resolver.Independence
/-!
# The accounts of a session

What a resolver counts and records adds up. Each call for a reduction counts once at the memo of
reductions; each selection counts once at the memo of selections, whether a call asked for it or
the computation of a reduction did; and the rule for ties is asked once for each computed reduction
that comes to a tie (`session_accounts`). The invariant is `Accounts`, to which each call adds what
it counts (`accounts_turn`).
-/

namespace Wiring

/-- The candidates of the pool that answer the request and cannot be told apart, if there are
any. -/
def Pool.tie? (pool : Pool) (sys : TypeSystem) (request : Request) : Option (List Candidate) :=
  match pool.select sys request with
  | .ok cs => (Reduction.ofList cs).tie?
  | .error _ => none

/-! ## Memos that count -/

namespace Memo

variable {κ β : Type} {m : Memo κ β} {capacity : Option Nat} {n : Nat}

/-- The memo has counted so many requests, and holds no more than its capacity. -/
structure Tallies (capacity : Option Nat) (requests : Nat) (m : Memo κ β) : Prop where
  capacity_eq : m.capacity = capacity
  sound : m.Sound
  total : m.hits + m.misses = requests

namespace Tallies

theorem new (capacity : Option Nat) : (withCapacity capacity : Memo κ β).Tallies capacity 0 :=
  ⟨rfl, sound_withCapacity capacity, rfl⟩

theorem clear (h : m.Tallies capacity n) : m.clear.Tallies capacity n :=
  ⟨h.capacity_eq, sound_clear m, h.total⟩

theorem size_le (h : m.Tallies capacity n) : ∀ limit ∈ capacity, m.size ≤ limit :=
  h.capacity_eq ▸ h.sound.fits

theorem compute [BEq κ] [LawfulBEq κ] {ε τ : Type} {t : τ} {k : κ}
    {run : Memo κ β → τ → Except ε β × Memo κ β × τ} (h : m.Tallies capacity n)
    (hrun : (run m.countMiss t).2.1 = m.countMiss) :
    (m.compute t k run).2.1.Tallies capacity (n + 1) := by
  obtain ⟨hgrows, hhits, hmisses, -⟩ := compute_of_untouched k run hrun
  refine ⟨hgrows.capacity_eq.trans h.capacity_eq, hgrows.sound h.sound, ?_⟩
  rw [hhits, hmisses, ← h.total]
  split <;> omega

end Tallies

end Memo

namespace Resolver

/-! ## What a call changes -/

section

variable {r : Resolver} {capacity : Option Nat} {n k : Nat} (request : Request)

/-- The reduction of the request has to be computed, since it is not remembered. -/
def computes (r : Resolver) (request : Request) : Bool :=
  r.reductions.all fun m => (m.get? request).isNone

theorem selections_select (r : Resolver) (request : Request) :
    (r.select request).2.selections = r.selections.map fun m =>
      (m.compute () request fun m _ => (r.pool.select r.sys request, m, ())).2.1 := by
  unfold select
  cases hs : r.selections with
  | none => exact hs
  | some m => rfl

theorem select_tallies (h : ∀ m ∈ r.selections, m.Tallies capacity n) :
    ∀ m ∈ (r.select request).2.selections, m.Tallies capacity (n + 1) := by
  rw [selections_select]
  intro m' hm'
  obtain ⟨m, hm, rfl⟩ := Option.map_eq_some_iff.1 hm'
  exact (h m hm).compute rfl

/-- The computation of a reduction makes one selection and perhaps asks the rule. -/
theorem reduceAnew_frame (r : Resolver) (request : Request) :
    (r.reduceAnew request).2 =
      { r with
        selections := (r.select request).2.selections
        consulted := (r.reduceAnew request).2.consulted } := by
  have hselect := select_frame r request
  unfold reduceAnew
  cases hs : r.select request with
  | mk answer r' =>
    simp only [hs] at hselect
    cases answer with
    | error e => rw [hselect]
    | ok cs =>
      dsimp only
      cases Reduction.ofList cs <;> (dsimp only [consult]; rw [hselect])

/-- What the memo of reductions runs to compute one: the memo itself is left alone. -/
def reducing (request : Request) (m : Memo Request (Option Candidate)) (r : Resolver) :
    Except ResolutionError (Option Candidate) × Memo Request (Option Candidate) × Resolver :=
  ((r.reduceAnew request).1, m, (r.reduceAnew request).2)

theorem reductions_reduce (r : Resolver) (request : Request) :
    (r.reduce request).2.reductions = r.reductions.map fun m =>
      (m.compute r request (reducing request)).2.1 := by
  unfold reduce
  cases hr : r.reductions with
  | none => rw [reduceAnew_frame]; exact hr
  | some m => rfl

/-- A reduction that is remembered changes nothing but the counts of its memo. -/
theorem reduce_frame (r : Resolver) (request : Request) :
    (r.reduce request).2 =
      { (if r.computes request then (r.reduceAnew request).2 else r) with
        reductions := (r.reduce request).2.reductions } := by
  cases hr : r.reductions with
  | none => simp [reduce, computes, hr]
  | some m =>
    obtain ⟨-, -, -, hrun⟩ :=
      Memo.compute_of_untouched (m := m) (t := r) request (reducing request) rfl
    have hreduce : (r.reduce request).2 =
        { (m.compute r request (reducing request)).2.2 with
          reductions := (r.reduce request).2.reductions } := by
      unfold reduce
      rw [hr]
      rfl
    rw [hreduce, hrun, computes, hr, Option.all_some]
    cases m.get? request <;> rfl

theorem reduce_tallies
    (h : ∀ m ∈ r.reductions, m.Tallies capacity n ∧ m.misses = k) :
    ∀ m ∈ (r.reduce request).2.reductions, m.Tallies capacity (n + 1) ∧
      m.misses = k + if r.computes request then 1 else 0 := by
  rw [reductions_reduce]
  intro m' hm'
  obtain ⟨m, hm, rfl⟩ := Option.map_eq_some_iff.1 hm'
  obtain ⟨htallies, hk⟩ := h m hm
  obtain ⟨-, -, hmisses, -⟩ :=
    Memo.compute_of_untouched (m := m) (t := r) request (reducing request) rfl
  refine ⟨htallies.compute rfl, hmisses.trans ?_⟩
  rw [hk, computes, hm, Option.all_some]
  cases m.get? request <;> rfl

theorem resolve_frame (r : Resolver) (request : Request) :
    (r.resolve request).2 = (r.reduce request).2 := by
  unfold resolve
  rcases r.reduce request with ⟨_ | _ | _, _⟩ <;> rfl

end

/-! ## The accounts -/

/-- What a resolver has counted and recorded, after some calls for selections and some for
reductions, in the course of which it computed the reductions of the requests in `computed`. -/
structure Accounts (sys : TypeSystem) (pool : Pool) (settings : ResolutionSettings)
    (selects reduces : Nat) (computed : List Request) (r : Resolver) : Prop where
  sys_eq : r.sys = sys
  pool_eq : r.pool = pool
  selections_isSome : r.selections.isSome = settings.cacheSelections
  selections : ∀ m ∈ r.selections,
    m.Tallies settings.cacheCapacity (selects + computed.length)
  agrees : ∀ m ∈ r.selections, m.Agrees (pool.select sys)
  reductions_isSome : r.reductions.isSome = settings.cacheReductions
  reductions : ∀ m ∈ r.reductions,
    m.Tallies settings.cacheCapacity reduces ∧ m.misses = computed.length
  computed_all : r.reductions = none → computed.length = reduces
  consulted : r.consulted = computed.filterMap (pool.tie? sys)

section

variable {sys : TypeSystem} {pool : Pool} {settings : ResolutionSettings} {selects reduces : Nat}
  {computed : List Request} {r : Resolver}

theorem accounts_new (sys : TypeSystem) (pool : Pool) (settings : ResolutionSettings)
    (rule : TieRule) : (new sys pool settings rule).Accounts sys pool settings 0 0 [] where
  sys_eq := rfl
  pool_eq := rfl
  selections_isSome := by unfold new; cases settings.cacheSelections <;> rfl
  selections := by
    unfold new
    cases settings.cacheSelections
    · simp
    · rintro m ⟨⟩
      exact .new _
  agrees := fun _ hm => Memo.agrees_of_mem_new hm
  reductions_isSome := by unfold new; cases settings.cacheReductions <;> rfl
  reductions := by
    unfold new
    cases settings.cacheReductions
    · simp
    · rintro m ⟨⟩
      exact ⟨.new _, rfl⟩
  computed_all := fun _ => rfl
  consulted := rfl

/-- The accounts do not depend on the rule for ties. -/
theorem accounts_rule (h : r.Accounts sys pool settings selects reduces computed)
    (rule : TieRule) :
    ({ r with rule := rule } : Resolver).Accounts sys pool settings selects reduces computed :=
  ⟨h.1, h.2, h.3, h.4, h.5, h.6, h.7, h.8, h.9⟩

theorem accounts_clear (h : r.Accounts sys pool settings selects reduces computed) :
    r.clear.Accounts sys pool settings selects reduces computed where
  sys_eq := h.sys_eq
  pool_eq := h.pool_eq
  selections_isSome := Option.isSome_map.trans h.selections_isSome
  selections := by
    intro m hm
    obtain ⟨m₀, hm₀, rfl⟩ := Option.map_eq_some_iff.1 hm
    exact (h.selections m₀ hm₀).clear
  agrees := fun _ hm => Memo.agrees_of_mem_clear hm
  reductions_isSome := Option.isSome_map.trans h.reductions_isSome
  reductions := by
    intro m hm
    obtain ⟨m₀, hm₀, rfl⟩ := Option.map_eq_some_iff.1 hm
    obtain ⟨htallies, hmisses⟩ := h.reductions m₀ hm₀
    exact ⟨htallies.clear, hmisses⟩
  computed_all := fun hr => h.computed_all (Option.map_eq_none_iff.1 hr)
  consulted := h.consulted

theorem accounts_select (h : r.Accounts sys pool settings selects reduces computed)
    (request : Request) :
    (r.select request).2.Accounts sys pool settings (selects + 1) reduces computed := by
  have hagrees := select_agrees (by rw [h.sys_eq, h.pool_eq]; exact h.agrees) request
  have htallies := select_tallies request h.selections
  have hsome : (r.select request).2.selections.isSome = r.selections.isSome := by
    rw [selections_select, Option.isSome_map]
  rw [h.sys_eq, h.pool_eq] at hagrees
  rw [select_frame]
  refine ⟨h.sys_eq, h.pool_eq, hsome.trans h.selections_isSome, ?_, hagrees.2,
    h.reductions_isSome, h.reductions, h.computed_all, h.consulted⟩
  rwa [Nat.add_right_comm]

/-- The rule is asked about the tie between the candidates of the pool. -/
theorem consulted_of_agrees (h : ∀ m ∈ r.selections, m.Agrees (r.pool.select r.sys))
    (request : Request) :
    (r.reduceAnew request).2.consulted =
      r.consulted ++ (r.pool.tie? r.sys request).toList := by
  rw [consulted_reduceAnew, (select_agrees h request).1, Pool.tie?]
  cases r.pool.select r.sys request with
  | error e => rfl
  | ok cs => simp only [Reduction.ofList_eq_ranked]

theorem accounts_reduce (h : r.Accounts sys pool settings selects reduces computed)
    (request : Request) :
    (r.reduce request).2.Accounts sys pool settings selects (reduces + 1)
      (computed ++ if r.computes request then [request] else []) := by
  have hreductions := reduce_tallies request h.reductions
  have hsome : (r.reduce request).2.reductions.isSome = settings.cacheReductions := by
    rw [reductions_reduce, Option.isSome_map, h.reductions_isSome]
  have hnone : (r.reduce request).2.reductions = none → r.reductions = none := by
    rw [reductions_reduce]
    exact Option.map_eq_none_iff.1
  rw [reduce_frame]
  cases hc : r.computes request with
  | false =>
    -- A remembered reduction is there because its memo is.
    have hkept : r.reductions ≠ none := by
      intro hr
      simp [computes, hr] at hc
    simp only [hc] at hreductions
    simpa using ⟨h.sys_eq, h.pool_eq, h.selections_isSome, h.selections, h.agrees, hsome,
      hreductions, fun hr => absurd (hnone hr) hkept, h.consulted⟩
  | true =>
    have hselect := accounts_select h request
    have hasked := consulted_of_agrees (by rw [h.sys_eq, h.pool_eq]; exact h.agrees) request
    rw [h.sys_eq, h.pool_eq, h.consulted] at hasked
    have hlength : (computed ++ [request]).length = computed.length + 1 := List.length_append
    simp only [hc, if_true] at hreductions
    rw [if_pos rfl, if_pos rfl, reduceAnew_frame]
    refine ⟨h.sys_eq, h.pool_eq, hselect.selections_isSome, ?_, hselect.agrees, hsome, ?_, ?_, ?_⟩
    · rw [hlength, ← Nat.add_assoc, Nat.add_right_comm]
      exact hselect.selections
    · rw [hlength]
      exact hreductions
    · intro hr
      rw [hlength, h.computed_all (hnone hr)]
    · rw [hasked, List.filterMap_append]
      cases htie : pool.tie? sys request <;> simp [htie]

end

/-! ## Sessions -/

/-- A call, and the rule for ties while it lasts: what the rule answers may change from one call to
the next. -/
structure Turn where
  rule : TieRule
  call : Call

namespace Call

/-- The call neither hands a tie to the rule by hand nor replaces the resolver. -/
def plain : Call → Bool
  | .tie _ | .setRule _ => false
  | _ => true

def selects : Call → Bool
  | .select _ => true
  | _ => false

def reduces : Call → Bool
  | .reduce _ | .resolve _ => true
  | _ => false

/-- The request whose reduction is computed during the call, if there is one. -/
def computed (r : Resolver) : Call → List Request
  | .reduce request | .resolve request => if r.computes request then [request] else []
  | _ => []

end Call

namespace Session

/-- The session after one turn. -/
def turn (s : Session) (t : Turn) : Session :=
  ({ s with resolver := { s.resolver with rule := t.rule } }.call t.call).2

/-- The session after several turns. -/
def after (s : Session) : List Turn → Session
  | [] => s
  | t :: ts => (s.turn t).after ts

/-- The requests whose reductions are computed in the course of several turns, the oldest first. -/
def computed (s : Session) : List Turn → List Request
  | [] => []
  | t :: ts => t.call.computed s.resolver ++ (s.turn t).computed ts

theorem after_append (s : Session) (ts us : List Turn) :
    s.after (ts ++ us) = (s.after ts).after us := by
  induction ts generalizing s with
  | nil => rfl
  | cons t ts ih => exact ih (s.turn t)

end Session

section

variable {sys : TypeSystem} {pool : Pool} {settings : ResolutionSettings} {selects reduces : Nat}
  {computed : List Request} {s : Session}

/-- Each turn adds to the accounts what its call counts. -/
theorem accounts_turn (h : s.resolver.Accounts sys pool settings selects reduces computed)
    {t : Turn} (ht : t.call.plain) :
    (s.turn t).resolver.Accounts sys pool settings
      (selects + if t.call.selects then 1 else 0)
      (reduces + if t.call.reduces then 1 else 0)
      (computed ++ t.call.computed s.resolver) := by
  have h := accounts_rule h t.rule
  obtain ⟨rule, call⟩ := t
  cases call with
  | select request =>
    simp only [Call.computed, List.append_nil]
    exact accounts_select h request
  | reduce request => exact accounts_reduce h request
  | resolve request =>
    have := accounts_reduce h request
    rw [← resolve_frame] at this
    exact this
  | tie request => cases ht
  | clear =>
    simp only [Call.computed, List.append_nil]
    exact accounts_clear h
  | close =>
    simp only [Call.computed, List.append_nil]
    exact accounts_clear h
  | shutdown =>
    simp only [Call.computed, List.append_nil, Session.turn, Session.call]
    cases s.registered with
    | true => exact accounts_clear h
    | false => exact h
  | setRule rule' => cases ht

theorem accounts_after (ts : List Turn) :
    ∀ {selects reduces : Nat} {computed : List Request} {s : Session},
      s.resolver.Accounts sys pool settings selects reduces computed →
      (∀ t ∈ ts, t.call.plain) →
      (s.after ts).resolver.Accounts sys pool settings
        (selects + ts.countP (·.call.selects)) (reduces + ts.countP (·.call.reduces))
        (computed ++ s.computed ts) := by
  induction ts with
  | nil => intro selects reduces computed s h _; simpa [Session.after, Session.computed] using h
  | cons t ts ih =>
    intro selects reduces computed s h hts
    obtain ⟨ht, hts⟩ := List.forall_mem_cons.1 hts
    have := ih (accounts_turn h ht) hts
    simpa only [Session.after, Session.computed, List.countP_cons, List.append_assoc, Nat.add_assoc,
      Nat.add_comm (if _ then 1 else 0)] using this

end

/-- **The accounts of a session.** Let a session select, reduce, resolve and clear in any order,
with any settings and under a rule for ties that may answer otherwise each time. Then the memo of
reductions, if there is one, has counted each call for a reduction once, as a miss where the
reduction was computed; without it all of them are computed. The memo of selections, if there is
one, has counted each call for a selection and each computed reduction once. The rule was asked
once for each computed reduction that came to a tie, about that tie, and about nothing else. No memo
holds more than its capacity, and clearing empties both and leaves their counts. -/
theorem session_accounts (sys : TypeSystem) (pool : Pool) (settings : ResolutionSettings)
    (rule : TieRule) (ts : List Turn) (hts : ∀ t ∈ ts, t.call.plain) :
    let s := Session.start (new sys pool settings rule)
    let r := (s.after ts).resolver
    let selects := ts.countP (·.call.selects)
    let reduces := ts.countP (·.call.reduces)
    let computed := s.computed ts
    (r.reductions.isSome = settings.cacheReductions ∧
      (∀ m ∈ r.reductions, m.hits + m.misses = reduces ∧ m.misses = computed.length) ∧
      (r.reductions = none → computed.length = reduces)) ∧
    (r.selections.isSome = settings.cacheSelections ∧
      ∀ m ∈ r.selections, m.hits + m.misses = selects + computed.length) ∧
    r.consulted = computed.filterMap (pool.tie? sys) ∧
    (∀ limit ∈ settings.cacheCapacity,
      (∀ m ∈ r.selections, m.size ≤ limit) ∧ ∀ m ∈ r.reductions, m.size ≤ limit) ∧
    ∀ rule' : TieRule,
      let cleared := (s.after (ts ++ [⟨rule', .clear⟩])).resolver
      cleared.selections.map Memo.stats = r.selections.map (fun m => ⟨m.hits, m.misses, 0⟩) ∧
      cleared.reductions.map Memo.stats = r.reductions.map (fun m => ⟨m.hits, m.misses, 0⟩) := by
  intro s r selects reduces computed
  have h : r.Accounts sys pool settings selects reduces computed := by
    have := accounts_after ts (s := s) (accounts_new sys pool settings rule) hts
    simpa only [Nat.zero_add, List.nil_append] using this
  refine ⟨⟨h.reductions_isSome, fun m hm => ?_, h.computed_all⟩,
    ⟨h.selections_isSome, fun m hm => (h.selections m hm).total⟩, h.consulted,
    fun limit hlimit => ⟨fun m hm => (h.selections m hm).size_le limit hlimit,
      fun m hm => (h.reductions m hm).1.size_le limit hlimit⟩, fun rule' => ?_⟩
  · obtain ⟨htallies, hmisses⟩ := h.reductions m hm
    exact ⟨htallies.total, hmisses⟩
  · dsimp only
    rw [Session.after_append]
    exact ⟨Option.map_map .., Option.map_map ..⟩

/-- Two candidates that cannot be told apart. -/
def tiedPool : Pool where
  candidates := [intCandidate "left" false 0, intCandidate "right" false 0]
  distinct := by decide
  ranked := by decide

/-- A tie is refused, won, remembered, forgotten and won again, with room for one request; an other
request finds no room. -/
theorem session_accounts_tie :
    let sys := ClassTable.base.system 0
    let ts : List Turn :=
      [⟨.refuse, .reduce intRequest⟩, ⟨.first, .resolve intRequest⟩, ⟨.refuse, .reduce intRequest⟩,
        ⟨.refuse, .clear⟩, ⟨.last, .reduce intRequest⟩, ⟨.refuse, .select intRequest⟩,
        ⟨.first, .reduce { intRequest with policy := .event }⟩]
    let s := Session.start (new sys tiedPool ⟨true, true, some 1⟩ .refuse)
    let r := (s.after ts).resolver
    (∀ t ∈ ts, t.call.plain) ∧ r.consulted = List.replicate 4 tiedPool.candidates ∧
      (∀ m ∈ r.reductions, m.hits + m.misses = 5 ∧ m.misses = 4 ∧ m.size ≤ 1) ∧
      ∀ m ∈ r.selections, m.hits + m.misses = 5 := by
  intro sys ts
  have hts : ∀ t ∈ ts, t.call.plain := by simp [ts, Call.plain]
  have haccounts := session_accounts sys tiedPool ⟨true, true, some 1⟩ .refuse ts hts
  extract_lets s r selects reduces computed at haccounts
  extract_lets
  have hcomputed : computed = [intRequest, intRequest, intRequest,
      { intRequest with policy := .event }] := rfl
  have htie : tiedPool.tie? sys intRequest = some tiedPool.candidates := rfl
  have htie' : tiedPool.tie? sys { intRequest with policy := .event } =
      some tiedPool.candidates := rfl
  obtain ⟨⟨-, hreductions, -⟩, ⟨-, hselections⟩, hconsulted, hsize, -⟩ := haccounts
  rw [hcomputed] at hreductions hselections hconsulted
  simp only [List.filterMap_cons, htie, htie', List.filterMap_nil] at hconsulted
  refine ⟨hts, hconsulted, fun m hm => ?_, hselections⟩
  obtain ⟨htotal, hmisses⟩ := hreductions m hm
  exact ⟨htotal, hmisses, (hsize 1 rfl).2 m hm⟩

end Resolver

end Wiring
