import Wiring.ClassTable.System
import Wiring.Proofs.Pool.Selection
import Wiring.Proofs.Reduction.Contenders
import Wiring.Proofs.Resolver.Transparency
/-!
# What an outcome depends on

The outcome of a request depends on the contenders alone: neither the order in which candidates
were registered nor the candidates that are beaten play a part (`sameOutcome_of_keep`). The
selections are compared first; from their contenders `verdict` gives the outcome.
-/

namespace Wiring.Resolver

/-- What a new resolver answers to a request when the candidates `cs` were registered, in this
order, and ties are refused. -/
def outcome (sys : TypeSystem) (settings : ResolutionSettings) (cs : List Candidate)
    (request : Request) : Except ResolutionError Candidate :=
  ((new sys (Pool.ofList cs) settings .refuse).resolve request).1

/-- The candidates an outcome names: the winner, or all between which the request is ambiguous. -/
def named : Except ResolutionError Candidate → List Candidate
  | .ok c => [c]
  | .error (.ambiguous _ cs) => cs
  | .error _ => []

/-- The same winner, the same candidates in a tie, or nobody in both. -/
def SameOutcome :
    Except ResolutionError Candidate → Except ResolutionError Candidate → Prop
  | .ok c, .ok d => c = d
  | .error (.ambiguous q cs), .error (.ambiguous q' ds) => q = q' ∧ cs.Perm ds
  | .error (.unsatisfied q), .error (.unsatisfied q') => q = q'
  | _, _ => False

/-- The outcome of a request for which these are in contention. -/
def verdict (request : Request) : List Candidate → Except ResolutionError Candidate
  | [] => .error (.unsatisfied request)
  | [c] => .ok c
  | cs => .error (.ambiguous request cs)

theorem named_verdict (request : Request) (cs : List Candidate) :
    named (verdict request cs) = cs := by
  match cs with
  | [] => rfl
  | [_] => rfl
  | _ :: _ :: _ => rfl

theorem sameOutcome_verdict (request : Request) {cs ds : List Candidate} (h : cs.Perm ds) :
    SameOutcome (verdict request cs) (verdict request ds) := by
  match cs, ds, h with
  | [], ds, h =>
    obtain rfl := h.nil_eq
    exact rfl
  | [c], ds, h =>
    obtain rfl := List.singleton_perm.1 h
    exact rfl
  | c :: c' :: cs, [], h => exact absurd h.length_eq (by simp)
  | c :: c' :: cs, [d], h => exact absurd h.length_eq (by simp)
  | c :: c' :: cs, d :: d' :: ds, h => exact ⟨rfl, h⟩

/-! ## From the selection to the outcome -/

section

variable {sys : TypeSystem} {settings : ResolutionSettings} {request : Request}
  {cs ds : List Candidate}

theorem outcome_eq (sys : TypeSystem) (settings : ResolutionSettings) (cs : List Candidate)
    (request : Request) :
    outcome sys settings cs request = (Pool.ofList cs).resolve sys .refuse request :=
  (resolve_answer (transparent_new sys (Pool.ofList cs) settings .refuse) request).1

theorem resolve_refuse {pool : Pool} {out : List Candidate}
    (h : pool.select sys request = .ok out) :
    pool.resolve sys .refuse request = verdict request (contenders out) := by
  simp only [Pool.resolve, Pool.reduce, h, bind, Except.bind, ofList_eq]
  match contenders out with
  | [] => rfl
  | [_] => rfl
  | _ :: _ :: _ => rfl

theorem resolve_type_error {pool : Pool} {e : ResolutionError}
    (h : pool.select sys request = .error e) (rule : TieRule) :
    ∃ fault, pool.resolve sys rule request = .error (.type fault) := by
  obtain ⟨fault, rfl⟩ := Pool.selectFrom_error h
  exact ⟨fault, by simp [Pool.resolve, Pool.reduce, h, bind, Except.bind]⟩

/-- Without a fault of a type, the outcome is the verdict on those that answer the request, in
pool order, and every registered candidate can be matched. -/
theorem outcome_eq_verdict (hids : (cs.map (·.id)).Nodup)
    (hok : ∀ fault, outcome sys settings cs request ≠ .error (.type fault)) :
    (∀ c ∈ cs, Pool.Matchable sys request c) ∧
      outcome sys settings cs request =
        verdict request (contenders
          ((Pool.ofList cs).candidates.filter (Pool.answers sys request))) := by
  rw [outcome_eq] at hok ⊢
  cases hsel : (Pool.ofList cs).select sys request with
  | error e =>
    obtain ⟨fault, hf⟩ := resolve_type_error hsel .refuse
    exact absurd hf (hok fault)
  | ok out =>
    obtain ⟨hall, rfl⟩ := Pool.selectFrom_eq_ok_iff.1 hsel
    exact ⟨fun c hc => hall c ((Pool.ofList_perm hids).mem_iff.2 hc), resolve_refuse hsel⟩

theorem outcome_of_matchable (hids : (cs.map (·.id)).Nodup)
    (hall : ∀ c ∈ cs, Pool.Matchable sys request c) :
    outcome sys settings cs request =
      verdict request (contenders
        ((Pool.ofList cs).candidates.filter (Pool.answers sys request))) := by
  rw [outcome_eq]
  exact resolve_refuse (Pool.selectFrom_eq_ok_iff.2
    ⟨fun c hc => hall c ((Pool.ofList_perm hids).mem_iff.1 hc), rfl⟩)

theorem mem_selected (hids : (cs.map (·.id)).Nodup) (c : Candidate) :
    c ∈ (Pool.ofList cs).candidates.filter (Pool.answers sys request) ↔
      c ∈ cs ∧ Pool.answers sys request c = true := by
  rw [List.mem_filter, (Pool.ofList_perm hids).mem_iff]

theorem nodup_selected (cs : List Candidate) :
    ((Pool.ofList cs).candidates.filter (Pool.answers sys request)).Nodup :=
  List.Pairwise.sublist List.filter_sublist
    (List.Pairwise.of_map (·.id) (fun _ _ hne e => hne (congrArg _ e)) (Pool.ofList cs).distinct)

theorem outcome_keep (settings' : ResolutionSettings) (hcs : (cs.map (·.id)).Nodup)
    (hok : ∀ fault, outcome sys settings cs request ≠ .error (.type fault))
    (hds : (ds.map (·.id)).Nodup) (hsub : ds ⊆ cs)
    (hkeep : named (outcome sys settings cs request) ⊆ ds) :
    SameOutcome (outcome sys settings cs request) (outcome sys settings' ds request) := by
  obtain ⟨hall, hout⟩ := outcome_eq_verdict hcs hok
  rw [hout, named_verdict] at hkeep
  rw [hout, outcome_of_matchable hds fun c hc => hall c (hsub hc)]
  refine sameOutcome_verdict request
    (contenders_perm_of_keep (nodup_selected cs) (nodup_selected ds) ?_ ?_)
  · intro c hc
    rw [mem_selected hds] at hc
    exact (mem_selected hcs c).2 ⟨hsub hc.1, hc.2⟩
  · intro c hc
    have hsel := (mem_selected hcs c).1 ((contenders_sublist _).subset hc)
    exact (mem_selected hds c).2 ⟨hkeep hc, hsel.2⟩

end

/-- **The outcome depends on the contenders alone.** Register the candidates `cs`, with distinct
ids, and let the request meet no fault of a type. Then any part `ds` of them, in any order, that
still holds all candidates the outcome names has the same outcome; in particular the order of
registration plays no part. -/
theorem sameOutcome_of_keep (sys : TypeSystem) (settings settings' : ResolutionSettings)
    (request : Request) (cs : List Candidate) (hcs : (cs.map (·.id)).Nodup)
    (hok : ∀ fault, outcome sys settings cs request ≠ .error (.type fault)) :
    (∀ ds : List Candidate, (ds.map (·.id)).Nodup → ds ⊆ cs →
      named (outcome sys settings cs request) ⊆ ds →
      SameOutcome (outcome sys settings cs request) (outcome sys settings' ds request)) ∧
    ∀ ds : List Candidate, cs.Perm ds →
      SameOutcome (outcome sys settings cs request) (outcome sys settings' ds request) := by
  refine ⟨fun ds hds hsub hkeep => outcome_keep settings' hcs hok hds hsub hkeep,
    fun ds hperm => ?_⟩
  refine outcome_keep settings' hcs hok ((hperm.map _).nodup_iff.1 hcs) hperm.symm.subset ?_
  obtain ⟨-, hout⟩ := outcome_eq_verdict hcs hok
  rw [hout, named_verdict]
  intro c hc
  exact hperm.subset ((mem_selected hcs c).1 ((contenders_sublist _).subset hc)).1

/-- A candidate that offers `int`. -/
def intCandidate (id : String) (alternate : Bool) (rank : Int) : Candidate where
  id := id
  types := [.primitive .int]
  annotations := ∅
  alternate := alternate
  rank := rank
  offersSome := by simp
  distinct := by simp
  legal := by
    simp [Ty.checkOffered, requireConcrete, Ty.isConcrete, Ty.checkOfferedArgs, bind, Except.bind]

def intRequest : Request := ⟨.injection, .primitive .int, ∅, rfl⟩

/-- Two tied alternates, with two candidates they beat. -/
def fourCandidates : List Candidate :=
  [intCandidate "plain" false 9, intCandidate "left" true 3, intCandidate "right" true 3,
    intCandidate "low" true (-1)]

/-- The tied alternates alone, the other way round. -/
def twoCandidates : List Candidate := [intCandidate "right" true 3, intCandidate "left" true 3]

theorem sameOutcome_four_two :
    (fourCandidates.map (·.id)).Nodup ∧
      (∀ fault, outcome (ClassTable.base.system 0) .default fourCandidates intRequest ≠
        .error (.type fault)) ∧
      (twoCandidates.map (·.id)).Nodup ∧ twoCandidates ⊆ fourCandidates ∧
      named (outcome (ClassTable.base.system 0) .default fourCandidates intRequest) ⊆
        twoCandidates ∧
      SameOutcome (outcome (ClassTable.base.system 0) .default fourCandidates intRequest)
        (outcome (ClassTable.base.system 0) ⟨false, true, some 0⟩ twoCandidates intRequest) := by
  have hids : (fourCandidates.map (·.id)).Nodup := by decide
  have hids' : (twoCandidates.map (·.id)).Nodup := by decide
  have hsub : twoCandidates ⊆ fourCandidates := by
    simp [twoCandidates, fourCandidates]
  have hpool : (Pool.ofList fourCandidates).candidates = fourCandidates := by
    show (Pool.firstById fourCandidates).mergeSort Pool.ranksBefore = fourCandidates
    rw [Pool.firstById_of_nodup hids]
    exact List.mergeSort_of_pairwise (by decide)
  have hall : ∀ c ∈ fourCandidates,
      Pool.Matchable (ClassTable.base.system 0) intRequest c := by
    simp only [fourCandidates, List.forall_mem_cons]
    exact ⟨⟨true, rfl⟩, ⟨true, rfl⟩, ⟨true, rfl⟩, ⟨true, rfl⟩, by simp⟩
  have hout : outcome (ClassTable.base.system 0) .default fourCandidates intRequest =
      verdict intRequest [intCandidate "left" true 3, intCandidate "right" true 3] := by
    rw [outcome_of_matchable hids hall, hpool]
    rfl
  have hok : ∀ fault, outcome (ClassTable.base.system 0) .default fourCandidates intRequest ≠
      .error (.type fault) := by
    intro fault h
    rw [hout] at h
    cases h
  have hkeep : named (outcome (ClassTable.base.system 0) .default fourCandidates intRequest) ⊆
      twoCandidates := by
    rw [hout, named_verdict]
    simp [twoCandidates]
  exact ⟨hids, hok, hids', hsub, hkeep, (sameOutcome_of_keep (ClassTable.base.system 0) .default
    ⟨false, true, some 0⟩ intRequest fourCandidates hids hok).1 twoCandidates hids' hsub hkeep⟩

end Wiring.Resolver
