import Mathlib.Data.List.Forall2
import Wiring.ClassTable.System
import Wiring.Proofs.Candidate.Draft
import Wiring.Proofs.Faults
import Wiring.Proofs.Pool.Selection
/-!
# Selections and offered types

A selection matches every offered type of every candidate against the required one, whatever the
annotations say and whether or not another type matched. So it fails exactly if one of these matches
does, with the fault of the first (`selectFrom_eq_error_iff`), and the order in which a candidate
offers its types decides nothing (`select_outcome`).
-/

namespace Wiring

namespace Request

variable {r : Request} {sys : TypeSystem} {ts : List Ty} {carried : Annotations} {e : TypeError}
  {b : Bool}

/-- The offered type can be matched against the required one, and answers it. -/
def isAnsweredBy (r : Request) (sys : TypeSystem) (t : Ty) : Bool :=
  match r.policy.accepts sys r.required t with
  | .ok b => b
  | .error _ => false

theorem typesMatch_eq_ok_iff :
    r.typesMatch sys ts = .ok b ↔
      (∀ t ∈ ts, ∃ v, r.policy.accepts sys r.required t = .ok v) ∧
        b = ts.any (r.isAnsweredBy sys) := by
  induction ts generalizing b with
  | nil => simp [typesMatch, eq_comm]
  | cons t ts ih =>
    rw [typesMatch, bind_eq_ok]
    constructor
    · rintro ⟨here, ht, h⟩
      obtain ⟨later, hts, h⟩ := bind_eq_ok.1 h
      cases h
      obtain ⟨hall, rfl⟩ := ih.1 hts
      exact ⟨List.forall_mem_cons.2 ⟨⟨here, ht⟩, hall⟩, by simp [isAnsweredBy, ht]⟩
    · rintro ⟨hall, rfl⟩
      obtain ⟨⟨here, ht⟩, hall⟩ := List.forall_mem_cons.1 hall
      refine ⟨here, ht, bind_eq_ok.2 ⟨_, ih.2 ⟨hall, rfl⟩, ?_⟩⟩
      simp [isAnsweredBy, ht, pure, Except.pure]

theorem typesMatch_eq_error_iff :
    r.typesMatch sys ts = .error e ↔ FailsFirst (r.policy.accepts sys r.required) ts e := by
  induction ts with
  | nil => simp [typesMatch, FailsFirst.not_nil]
  | cons t ts ih =>
    rw [typesMatch, FailsFirst.cons_iff, ← ih]
    cases r.policy.accepts sys r.required t with
    | error fault => simp [bind, Except.bind]
    | ok here => cases r.typesMatch sys ts <;> simp [bind, Except.bind, pure, Except.pure]

/-- The annotations have no part in what a comparison fails with. -/
theorem selects_eq_error_iff :
    r.selects sys ts carried = .error e ↔ FailsFirst (r.policy.accepts sys r.required) ts e := by
  rw [selects, ← typesMatch_eq_error_iff]
  cases r.typesMatch sys ts <;> simp [bind, Except.bind, pure, Except.pure]

theorem selects_eq_ok_iff :
    r.selects sys ts carried = .ok b ↔
      (∀ t ∈ ts, ∃ v, r.policy.accepts sys r.required t = .ok v) ∧
        b = (r.qualifiersMatch carried && r.bindingsMatch carried &&
          ts.any (r.isAnsweredBy sys)) := by
  rw [selects, bind_eq_ok]
  constructor
  · rintro ⟨types, htypes, h⟩
    cases h
    obtain ⟨hall, rfl⟩ := typesMatch_eq_ok_iff.1 htypes
    exact ⟨hall, rfl⟩
  · rintro ⟨hall, rfl⟩
    exact ⟨_, typesMatch_eq_ok_iff.2 ⟨hall, rfl⟩, rfl⟩

/-- The candidate's qualifiers and bindings answer the request, and so does one of its types. -/
def isMetBy (r : Request) (sys : TypeSystem) (c : Candidate) : Bool :=
  r.qualifiersMatch c.annotations && r.bindingsMatch c.annotations &&
    c.types.any (r.isAnsweredBy sys)

/-- The order of the offered types does not matter. -/
theorem isMetBy_congr {c d : Candidate} (h : c.OffersAlike d) :
    r.isMetBy sys c = r.isMetBy sys d := by
  have htypes : c.types.any (r.isAnsweredBy sys) = d.types.any (r.isAnsweredBy sys) := by
    rw [Bool.eq_iff_iff, List.any_eq_true, List.any_eq_true]
    simp only [h.types]
  rw [isMetBy, isMetBy, h.annotations, htypes]

end Request

namespace Pool

variable {sys : TypeSystem} {request : Request} {cs ds out out' : List Candidate}
  {e : ResolutionError} {c : Candidate}

theorem matchable_iff :
    Matchable sys request c ↔
      ∀ t ∈ c.types, ∃ v, request.policy.accepts sys request.required t = .ok v := by
  simp only [Matchable, Request.selects_eq_ok_iff]
  constructor
  · rintro ⟨b, hall, -⟩
    exact hall
  · intro hall
    exact ⟨_, hall, rfl⟩

theorem answers_of_matchable (h : Matchable sys request c) :
    answers sys request c = request.isMetBy sys c := by
  obtain ⟨b, hb⟩ := h
  rw [answers, hb]
  exact (Request.selects_eq_ok_iff.1 hb).2

/-- **What a selection holds**, when all offered types can be matched. -/
theorem selectFrom_eq_ok_iff_isMetBy :
    selectFrom sys request cs = .ok out ↔
      (∀ c ∈ cs, ∀ t ∈ c.types, ∃ v, request.policy.accepts sys request.required t = .ok v) ∧
        out = cs.filter (request.isMetBy sys) := by
  rw [selectFrom_eq_ok_iff]
  simp only [matchable_iff]
  refine and_congr_right fun hall => ?_
  rw [List.filter_congr fun c hc => answers_of_matchable (matchable_iff.2 (hall c hc))]

/-- **What a selection fails with**: the fault of the first offered type that cannot be matched. -/
theorem selectFrom_eq_error_iff :
    selectFrom sys request cs = .error e ↔
      ∃ fault, e = .type fault ∧
        FailsFirst (request.policy.accepts sys request.required) (cs.flatMap (·.types)) fault := by
  induction cs with
  | nil => simp [selectFrom, FailsFirst.not_nil]
  | cons c cs ih =>
    -- the types of the first candidate come before those of the others
    have hfirst (fault : TypeError) :
        FailsFirst (request.policy.accepts sys request.required)
            ((c :: cs).flatMap (·.types)) fault ↔
          request.selects sys c.types c.annotations = .error fault ∨
            Matchable sys request c ∧
              FailsFirst (request.policy.accepts sys request.required)
                (cs.flatMap (·.types)) fault := by
      rw [List.flatMap_cons, FailsFirst.append_iff, Request.selects_eq_error_iff, matchable_iff]
    simp only [hfirst]
    unfold selectFrom
    cases hc : request.selects sys c.types c.annotations with
    | error fault => simp [Matchable, hc, eq_comm]
    | ok b =>
      have hm : Matchable sys request c := ⟨b, hc⟩
      simp only [reduceCtorEq, false_or, hm, true_and]
      rw [← ih]
      cases selectFrom sys request cs <;> simp [bind, Except.bind, pure, Except.pure]

/-- A selection fails exactly if some offered type cannot be matched. -/
theorem selectFrom_fails_iff :
    (∃ e, selectFrom sys request cs = .error e) ↔
      ∃ c ∈ cs, ∃ t ∈ c.types, ∃ fault,
        request.policy.accepts sys request.required t = .error fault := by
  have hfault : (∃ e, selectFrom sys request cs = .error e) ↔
      ∃ fault, FailsFirst (request.policy.accepts sys request.required)
        (cs.flatMap (·.types)) fault := by
    simp only [selectFrom_eq_error_iff]
    constructor
    · rintro ⟨e, fault, -, h⟩
      exact ⟨fault, h⟩
    · rintro ⟨fault, h⟩
      exact ⟨_, fault, rfl, h⟩
  rw [hfault, FailsFirst.exists_iff]
  constructor
  · rintro ⟨t, ht, h⟩
    obtain ⟨c, hc, ht⟩ := List.mem_flatMap.1 ht
    exact ⟨c, hc, t, ht, h⟩
  · rintro ⟨c, hc, t, ht, h⟩
    exact ⟨t, List.mem_flatMap.2 ⟨c, hc, ht⟩, h⟩

/-! ## The order of the offered types -/

theorem selectFrom_fails_congr (h : List.Forall₂ Candidate.OffersAlike cs ds) :
    (∃ e, selectFrom sys request cs = .error e) ↔ ∃ e, selectFrom sys request ds = .error e := by
  rw [selectFrom_fails_iff, selectFrom_fails_iff]
  induction h with
  | nil => simp
  | cons hcd _ ih => simp only [List.exists_mem_cons_iff, ih, hcd.types]

theorem selectFrom_ids_congr (h : List.Forall₂ Candidate.OffersAlike cs ds)
    (hout : selectFrom sys request cs = .ok out) (hout' : selectFrom sys request ds = .ok out') :
    out.map (·.id) = out'.map (·.id) := by
  obtain ⟨-, rfl⟩ := selectFrom_eq_ok_iff_isMetBy.1 hout
  obtain ⟨-, rfl⟩ := selectFrom_eq_ok_iff_isMetBy.1 hout'
  clear hout hout'
  induction h with
  | nil => rfl
  | @cons c d cs ds hcd _ ih =>
    simp only [List.filter_cons, Request.isMetBy_congr hcd]
    split
    · rw [List.map_cons, List.map_cons, ih, hcd.id]
    · exact ih

/-- **The outcome of a selection**, in any type system. It fails exactly if some offered type of some
candidate cannot be matched against the required one, whatever the annotations are and whether or not
another type matches. The error is then the fault of the first such type, in the order of the pool
and of the offers; otherwise the selection holds, in pool order, the candidates of which the
qualifiers, the bindings and some type answer the request. Neither the order in which candidates
offer their types nor offering a type again changes whether it fails or which ids it holds. -/
theorem select_outcome (sys : TypeSystem) (pool : Pool) (request : Request) :
    let accepts := request.policy.accepts sys request.required
    ((∃ e, pool.select sys request = .error e) ↔
        ∃ c ∈ pool.candidates, ∃ t ∈ c.types, ∃ fault, accepts t = .error fault) ∧
      (∀ e, pool.select sys request = .error e ↔
        ∃ fault, e = .type fault ∧
          FailsFirst accepts (pool.candidates.flatMap (·.types)) fault) ∧
      (∀ out, pool.select sys request = .ok out ↔
        (∀ c ∈ pool.candidates, ∀ t ∈ c.types, ∃ v, accepts t = .ok v) ∧
          out = pool.candidates.filter (request.isMetBy sys)) ∧
      (∀ other : Pool, List.Forall₂ Candidate.OffersAlike pool.candidates other.candidates →
        ((∃ e, pool.select sys request = .error e) ↔ ∃ e, other.select sys request = .error e) ∧
          ∀ out out', pool.select sys request = .ok out → other.select sys request = .ok out' →
            out.map (·.id) = out'.map (·.id)) ∧
      ∀ (d : Candidate.Draft) (ts us : List Ty), (∀ t, t ∈ ts ↔ t ∈ us) →
        ∀ c, (d.offerAll ts).build = .ok c →
          ∃ c', (d.offerAll us).build = .ok c' ∧ c.OffersAlike c' := by
  intro accepts
  refine ⟨selectFrom_fails_iff, fun e => selectFrom_eq_error_iff,
    fun out => selectFrom_eq_ok_iff_isMetBy, fun other h => ?_,
    fun d ts us hmem c hc => Candidate.Draft.exists_build_offersAlike hmem hc⟩
  exact ⟨selectFrom_fails_congr h, fun out out' => selectFrom_ids_congr h⟩

/-- The pool of one candidate. -/
def ofOne (c : Candidate) : Pool := ⟨[c], by simp, by simp⟩

def declaredRequest (c : ClassId) (args : List Ty) (as : Annotations) : Request :=
  ⟨.injection, .declared c args, as, rfl⟩

/-- `List<T>` for a variable that is not declared. -/
def looseList : Ty := .declared .list [.var ⟨99⟩]

/-- A candidate that offers `Object`, `List` and `List<T>`. -/
def looseCarrier : Candidate where
  id := "loose"
  types := [ClassId.object.ty, .declared .list [], looseList]
  annotations := ⟨.ofList [.named "loose"], ∅⟩
  alternate := false
  rank := 0
  offersSome := List.cons_ne_nil _ _
  distinct := by decide
  legal := by decide

/-- A request for `List<Object>` fails with the candidate, although `List` answers it and no
qualifier does; one for `Object` selects it. Both do so if `List<T>` is offered first and `Object`
twice. -/
theorem select_outcome_loose :
    let sys := ClassTable.base.system 0
    let d := { Candidate.Draft.ofId "loose" with annotations := looseCarrier.annotations }
    let lists := declaredRequest .list [ClassId.object.ty] ∅
    let objects := declaredRequest .object [] looseCarrier.annotations
    let offers := [looseList, ClassId.object.ty, .declared .list [], ClassId.object.ty]
    lists.isAnsweredBy sys (.declared .list []) = true ∧
      lists.qualifiersMatch looseCarrier.annotations = false ∧
      (∃ e, (ofOne looseCarrier).select sys lists = .error e) ∧
      (∀ t, t ∈ looseCarrier.types ↔ t ∈ offers) ∧
      ∃ c', (d.offerAll offers).build = .ok c' ∧ looseCarrier.OffersAlike c' ∧
        (∃ e, (ofOne c').select sys lists = .error e) ∧
        ∃ out, (ofOne c').select sys objects = .ok out ∧ ["loose"] = out.map (·.id) := by
  intro sys d lists objects offers
  have hmem : ∀ t, t ∈ looseCarrier.types ↔ t ∈ offers := by
    intro t
    simp only [looseCarrier, offers, List.mem_cons, List.not_mem_nil, or_false]
    tauto
  have hfault : ∃ fault, lists.policy.accepts sys lists.required looseList = .error fault := by
    cases h : lists.policy.accepts sys lists.required looseList with
    | error fault => exact ⟨fault, rfl⟩
    | ok v =>
      have hnone : (lists.policy.accepts sys lists.required looseList).toOption = none := by
        decide +kernel
      rw [h] at hnone
      cases hnone
  obtain ⟨hfails, -, -, hlists, hdraft⟩ := select_outcome sys (ofOne looseCarrier) lists
  obtain ⟨-, -, -, hobjects, -⟩ := select_outcome sys (ofOne looseCarrier) objects
  have hfailed : ∃ e, (ofOne looseCarrier).select sys lists = .error e :=
    hfails.2 ⟨looseCarrier, List.mem_singleton_self _, looseList, by simp [looseCarrier], hfault⟩
  have hfound : (ofOne looseCarrier).select sys objects = .ok [looseCarrier] := rfl
  obtain ⟨c', hbuild, halike⟩ := hdraft d looseCarrier.types offers hmem looseCarrier rfl
  have hpools : List.Forall₂ Candidate.OffersAlike (ofOne looseCarrier).candidates
      (ofOne c').candidates := .cons halike .nil
  obtain ⟨hlists, -⟩ := hlists (ofOne c') hpools
  obtain ⟨hobjects, hids⟩ := hobjects (ofOne c') hpools
  refine ⟨by decide +kernel, by decide, hfailed, hmem, c', hbuild, halike, hlists.1 hfailed, ?_⟩
  cases hout : (ofOne c').select sys objects with
  | error e =>
    obtain ⟨e, he⟩ := hobjects.2 ⟨e, hout⟩
    cases hfound.symm.trans he
  | ok out => exact ⟨out, rfl, hids _ _ hfound hout⟩

end Pool

end Wiring
