import Wiring.Proofs.Annotations.Qualifiers
import Wiring.Proofs.Pool.Offers
/-!
# Selecting by qualifiers

What the rules for qualifiers mean for whole selections: it does not matter whether implied
qualifiers are written out (`select_impliedQualifiers`), more qualifiers select fewer candidates, and
a request for the qualifier of every candidate selects those that declare it or none
(`select_anyQualifier`).
-/

namespace Wiring

/-- The request with these qualifiers in place of its own. -/
def Request.withQualifiers (r : Request) (qualifiers : SortedSet Annotation) : Request :=
  { r with annotations := { r.annotations with qualifiers := qualifiers } }

/-- The candidate with the qualifiers it carries written out. -/
def Candidate.inFull (c : Candidate) : Candidate :=
  if c.annotations.qualifiers.isEmpty then
    { c with annotations := { c.annotations with qualifiers := Annotations.impliedCarried } }
  else c

namespace Request

variable {r : Request} {sys : TypeSystem} {c : Candidate} {required more : SortedSet Annotation}

/-- Declaring the implied qualifiers changes no comparison. -/
theorem selects_inFull (hbare : Annotations.ImpliedBare r.annotations.qualifiers) :
    r.selects sys c.inFull.types c.inFull.annotations =
      r.selects sys c.types c.annotations := by
  unfold Candidate.inFull
  split
  · rename_i hc
    have hq : r.qualifiersMatch
          { c.annotations with qualifiers := Annotations.impliedCarried } =
        r.qualifiersMatch c.annotations :=
      Annotations.answersQualifiers_impliedCarried hbare hc
    rw [selects, selects, hq]
    rfl
  · rfl

@[simp] theorem typesMatch_withQualifiers (ts : List Ty) :
    (r.withQualifiers required).typesMatch sys ts = r.typesMatch sys ts := by
  induction ts with
  | nil => rfl
  | cons t ts ih =>
    rw [typesMatch, typesMatch, ih]
    rfl

/-- A request without qualifiers is one for the default qualifier. -/
theorem selects_impliedRequired {carried : Annotations} (ts : List Ty)
    (hbare : Annotations.ImpliedBare carried.qualifiers) :
    (r.withQualifiers ∅).selects sys ts carried =
      (r.withQualifiers Annotations.impliedRequired).selects sys ts carried := by
  have hq : (r.withQualifiers ∅).qualifiersMatch carried =
      (r.withQualifiers Annotations.impliedRequired).qualifiersMatch carried :=
    Annotations.answersQualifiers_impliedRequired hbare
  simp only [selects, typesMatch_withQualifiers, hq]
  rfl

/-- Fewer qualifiers ask for less. -/
theorem isMetBy_of_subset (hsome : required.isEmpty = false) (hsub : ∀ a ∈ required, a ∈ more)
    (h : (r.withQualifiers more).isMetBy sys c = true) :
    (r.withQualifiers required).isMetBy sys c = true := by
  simp only [isMetBy, Bool.and_eq_true] at h ⊢
  exact ⟨⟨Annotations.answersQualifiers_mono hsome hsub h.1.1, h.1.2⟩, h.2⟩

end Request

namespace Pool

variable {sys : TypeSystem} {r r' : Request} {cs : List Candidate}
  {required more : SortedSet Annotation}

/-- Candidates and requests may be exchanged for others with which comparisons end alike. -/
theorem selectFrom_map {f : Candidate → Candidate}
    (h : ∀ c ∈ cs, r'.selects sys (f c).types (f c).annotations =
      r.selects sys c.types c.annotations) :
    selectFrom sys r' (cs.map f) = (selectFrom sys r cs).map (List.map f) := by
  induction cs with
  | nil => rfl
  | cons c cs ih =>
    obtain ⟨hc, hcs⟩ := List.forall_mem_cons.1 h
    rw [List.map_cons, selectFrom, selectFrom, hc, ih hcs]
    cases r.selects sys c.types c.annotations with
    | error e => rfl
    | ok selected =>
      cases selectFrom sys r cs with
      | error e => rfl
      | ok rest => cases selected <;> rfl

theorem selectFrom_inFull (hbare : Annotations.ImpliedBare r.annotations.qualifiers) :
    selectFrom sys r (cs.map Candidate.inFull) =
      (selectFrom sys r cs).map (List.map Candidate.inFull) :=
  selectFrom_map fun _ _ => Request.selects_inFull hbare

theorem selectFrom_congr
    (h : ∀ c ∈ cs, r'.selects sys c.types c.annotations = r.selects sys c.types c.annotations) :
    selectFrom sys r' cs = selectFrom sys r cs := by
  have hmap := selectFrom_map (f := fun c => c) h
  rw [List.map_id'] at hmap
  rw [hmap]
  cases selectFrom sys r cs <;> simp [Except.map]

/-- More qualifiers select fewer candidates, and fail alike. -/
theorem selectFrom_of_subset (hsome : required.isEmpty = false)
    (hsub : ∀ a ∈ required, a ∈ more) :
    (∀ e, selectFrom sys (r.withQualifiers more) cs = .error e ↔
        selectFrom sys (r.withQualifiers required) cs = .error e) ∧
      ∀ out, selectFrom sys (r.withQualifiers more) cs = .ok out →
        ∃ wide, selectFrom sys (r.withQualifiers required) cs = .ok wide ∧ out.Sublist wide := by
  refine ⟨fun e => ?_, fun out hout => ?_⟩
  · rw [selectFrom_eq_error_iff, selectFrom_eq_error_iff]
    exact Iff.rfl
  · obtain ⟨hall, rfl⟩ := selectFrom_eq_ok_iff_isMetBy.1 hout
    refine ⟨_, selectFrom_eq_ok_iff_isMetBy.2 ⟨hall, rfl⟩, ?_⟩
    exact List.monotone_filter_right cs fun c => Request.isMetBy_of_subset hsome hsub

/-- A candidate that offers a primitive type. -/
def primitiveCarrier (p : Primitive) (id : String) (qualifiers : SortedSet Annotation) :
    Candidate where
  id := id
  types := [.primitive p]
  annotations := ⟨qualifiers, ∅⟩
  alternate := false
  rank := 0
  offersSome := by simp
  distinct := by simp
  legal := fun t ht => by
    rw [List.mem_singleton.1 ht]
    rfl

/-- A request for a primitive type with these qualifiers. -/
def primitiveRequest (p : Primitive) (qualifiers : SortedSet Annotation) : Request :=
  ⟨.injection, .primitive p, ⟨qualifiers, ∅⟩, rfl⟩

/-! ## Implied qualifiers -/

/-- **Implied qualifiers are as good as declared ones.** Where annotations named like an implied
qualifier have no members, a candidate that declares no qualifiers answers the requests that it
answers when it declares the two implied ones, and a request without qualifiers is answered by the
candidates that answer the request for the default one. Who answers a request for qualifiers answers
one for some of them. So writing implied qualifiers out, in some candidates of a pool or in the
request, selects the same candidates or fails with the same error, and asking for more qualifiers
than some selects no candidate more. -/
theorem select_impliedQualifiers :
    (∀ (carried : Annotations) (required : SortedSet Annotation),
      Annotations.ImpliedBare required → carried.qualifiers.isEmpty = true →
        { carried with qualifiers := Annotations.impliedCarried }.answersQualifiers required =
          carried.answersQualifiers required) ∧
    (∀ carried : Annotations, Annotations.ImpliedBare carried.qualifiers →
      carried.answersQualifiers ∅ =
        carried.answersQualifiers Annotations.impliedRequired) ∧
    (∀ (carried : Annotations) (required more : SortedSet Annotation),
      required.isEmpty = false → (∀ a ∈ required, a ∈ more) →
        carried.answersQualifiers more = true → carried.answersQualifiers required = true) ∧
    ∀ (sys : TypeSystem) (pool : Pool) (r : Request),
      (∀ other : Pool, Annotations.ImpliedBare r.annotations.qualifiers →
        pool.candidates.map Candidate.inFull = other.candidates.map Candidate.inFull →
          (pool.select sys r).map (List.map Candidate.inFull) =
            (other.select sys r).map (List.map Candidate.inFull)) ∧
      ((∀ c ∈ pool.candidates, Annotations.ImpliedBare c.annotations.qualifiers) →
        pool.select sys (r.withQualifiers ∅) =
          pool.select sys (r.withQualifiers Annotations.impliedRequired)) ∧
      ∀ required more : SortedSet Annotation,
        required.isEmpty = false → (∀ a ∈ required, a ∈ more) →
          (∀ e, pool.select sys (r.withQualifiers more) = .error e ↔
            pool.select sys (r.withQualifiers required) = .error e) ∧
          ∀ out, pool.select sys (r.withQualifiers more) = .ok out →
            ∃ wide, pool.select sys (r.withQualifiers required) = .ok wide ∧
              out.Sublist wide := by
  refine ⟨fun _ _ => Annotations.answersQualifiers_impliedCarried,
    fun _ => Annotations.answersQualifiers_impliedRequired,
    fun _ _ _ => Annotations.answersQualifiers_mono, fun sys pool r => ⟨?_, ?_, ?_⟩⟩
  · intro other hbare hsame
    rw [select, select, ← selectFrom_inFull hbare, ← selectFrom_inFull hbare, hsame]
  · exact fun hbare => selectFrom_congr fun c hc => Request.selects_impliedRequired _ (hbare c hc)
  · exact fun required more => selectFrom_of_subset

/-- The candidate that declares nothing and the one that declares `@Any` and `@Default`, asked for
`@Any`, for both and for nothing. -/
theorem select_impliedQualifiers_int :
    let sys := ClassTable.base.system 0
    let any : SortedSet Annotation := .ofList [.any]
    let both := Annotations.impliedCarried
    let plain := primitiveCarrier .int "plain" ∅
    let full := primitiveCarrier .int "plain" both
    let r := primitiveRequest .int any
    (Annotations.ImpliedBare any ∧ Annotations.ImpliedBare both ∧ any.isEmpty = false ∧
        ∀ a ∈ any, a ∈ both) ∧
      full.annotations.answersQualifiers any = plain.annotations.answersQualifiers any ∧
      full.annotations.answersQualifiers ∅ =
        full.annotations.answersQualifiers Annotations.impliedRequired ∧
      full.annotations.answersQualifiers any = true ∧
      ((ofOne plain).select sys r).map (List.map Candidate.inFull) =
        ((ofOne full).select sys r).map (List.map Candidate.inFull) ∧
      (ofOne full).select sys (r.withQualifiers ∅) =
        (ofOne full).select sys (r.withQualifiers Annotations.impliedRequired) ∧
      ∃ wide, (ofOne full).select sys (r.withQualifiers any) = .ok wide ∧ [full].Sublist wide := by
  intro sys any both plain full r
  have hany : Annotations.ImpliedBare any := by
    intro a ha _
    rw [List.mem_singleton.1 (SortedSet.mem_ofList.1 ha)]
    rfl
  have hboth : Annotations.ImpliedBare both := by
    intro a ha _
    rcases Annotations.mem_impliedCarried.1 ha with rfl | rfl <;> rfl
  have hsub : ∀ a ∈ any, a ∈ both := by
    intro a ha
    rw [List.mem_singleton.1 (SortedSet.mem_ofList.1 ha)]
    exact Annotations.mem_impliedCarried.2 (.inl rfl)
  have hfull : ∀ c ∈ (ofOne full).candidates, Annotations.ImpliedBare c.annotations.qualifiers := by
    intro c hc
    rw [List.mem_singleton.1 hc]
    exact hboth
  have hselected : (ofOne full).select sys (r.withQualifiers both) = .ok [full] := rfl
  obtain ⟨hcarried, hrequired, hmono, hselect⟩ := select_impliedQualifiers
  obtain ⟨hspelling, -, -⟩ := hselect sys (ofOne plain) r
  obtain ⟨-, hunasked, hfewer⟩ := hselect sys (ofOne full) r
  exact ⟨⟨hany, hboth, rfl, hsub⟩, hcarried plain.annotations any hany rfl,
    hrequired full.annotations hboth, hmono full.annotations any both rfl hsub rfl,
    hspelling (ofOne full) hany rfl, hunasked hfull,
    (hfewer any both rfl hsub).2 [full] hselected⟩

/-! ## The qualifier of every candidate -/

/-- **A request for the qualifier of every candidate** is answered by who declares it and by who
declares no qualifier at all. Of the other candidates it selects none. -/
theorem select_anyQualifier (sys : TypeSystem) (pool : Pool) (r : Request) :
    (∀ carried : Annotations, carried.answersQualifiers (.ofList [.any]) = true ↔
      carried.qualifiers.isEmpty = true ∨ .any ∈ carried.qualifiers) ∧
    ∀ out, pool.select sys (r.withQualifiers (.ofList [.any])) = .ok out ↔
      (∀ c ∈ pool.candidates, ∀ t ∈ c.types, ∃ v, r.policy.accepts sys r.required t = .ok v) ∧
        out = pool.candidates.filter fun c =>
          (c.annotations.qualifiers.isEmpty || c.annotations.qualifiers.toList.contains .any) &&
            r.bindingsMatch c.annotations && c.types.any (r.isAnsweredBy sys) := by
  refine ⟨fun _ => Annotations.answersQualifiers_any_iff, fun out => ?_⟩
  have hq (c : Candidate) :
      (r.withQualifiers (.ofList [.any])).qualifiersMatch c.annotations =
        (c.annotations.qualifiers.isEmpty || c.annotations.qualifiers.toList.contains .any) := by
    rw [Bool.eq_iff_iff, Bool.or_eq_true, List.contains_iff_mem]
    exact Annotations.answersQualifiers_any_iff
  have hmet : (r.withQualifiers (.ofList [.any])).isMetBy sys = fun c =>
      (c.annotations.qualifiers.isEmpty || c.annotations.qualifiers.toList.contains .any) &&
        r.bindingsMatch c.annotations && c.types.any (r.isAnsweredBy sys) :=
    funext fun c => by
      rw [Request.isMetBy, hq]
      rfl
  rw [select, selectFrom_eq_ok_iff_isMetBy, hmet]
  exact Iff.rfl

/-- A candidate that declares a name and nothing else is not selected. -/
theorem select_anyQualifier_misses :
    let named := primitiveCarrier .int "primary" (.ofList [.named "primary"])
    let r := primitiveRequest .int (.ofList [.any])
    ¬ named.annotations.answersQualifiers (.ofList [.any]) ∧
      (ofOne named).select (ClassTable.base.system 0) r = .ok [] ∧
      (ofOne named).select (ClassTable.base.system 0) (r.withQualifiers named.annotations.qualifiers) =
        .ok [named] := by
  intro named r
  have hq : ¬ named.annotations.answersQualifiers (.ofList [.any]) := by
    decide
  exact ⟨hq, rfl, rfl⟩

end Pool

end Wiring
