import Wiring.Proofs.Hierarchy.Saturated
import Wiring.Proofs.Subtyping.Ground
/-!
# Subtyping as a relation

`IsSubtype` is subtyping with fuel enough. One step of it is a relation again, given the answers to
the smaller questions: `Contains` for containment of arguments, `Below` for rigid types. A positive
answer with some fuel is such a step (`Unambiguous.below_of_within`), and such a step leads to a
positive answer (`Unambiguous.isSubtype_of_below`).
-/

namespace Wiring

/-- If the type is a wildcard, it has at most one bound. -/
def Ty.boundedOnce : Ty → Bool
  | .wildcard (some _) (some _) => false
  | _ => true

theorem Ty.boundedOnce_of_not_wildcard {t : Ty} (h : t.isWildcard = false) :
    t.boundedOnce = true := by
  cases t with
  | wildcard upper lower => cases h
  | _ => rfl

namespace ClassTable

variable {s : ClassTable} {n : Nat} {c d : ClassId} {args as targetArgs : List Ty}
  {t u v container arg : Ty}

/-- `t` is found to be a subtype of `u` with the given fuel. -/
def SubtypeWithin (s : ClassTable) (n : Nat) (t u : Ty) : Prop := s.subtype? n t u = some true

instance : Decidable (s.SubtypeWithin n t u) :=
  inferInstanceAs (Decidable (s.subtype? n t u = some true))

/-- `t` is a subtype of `u`. -/
def IsSubtype (s : ClassTable) (t u : Ty) : Prop := Settles (fun n => s.subtype? n t u) true

theorem SubtypeWithin.mono {m : Nat} (h : s.SubtypeWithin n t u) (hnm : n ≤ m) :
    s.SubtypeWithin m t u :=
  subtype?_mono hnm t u true h

theorem SubtypeWithin.isSubtype (h : s.SubtypeWithin n t u) : s.IsSubtype t u :=
  settles_subtype? h

theorem IsSubtype.exists_within (h : s.IsSubtype t u) : ∃ n, s.SubtypeWithin n t u := by
  obtain ⟨n, hn⟩ := h
  exact ⟨n, hn n (Nat.le_refl n)⟩

theorem not_isSubtype (h : s.subtype? n t u = some false) : ¬ s.IsSubtype t u := fun hsub => by
  have heq := hsub.unique (settles_subtype? h)
  cases heq

/-! ## Containment -/

/-- The argument `container` contains another, where `ask` tells which bounds are subtypes. -/
inductive Contains (ask : Ty → Ty → Prop) : (container arg : Ty) → Prop where
  | any (arg : Ty) : Contains ask (.wildcard none none) arg
  | upper {u u' : Ty} {lower : Option Ty} : ask u' u →
      Contains ask (.wildcard (some u) none) (.wildcard (some u') lower)
  | top (lower : Option Ty) :
      Contains ask (.wildcard (some ClassId.object.ty) none) (.wildcard none lower)
  | inUpper {u arg : Ty} : arg.isWildcard = false → ask arg u →
      Contains ask (.wildcard (some u) none) arg
  | lower {l l' : Ty} {upper : Option Ty} : ask l l' →
      Contains ask (.wildcard none (some l)) (.wildcard upper (some l'))
  | inLower {l arg : Ty} : arg.isWildcard = false → ask l arg →
      Contains ask (.wildcard none (some l)) arg
  | same {arg : Ty} : arg.isWildcard = false → Contains ask arg arg

namespace Contains

variable {ask ask' : Ty → Ty → Prop}

theorem mono (h : Contains ask container arg) (hask : ∀ t u, ask t u → ask' t u) :
    Contains ask' container arg := by
  cases h with
  | any => exact .any _
  | upper h => exact .upper (hask _ _ h)
  | top => exact .top _
  | inUpper hw h => exact .inUpper hw (hask _ _ h)
  | lower h => exact .lower (hask _ _ h)
  | inLower hw h => exact .inLower hw (hask _ _ h)
  | same hw => exact .same hw

/-- Only wildcards contain anything but themselves. -/
theorem eq_of_not_wildcard (h : Contains ask container arg) (hw : container.isWildcard = false) :
    arg = container := by
  cases h with
  | same => rfl
  | _ => cases hw

theorem of_contains? (h : contains? (s.subtype? n) container arg = some true) :
    Contains (s.SubtypeWithin n) container arg := by
  unfold contains? at h
  split at h
  case h_1 => exact .any _
  case h_2 => exact .upper h
  case h_3 =>
    obtain rfl : _ = ClassId.object.ty := by simpa using h
    exact .top _
  case h_4 hne hne' =>
    cases arg with
    | wildcard upper lower => cases upper <;> simp_all
    | _ => exact .inUpper rfl h
  case h_5 => exact .lower h
  case h_6 => cases h
  case h_7 hne hne' =>
    cases arg with
    | wildcard upper lower => cases lower <;> simp_all
    | _ => exact .inLower rfl h
  case h_8 => cases h
  case h_9 =>
    have hsame : container.sameType arg = true := by simpa using h
    simp only [Ty.sameType, Bool.and_eq_true, Bool.not_eq_true', beq_iff_eq] at hsame
    obtain ⟨⟨hw, -⟩, rfl⟩ := hsame
    exact .same hw

/-- A wildcard with two bounds contains nothing; any other argument contains itself. -/
theorem self (h : arg.boundedOnce = true) : Contains s.IsSubtype arg arg := by
  cases arg with
  | wildcard upper lower =>
    cases upper with
    | none =>
      cases lower with
      | none => exact .any _
      | some l => exact .lower (settles_subtype?_self l)
    | some u =>
      cases lower with
      | none => exact .upper (settles_subtype?_self u)
      | some l => cases h
  | _ => exact .same rfl

theorem settles (h : Contains s.IsSubtype container arg) :
    Settles (fun n => contains? (s.subtype? n) container arg) true := by
  cases h with
  | any => exact (Settles.const true).congr fun n => by cases arg <;> rfl
  | upper h => exact h
  | top => exact (Settles.const true).congr fun n => by simp [contains?]
  | inUpper hw h => exact h.congr fun n => (contains?_upper _ _ hw).symm
  | lower h => exact h.congr fun n => by cases ‹Option Ty› <;> rfl
  | inLower hw h => exact h.congr fun n => (contains?_lower _ _ hw).symm
  | same hw =>
    refine (Settles.const true).congr fun n => ?_
    rw [contains?_of_not_wildcard _ hw]
    simp [Ty.sameType, hw]

end Contains

/-- Arguments contain themselves. -/
theorem contains_self (h : ∀ a ∈ args, a.boundedOnce = true) :
    ∀ pair ∈ args.zip args, Contains s.IsSubtype pair.1 pair.2 := by
  intro pair hpair
  have hzip : args.zip args = args.map fun a => (a, a) := by
    simpa using List.zip_map' (f := id) (g := id) (l := args)
  rw [hzip, List.mem_map] at hpair
  obtain ⟨a, ha, rfl⟩ := hpair
  exact .self (h a ha)

/-! ## One step -/

/-- A type that subtyping does not unfold: neither a variable nor an intersection. Class types have
all their arguments. -/
inductive Rigid (s : ClassTable) : Ty → Prop where
  | primitive (p : Primitive) : Rigid s (.primitive p)
  | array (t : Ty) : Rigid s (.array t)
  | declared {c : ClassId} {args : List Ty} : s.Takes c args → Rigid s (.declared c args)
  | wildcard (upper lower : Option Ty) : Rigid s (.wildcard upper lower)

theorem Saturated.rigid (h : s.Saturated t) : s.Rigid t := by
  cases h with
  | primitive p => exact .primitive p
  | array _ => exact .array _
  | declared htakes _ _ => exact .declared htakes
  | wildcard _ _ _ _ => exact .wildcard _ _

theorem FullyApplied.rigid (h : s.FullyApplied [] t) : s.Rigid t := by
  cases h with
  | primitive p => exact .primitive p
  | array _ => exact .array _
  | var hv => cases hv
  | declared hd hlen _ => exact .declared ⟨_, hd, hlen⟩

/-- One step of subtyping between rigid types. -/
inductive Below (s : ClassTable) (ask : Ty → Ty → Prop) : (sub sup : Ty) → Prop where
  | self (t : Ty) : Below s ask t t
  | widens {p q : Primitive} : p.widensTo q = true → Below s ask (.primitive p) (.primitive q)
  | component {t u : Ty} : t.isReference = true → u.isReference = true → ask t u →
      Below s ask (.array t) (.array u)
  | array {t : Ty} {d : ClassId} : .declared d [] ∈ arraySupertypes →
      Below s ask (.array t) (.declared d [])
  | climbs {c d : ClassId} {args as targetArgs : List Ty} :
      Climbs s.supertypes (.declared c args) (.declared d as) → as.length = targetArgs.length →
      (∀ pair ∈ targetArgs.zip as, Contains ask pair.1 pair.2) →
      Below s ask (.declared c args) (.declared d targetArgs)

theorem Below.mono {ask ask' : Ty → Ty → Prop} (h : Below s ask t u)
    (hask : ∀ t u, ask t u → ask' t u) : Below s ask' t u := by
  cases h with
  | self => exact .self t
  | widens h => exact .widens h
  | component ht hu h => exact .component ht hu (hask _ _ h)
  | array hd => exact .array hd
  | climbs hclimb hlen hargs =>
    exact .climbs hclimb hlen fun pair hpair => (hargs pair hpair).mono hask

theorem componentSubtype?_of_reference (ask : Ty → Ty → Option Bool) (ht : t.isReference = true)
    (hu : u.isReference = true) : componentSubtype? ask t u = ask t u := by
  cases t with
  | primitive p => cases ht
  | _ =>
    cases u with
    | primitive p => cases hu
    | _ => rfl

theorem reference_of_componentSubtype? {ask : Ty → Ty → Option Bool} (hne : t ≠ u)
    (h : componentSubtype? ask t u = some true) : t.isReference = true ∧ u.isReference = true := by
  cases t with
  | primitive p =>
    cases u with
    | primitive q => exact absurd (congrArg Ty.primitive (by simpa [componentSubtype?] using h)) hne
    | _ => cases h
  | _ =>
    cases u with
    | primitive q => cases h
    | _ => exact ⟨rfl, rfl⟩

theorem isSubtype_array (h : .declared d [] ∈ arraySupertypes) :
    s.IsSubtype (.array t) (.declared d []) := by
  simp only [arraySupertypes, ClassId.ty, List.mem_cons, Ty.declared.injEq, and_true,
    List.not_mem_nil, or_false] at h
  have hstep (n : Nat) : s.subtype? (n + 1) (.array t) (.declared d []) = some true := by
    rw [subtype?_of_ne (by simp)]
    simp [unequalStep, h]
  exact Settles.of_succ ((Settles.const true).congr fun n => (hstep n).symm)

theorem IsSubtype.array (ht : t.isReference = true) (hu : u.isReference = true)
    (h : s.IsSubtype t u) : s.IsSubtype (.array t) (.array u) := by
  by_cases htu : t = u
  · subst htu
    exact settles_subtype?_self _
  · refine Settles.of_succ (h.congr fun n => ?_)
    rw [subtype?_array htu, componentSubtype?_of_reference _ ht hu]

theorem SubtypeWithin.component (hne : t ≠ u) (h : s.SubtypeWithin (n + 1) (.array t) (.array u)) :
    t.isReference = true ∧ u.isReference = true ∧ s.SubtypeWithin n t u := by
  rw [SubtypeWithin, subtype?_array hne] at h
  obtain ⟨htr, hur⟩ := reference_of_componentSubtype? hne h
  rw [componentSubtype?_of_reference _ htr hur] at h
  exact ⟨htr, hur, h⟩

/-- Few class types are above arrays, and all of them are raw. -/
theorem SubtypeWithin.array (h : s.SubtypeWithin (n + 1) (.array t) (.declared d targetArgs)) :
    targetArgs = [] ∧ .declared d [] ∈ arraySupertypes := by
  rw [SubtypeWithin, subtype?_of_ne (by simp)] at h
  simp only [unequalStep, Option.some.injEq, Bool.and_eq_true, List.isEmpty_iff,
    List.contains_iff_mem] at h
  exact ⟨h.1, by simpa [arraySupertypes, ClassId.ty] using h.2⟩

/-- A class type is below whatever contains the arguments above it. -/
theorem Ordered.isSubtype_of_climbs (hs : s.Ordered) (hone : s.OneInstance (.declared c args))
    (hclimb : Climbs s.supertypes (.declared c args) (.declared d as))
    (hlen : as.length = targetArgs.length)
    (hargs : ∀ pair ∈ targetArgs.zip as, Contains s.IsSubtype pair.1 pair.2) :
    s.IsSubtype (.declared c args) (.declared d targetArgs) := by
  refine hs.settles_subtype?_of_climbs hone hclimb ?_ fun _ => rfl
  have hall : Settles (fun n => (targetArgs.zip as).allM fun pair =>
      contains? (s.subtype? n) pair.1 pair.2) true :=
    Settles.allM fun pair hpair => (hargs pair hpair).settles
  by_cases hne : targetArgs = []
  · exact (Settles.const true).congr fun n => by simp [viewSubtype?, hne]
  · exact hall.congr fun n => by simp [viewSubtype?, hne, hlen]

namespace Unambiguous

variable (hs : s.Unambiguous)

include hs

/-- A climb that has an answer found what stands above. -/
theorem climbs_of_view? {view : Option (List Ty)} (h : s.Takes c args)
    (hview : s.view? n c args d = some view) :
    view = some as ↔ Climbs s.supertypes (.declared c args) (.declared d as) := by
  obtain ⟨view', hsettles, hclimbs⟩ := hs.exists_view? h d
  have heq : view' = view := hsettles.unique (settles_view? hview)
  rw [← heq]
  exact hclimbs as

theorem below_of_declared (hc : s.Takes c args) (hd : s.Takes d targetArgs)
    (h : s.SubtypeWithin (n + 1) (.declared c args) (.declared d targetArgs)) :
    Below s (s.SubtypeWithin n) (.declared c args) (.declared d targetArgs) := by
  by_cases hne : Ty.declared c args = .declared d targetArgs
  · rw [hne]
    exact .self _
  by_cases hobject : d = .object ∧ targetArgs = []
  · obtain ⟨rfl, rfl⟩ := hobject
    exact .climbs (hs.climbs_object hc) rfl (by simp)
  rw [SubtypeWithin, subtype?_declared hne hobject] at h
  obtain ⟨view, hview, h⟩ := Option.bind_eq_some_iff.1 h
  cases view with
  | none => cases h
  | some as =>
    have hclimb := (hs.climbs_of_view? hc hview).1 rfl
    have hlen := hs.length_of_climbs hc hd hclimb
    refine .climbs hclimb hlen fun pair hpair => ?_
    have hne : targetArgs ≠ [] := List.ne_nil_of_mem (List.of_mem_zip hpair).1
    simp only [viewSubtype?, List.isEmpty_iff, hne, hlen, if_false, ne_eq, not_true] at h
    exact .of_contains? (SettledBy.forall_of_allM h pair hpair)

/-- **A positive answer is a step.** -/
theorem below_of_within (ht : s.Rigid t) (hu : s.Rigid u)
    (h : s.SubtypeWithin (n + 1) t u) : Below s (s.SubtypeWithin n) t u := by
  by_cases hne : t = u
  · rw [hne]
    exact .self u
  have hstep := (subtype?_of_ne hne).symm.trans h
  cases ht with
  | primitive p =>
    cases hu with
    | primitive q => exact .widens (Option.some.inj hstep)
    | _ => cases hstep
  | array t =>
    cases hu with
    | array u =>
      obtain ⟨htr, hur, h⟩ := h.component fun heq => hne (congrArg Ty.array heq)
      exact .component htr hur h
    | declared _ =>
      obtain ⟨rfl, hd⟩ := h.array
      exact .array hd
    | _ => cases hstep
  | declared hc =>
    cases hu with
    | declared hd => exact hs.below_of_declared hc hd h
    | _ => cases hstep
  | wildcard _ _ => cases hstep

/-- **A step leads to a positive answer.** -/
theorem isSubtype_of_below (ht : s.Rigid t) (h : Below s s.IsSubtype t u) :
    s.IsSubtype t u := by
  cases h with
  | self => exact settles_subtype?_self _
  | @widens p q h =>
    by_cases hne : Ty.primitive p = .primitive q
    · rw [hne]
      exact settles_subtype?_self _
    · exact Settles.of_succ ((Settles.const true).congr fun n =>
        ((subtype?_of_ne hne).trans (congrArg some h)).symm)
  | component htr hur h => exact h.array htr hur
  | array h => exact isSubtype_array h
  | climbs hclimb hlen hargs =>
    cases ht with
    | declared htakes =>
      exact hs.ordered.isSubtype_of_climbs (hs.oneInstance htakes) hclimb hlen hargs

/-- **Two steps compose** if two between array components do, and two between class types. What is
above an array besides arrays is above it in one step. -/
theorem isSubtype_of_steps {m : Nat} (ht : s.Rigid t) (htu : Below s (s.SubtypeWithin n) t u)
    (huv : Below s (s.SubtypeWithin m) u v)
    (hcomponent : ∀ x y z, t = .array x → u = .array y → v = .array z →
      s.SubtypeWithin n x y → s.SubtypeWithin m y z → s.IsSubtype x z)
    (hdeclared : ∀ c d e args middle targetArgs, t = .declared c args → u = .declared d middle →
      v = .declared e targetArgs → s.IsSubtype t v) :
    s.IsSubtype t v := by
  have hstep := hs.isSubtype_of_below (u := v) ht
  cases htu with
  | self => exact hstep (huv.mono fun _ _ hask => hask.isSubtype)
  | widens hpq =>
    cases huv with
    | self => exact hstep (.widens hpq)
    | widens hqr => exact hstep (.widens (Primitive.widensTo_trans hpq hqr))
  | component htr hur hask =>
    cases huv with
    | self => exact hstep (.component htr hur hask.isSubtype)
    | component _ hvr hask' =>
      exact hstep (.component htr hvr (hcomponent _ _ _ rfl rfl rfl hask hask'))
    | array hd => exact hstep (.array hd)
  | array hd =>
    cases huv with
    | self => exact hstep (.array hd)
    | @climbs _ e _ as targetArgs hclimb hlen _ =>
      have hmem := hs.closedUnder_arraySupertypes.mem hd hclimb
      obtain ⟨_, heq⟩ := raw_of_mem_arraySupertypes hmem
      cases heq
      obtain rfl : targetArgs = [] := List.length_eq_zero_iff.1 hlen.symm
      exact hstep (.array hmem)
  | climbs hclimb hlen hargs =>
    cases huv with
    | self =>
      exact hstep (.climbs hclimb hlen fun pair hpair =>
        (hargs pair hpair).mono fun _ _ hask => hask.isSubtype)
    | climbs _ _ _ => exact hdeclared _ _ _ _ _ _ rfl rfl rfl

end Unambiguous

end ClassTable

end Wiring
