import Mathlib.Data.List.Forall2
import Mathlib.Data.List.Nodup
import Wiring.Ty.Subst
/-!
# Instances of a type, place by place

A type fits another when the two differ in nothing but what stands in the places of the first one's
variables (`Fits`); `places` lists each of these variables with what stands in its place. One
substitution leads from the first type to the second when it sends every variable to all of these
(`Fits.subst_eq_iff`), so there is one just if no variable meets two different types
(`Fits.exists_subst_iff`).

Arrays count as a whole: their components have no places.
-/

namespace Wiring.Ty

mutual

/-- The variables that stand as arguments, at any depth of arguments, with the types in the same
places of the other type. -/
def places : (pattern target : Ty) → List (TypeVarId × Ty)
  | .var v, t => [(v, t)]
  | .declared _ ts, .declared _ us => placesList ts us
  | _, _ => []

def placesList : (patterns targets : List Ty) → List (TypeVarId × Ty)
  | t :: ts, u :: us => t.places u ++ placesList ts us
  | _, _ => []

end

/-- The types differ only in what stands in the places of the variables. -/
inductive Fits : (pattern target : Ty) → Prop where
  | var (v : TypeVarId) (t : Ty) : Fits (.var v) t
  | same {t : Ty} : t.vars = [] → Fits t t
  | declared {c : ClassId} {ts us : List Ty} : ts.length = us.length →
      (∀ pair ∈ ts.zip us, Fits pair.1 pair.2) → Fits (.declared c ts) (.declared c us)

variable {σ : TypeVarId → Ty} {t u : Ty} {ts us : List Ty}

theorem placesList_eq_flatMap (ts us : List Ty) :
    placesList ts us = (ts.zip us).flatMap fun pair => pair.1.places pair.2 := by
  induction ts generalizing us with
  | nil => rfl
  | cons t ts ih =>
    cases us with
    | nil => rfl
    | cons u us => simp [placesList, ih]

theorem mem_places_declared {c d : ClassId} {place : TypeVarId × Ty} :
    place ∈ (Ty.declared c ts).places (.declared d us) ↔
      ∃ pair ∈ ts.zip us, place ∈ pair.1.places pair.2 := by
  rw [places, placesList_eq_flatMap, List.mem_flatMap]

/-- The places are taken by the variables of the type, in their order. -/
theorem map_fst_places_sublist (t u : Ty) : ((t.places u).map Prod.fst).Sublist t.vars := by
  induction t generalizing u with
  | var v => simp [places, vars]
  | declared c ts ih =>
    cases u with
    | declared d us =>
      rw [places, vars]
      induction ts generalizing us with
      | nil => exact List.nil_sublist _
      | cons t ts ihts =>
        cases us with
        | nil => exact List.nil_sublist _
        | cons u us =>
          rw [placesList, varsList, List.map_append]
          exact (ih t (by simp) u).append (ihts (fun t ht => ih t (by simp [ht])) us)
    | _ => exact List.nil_sublist _
  | _ => simp [places]

theorem places_eq_nil (h : t.vars = []) (u : Ty) : t.places u = [] := by
  have hnil := map_fst_places_sublist t u
  rw [h, List.sublist_nil, List.map_eq_nil_iff] at hnil
  exact hnil

theorem subst_of_vars_eq_nil (h : t.vars = []) : t.subst σ = t := by
  conv_rhs => rw [← subst_var_self t]
  exact subst_congr (by simp [h])

theorem map_subst_eq_iff (hlen : ts.length = us.length) :
    ts.map (subst σ) = us ↔ ∀ pair ∈ ts.zip us, pair.1.subst σ = pair.2 := by
  rw [← List.forall₂_eq_eq_eq, List.forall₂_map_left_iff, List.forall₂_iff_zip]
  exact ⟨fun h pair hpair => h.2 hpair, fun h => ⟨hlen, fun {t u} hpair => h (t, u) hpair⟩⟩

namespace Fits

/-- **A substitution leads to the other type** when it sends each variable to what stands in its
places. -/
theorem subst_eq_iff (h : Fits t u) :
    t.subst σ = u ↔ ∀ place ∈ t.places u, σ place.1 = place.2 := by
  induction h with
  | var v t => simp [subst, places]
  | same hvars => simp [subst_of_vars_eq_nil hvars, places_eq_nil hvars]
  | @declared c ts us hlen _ ih =>
    rw [subst, substList_eq_map, declared.injEq, eq_self, true_and, map_subst_eq_iff hlen]
    simp only [mem_places_declared]
    constructor
    · rintro h place ⟨pair, hpair, hplace⟩
      exact (ih pair hpair).1 (h pair hpair) place hplace
    · exact fun h pair hpair => (ih pair hpair).2 fun place hplace => h place ⟨pair, hpair, hplace⟩

/-- **One substitution does** just if no variable meets two different types. -/
theorem exists_subst_iff (h : Fits t u) :
    (∃ σ, t.subst σ = u) ↔
      ∀ a ∈ t.places u, ∀ b ∈ t.places u, a.1 = b.1 → a.2 = b.2 := by
  constructor
  · rintro ⟨σ, hσ⟩ a ha b hb hab
    have hplaces := h.subst_eq_iff.1 hσ
    rw [← hplaces a ha, ← hplaces b hb, hab]
  · intro hsame
    refine ⟨fun v => ((t.places u).lookup v).getD (.var v), h.subst_eq_iff.2 fun place hplace => ?_⟩
    cases hlookup : (t.places u).lookup place.1 with
    | none =>
      have hnone := List.lookup_eq_none_iff.1 hlookup place hplace
      simp at hnone
    | some w =>
      obtain ⟨l, l', hl, -⟩ := List.lookup_eq_some_iff.1 hlookup
      have hmem : (place.1, w) ∈ t.places u := by
        rw [hl]
        simp
      simpa using hsame _ hmem _ hplace rfl

/-- A type in which no variable is repeated leads to all types that it fits. -/
theorem exists_subst_of_nodup (h : Fits t u) (hnodup : t.vars.Nodup) : ∃ σ, t.subst σ = u := by
  refine h.exists_subst_iff.2 fun a ha b hb hab => ?_
  have hnodup := (map_fst_places_sublist t u).nodup hnodup
  rw [List.inj_on_of_nodup_map hnodup ha hb hab]

end Fits

end Wiring.Ty
