import Wiring.Ty.Basic
/-!
# Substitution

`Ty.subst σ t` replaces every variable `v` of `t` by `σ v`. Nothing binds variables inside a
type, so there is no capture: substitutions compose (`subst_subst`), and only the variables that
occur matter (`subst_congr`).
-/

namespace Wiring.Ty

mutual

/-- Replaces every variable by its image under `σ`. -/
def subst (σ : TypeVarId → Ty) : Ty → Ty
  | .primitive p => .primitive p
  | .array t => .array (t.subst σ)
  | .declared c ts => .declared c (substList σ ts)
  | .var v => σ v
  | .wildcard upper lower => .wildcard (substOption σ upper) (substOption σ lower)
  | .intersection ts => .intersection (substList σ ts)

def substList (σ : TypeVarId → Ty) : List Ty → List Ty
  | [] => []
  | t :: ts => t.subst σ :: substList σ ts

def substOption (σ : TypeVarId → Ty) : Option Ty → Option Ty
  | none => none
  | some t => some (t.subst σ)

end

@[simp] theorem substList_eq_map (σ : TypeVarId → Ty) (ts : List Ty) :
    substList σ ts = ts.map (subst σ) := by
  induction ts with
  | nil => rfl
  | cons t ts ih => simp [substList, ih]

@[simp] theorem substOption_eq_map (σ : TypeVarId → Ty) (o : Option Ty) :
    substOption σ o = o.map (subst σ) := by
  cases o <;> rfl

theorem subst_var_self (t : Ty) : t.subst .var = t := by
  have hlist {ts : List Ty} (h : ∀ t ∈ ts, t.subst .var = t) : ts.map (subst .var) = ts :=
    (List.map_congr_left h).trans (List.map_id _)
  have hoption {o : Option Ty} (h : ∀ t ∈ o, t.subst .var = t) : o.map (subst .var) = o := by
    cases o with
    | none => rfl
    | some t => simpa using h t rfl
  induction t with
  | primitive p => rfl
  | array t ih => simp [subst, ih]
  | declared c ts ih => simp [subst, hlist ih]
  | var v => rfl
  | wildcard a b iha ihb => simp [subst, hoption iha, hoption ihb]
  | intersection ts ih => simp [subst, hlist ih]

theorem subst_subst (σ τ : TypeVarId → Ty) (t : Ty) :
    (t.subst σ).subst τ = t.subst fun v => (σ v).subst τ := by
  induction t with
  | primitive p => rfl
  | array t ih => simp [subst, ih]
  | declared c ts ih => simpa [subst] using ih
  | var v => rfl
  | wildcard a b iha ihb =>
    simp only [subst, substOption_eq_map, Option.map_map, wildcard.injEq]
    exact ⟨Option.map_congr iha, Option.map_congr ihb⟩
  | intersection ts ih => simpa [subst] using ih

/-! ## Variables -/

mutual

/-- The variables of a type, with repetitions. -/
def vars : Ty → List TypeVarId
  | .primitive _ => []
  | .array t => t.vars
  | .declared _ ts => varsList ts
  | .var v => [v]
  | .wildcard upper lower => varsOption upper ++ varsOption lower
  | .intersection ts => varsList ts

def varsList : List Ty → List TypeVarId
  | [] => []
  | t :: ts => t.vars ++ varsList ts

def varsOption : Option Ty → List TypeVarId
  | none => []
  | some t => t.vars

end

@[simp] theorem varsList_eq_flatMap (ts : List Ty) : varsList ts = ts.flatMap vars := by
  induction ts with
  | nil => rfl
  | cons t ts ih => simp [varsList, ih]

@[simp] theorem varsOption_eq_flatMap (o : Option Ty) : varsOption o = o.toList.flatMap vars := by
  cases o <;> simp [varsOption]

theorem subst_congr {σ τ : TypeVarId → Ty} {t : Ty} (h : ∀ v ∈ t.vars, σ v = τ v) :
    t.subst σ = t.subst τ := by
  induction t with
  | primitive p => rfl
  | array t ih => simpa [subst] using ih h
  | declared c ts ih =>
    simp only [subst, substList_eq_map, declared.injEq, true_and]
    exact List.map_congr_left fun t ht =>
      ih t ht fun v hv => h v (by simpa [vars] using ⟨t, ht, hv⟩)
  | var v => exact h v (by simp [vars])
  | wildcard a b iha ihb =>
    simp only [subst, substOption_eq_map, wildcard.injEq]
    refine ⟨Option.map_congr fun t ht => iha t ht fun v hv => h v ?_,
      Option.map_congr fun t ht => ihb t ht fun v hv => h v ?_⟩
    · simp [vars, show a = some t from ht, hv]
    · simp [vars, show b = some t from ht, hv]
  | intersection ts ih =>
    simp only [subst, substList_eq_map, intersection.injEq]
    exact List.map_congr_left fun t ht =>
      ih t ht fun v hv => h v (by simpa [vars] using ⟨t, ht, hv⟩)

/-- What occurs after a substitution occurs in an image. -/
theorem exists_of_mem_vars_subst {σ : TypeVarId → Ty} {t : Ty} {v : TypeVarId}
    (h : v ∈ (t.subst σ).vars) : ∃ w ∈ t.vars, v ∈ (σ w).vars := by
  induction t with
  | primitive p => simp [subst, vars] at h
  | array t ih => exact ih h
  | var w => exact ⟨w, by simp [vars], h⟩
  | declared c ts ih | intersection ts ih =>
    simp only [subst, substList_eq_map, vars, varsList_eq_flatMap, List.mem_flatMap,
      List.mem_map] at h ⊢
    obtain ⟨_, ⟨t, ht, rfl⟩, hv⟩ := h
    obtain ⟨w, hw, hv⟩ := ih t ht hv
    exact ⟨w, ⟨t, ht, hw⟩, hv⟩
  | wildcard upper lower ihu ihl =>
    simp only [subst, substOption_eq_map, vars, varsOption_eq_flatMap, List.mem_append,
      List.mem_flatMap, Option.mem_toList, Option.map_eq_some_iff] at h ⊢
    obtain ⟨_, ⟨t, ht, rfl⟩, hv⟩ | ⟨_, ⟨t, ht, rfl⟩, hv⟩ := h
    · obtain ⟨w, hw, hv⟩ := ihu t ht hv
      exact ⟨w, .inl ⟨t, ht, hw⟩, hv⟩
    · obtain ⟨w, hw, hv⟩ := ihl t ht hv
      exact ⟨w, .inr ⟨t, ht, hw⟩, hv⟩

theorem vars_eq_nil_of_mem {c : ClassId} {args : List Ty} {t : Ty}
    (h : (Ty.declared c args).vars = []) (ht : t ∈ args) : t.vars = [] := by
  rw [vars, varsList_eq_flatMap, List.flatMap_eq_nil_iff] at h
  exact h t ht

theorem kind_ne_of_vars_eq_nil {t : Ty} (h : t.vars = []) : t.kind ≠ .typeVariable := by
  cases t with
  | var v => cases h
  | _ => exact nofun

/-! ## Arguments for parameters -/

/-- The substitution that sends each parameter to the argument in the same place. Parameters
without an argument stay; if a parameter is listed twice, the last place counts. -/
def ofParams (params : List TypeVarId) (args : List Ty) (v : TypeVarId) : Ty :=
  ((params.zip args).reverse.lookup v).getD (.var v)

section Params

variable {params : List TypeVarId} {args : List Ty} {v : TypeVarId}

private theorem exists_lookup {α : Type} {args : List α} (hlen : args.length = params.length)
    (hv : v ∈ params) : ∃ a ∈ args, (params.zip args).reverse.lookup v = some a := by
  cases h : (params.zip args).reverse.lookup v with
  | none =>
    have hnone := List.lookup_eq_none_iff.1 h
    rw [← List.map_fst_zip (Nat.le_of_eq hlen.symm), List.mem_map] at hv
    obtain ⟨pair, hpair, rfl⟩ := hv
    simpa using hnone pair (by simpa using hpair)
  | some a =>
    obtain ⟨l, l', hl, -⟩ := List.lookup_eq_some_iff.1 h
    have hmem : (v, a) ∈ params.zip args := by
      rw [← List.mem_reverse, hl]
      simp
    exact ⟨a, (List.of_mem_zip hmem).2, rfl⟩

/-- A parameter goes to one of the arguments. -/
theorem ofParams_mem (hlen : args.length = params.length) (hv : v ∈ params) :
    ofParams params args v ∈ args := by
  obtain ⟨a, ha, hlookup⟩ := exists_lookup hlen hv
  simpa [ofParams, hlookup] using ha

theorem ofParams_mem_or_eq (params : List TypeVarId) (args : List Ty) (v : TypeVarId) :
    ofParams params args v ∈ args ∨ ofParams params args v = .var v := by
  cases h : (params.zip args).reverse.lookup v with
  | none => exact .inr (by simp [ofParams, h])
  | some a =>
    obtain ⟨l, l', hl, -⟩ := List.lookup_eq_some_iff.1 h
    have hmem : (v, a) ∈ params.zip args := by
      rw [← List.mem_reverse, hl]
      simp
    exact .inl (by simpa [ofParams, h] using (List.of_mem_zip hmem).2)

private theorem lookup_map {α β : Type} (f : α → β) (l : List (TypeVarId × α)) :
    (l.map (Prod.map id f)).lookup v = (l.lookup v).map f := by
  induction l with
  | nil => rfl
  | cons pair l ih =>
    obtain ⟨w, a⟩ := pair
    by_cases h : v = w
    · subst h
      simp
    · have hb : (v == w) = false := by simpa using h
      simpa [List.lookup_cons, hb] using ih

/-- Changing the arguments changes the images of the parameters. -/
theorem ofParams_map (f : Ty → Ty) (hlen : args.length = params.length) (hv : v ∈ params) :
    ofParams params (args.map f) v = f (ofParams params args v) := by
  obtain ⟨a, -, hlookup⟩ := exists_lookup hlen hv
  rw [ofParams, ofParams, List.zip_map_right, ← List.map_reverse, lookup_map, hlookup]
  rfl

theorem ofParams_of_not_mem (hv : v ∉ params) : ofParams params args v = .var v := by
  cases h : (params.zip args).reverse.lookup v with
  | none => simp [ofParams, h]
  | some a =>
    obtain ⟨l, l', hl, -⟩ := List.lookup_eq_some_iff.1 h
    have hmem : (v, a) ∈ params.zip args := by
      rw [← List.mem_reverse, hl]
      simp
    exact absurd (List.of_mem_zip hmem).1 hv

/-- With two lists of arguments, a parameter goes to two that are in the same place. -/
theorem ofParams_mem_zip {more : List Ty} (hlen : args.length = params.length)
    (hmore : more.length = params.length) (hv : v ∈ params) :
    (ofParams params args v, ofParams params more v) ∈ args.zip more := by
  have hzip : (args.zip more).length = params.length := by simp [hlen, hmore]
  obtain ⟨pair, hpair, hlookup⟩ := exists_lookup hzip hv
  have hleft : ofParams params args v = pair.1 := by
    have hmap : params.zip args = (params.zip (args.zip more)).map (Prod.map id Prod.fst) := by
      rw [← List.zip_map_right, List.map_fst_zip (Nat.le_of_eq (hlen.trans hmore.symm))]
    rw [ofParams, hmap, ← List.map_reverse, lookup_map, hlookup]
    rfl
  have hright : ofParams params more v = pair.2 := by
    have hmap : params.zip more = (params.zip (args.zip more)).map (Prod.map id Prod.snd) := by
      rw [← List.zip_map_right, List.map_snd_zip (Nat.le_of_eq (hmore.trans hlen.symm))]
    rw [ofParams, hmap, ← List.map_reverse, lookup_map, hlookup]
    rfl
  rw [hleft, hright]
  exact hpair

/-- A class applied to its own parameters is left as it is declared. -/
theorem ofParams_self : ofParams params (params.map .var) = .var := by
  funext v
  cases h : (params.zip (params.map var)).reverse.lookup v with
  | none => simp [ofParams, h]
  | some a =>
    obtain ⟨l, l', hl, -⟩ := List.lookup_eq_some_iff.1 h
    have hmem : (v, a) ∈ params.zip (params.map var) := by
      rw [← List.mem_reverse, hl]
      simp
    have hzip : params.zip (params.map var) = params.map fun w => (w, .var w) := by
      simpa using List.zip_map' (f := id) (g := var) (l := params)
    rw [hzip, List.mem_map] at hmem
    obtain ⟨w, -, hw⟩ := hmem
    cases hw
    simp [ofParams, h]

/-- Any arguments may be replaced by as many as there are parameters. -/
theorem ofParams_complete (params : List TypeVarId) (args : List Ty) :
    ofParams params (params.map (ofParams params args)) = ofParams params args := by
  funext v
  by_cases hv : v ∈ params
  · have hmap : params.map (ofParams params args) =
        (params.map .var).map (Ty.subst (ofParams params args)) := by simp [subst]
    rw [hmap, ofParams_map _ (by simp) hv, ofParams_self, subst]
  · rw [ofParams_of_not_mem hv, ofParams_of_not_mem hv]

end Params

end Wiring.Ty
