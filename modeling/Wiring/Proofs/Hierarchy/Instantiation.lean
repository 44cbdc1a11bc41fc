import Wiring.Proofs.Hierarchy.Base
import Wiring.Proofs.Supertypes.Images
/-!
# Closures of instances

The closure of a generic class applied to arguments is that of the class applied to its own
parameters, with the arguments put in and repetitions left out (`WellScoped.closure?_applied`). All
the variables in the latter are parameters of the class, so that arguments are left as they are,
whatever variables they hold themselves.
-/

namespace Wiring

namespace Ty

variable {params : List TypeVarId} {args : List Ty}

/-- Parameters that are pairwise distinct go to the arguments, place by place. -/
theorem map_ofParams (hnodup : params.Nodup) (hlen : args.length = params.length) :
    params.map (ofParams params args) = args := by
  refine List.ext_getElem (by simp [hlen]) fun i hi hi' => ?_
  have hparam : i < params.length := by simpa using hi
  -- the image stands in the place of a variable that is the parameter itself
  have hvars : (params.map var).length = params.length := List.length_map _
  have hmem := ofParams_mem_zip hlen hvars (List.getElem_mem hparam)
  obtain ⟨j, hj, hpair⟩ := List.mem_iff_getElem.1 hmem
  simp only [List.getElem_zip, List.getElem_map, ofParams_self, Prod.mk.injEq, var.injEq] at hpair
  obtain rfl := hnodup.getElem_inj_iff.1 hpair.2
  rw [List.getElem_map, hpair.1]

end Ty

namespace ClassTable

variable {s : ClassTable} {c : ClassId} {d : ClassDecl} {args : List Ty} {t u : Ty}

namespace WellScoped

variable (hs : s.WellScoped)

include hs

/-- Supertypes hold no variables but those of the type. -/
theorem vars_of_mem_supertypes (h : s.Usable t) (hu : u ∈ s.supertypes t) : u.vars ⊆ t.vars := by
  obtain ⟨c, args, rfl⟩ : ∃ c args, t = .declared c args := by
    cases h <;> exact ⟨_, _, rfl⟩
  obtain ⟨d, hd, ⟨t, ht, rfl⟩ | ⟨-, rfl⟩⟩ := mem_supertypes_declared_iff.1 hu
  · unfold instantiate
    split
    · obtain ⟨e, as, rfl, -⟩ := hs.ordered c d hd t ht
      simp [Ty.vars]
    · rename_i hraw
      have hlen : args.length = d.params.length := by
        cases h with
        | raw =>
          have hparams : d.params = [] := by simpa using hraw
          rw [hparams]
          rfl
        | applied h => exact h.length_eq hd
      intro v hv
      obtain ⟨w, hw, hv⟩ := Ty.exists_of_mem_vars_subst hv
      have harg := Ty.ofParams_mem hlen (hs.vars_mem c d hd t ht w hw)
      simpa [Ty.vars] using ⟨_, harg, hv⟩
  · simp [ClassId.ty, Ty.vars]

theorem vars_of_climbs (h : s.Usable t) (hu : Climbs s.supertypes t u) : u.vars ⊆ t.vars := by
  induction hu with
  | refl => exact List.Subset.refl _
  | tail hclimb hstep ih =>
    exact List.Subset.trans
      (hs.vars_of_mem_supertypes (hs.usable_of_climbs h hclimb) hstep) ih

/-- The closure of an instance of a type is the image of its closure. -/
theorem settles_closure?_subst (h : s.Usable t) (σ : TypeVarId → Ty) {ts : List Ty}
    (hw : Walks s.supertypes [t] [] ts) :
    Settles (fun n => (s.system n).closure? n (t.subst σ)) (ts.map (Ty.subst σ)).eraseDups := by
  have hf : ∀ u ∈ ts, s.supertypes (u.subst σ) = (s.supertypes u).map (Ty.subst σ) := fun u hu =>
    hs.supertypes_subst (hs.usable_of_climbs h (hw.mem_iff.1 hu)) σ
  obtain ⟨N, hN⟩ := TypeSystem.closureWalk_of_walks (hw.map .start hf)
  exact ⟨N, fun n hn => hN n hn _ rfl⟩

/-- **Closures commute with instantiation.** -/
theorem closure?_applied (hd : s.class? c = some d) (hnodup : d.params.Nodup)
    (hlen : args.length = d.params.length) :
    d.params.map (Ty.ofParams d.params args) = args ∧
      ∃ ts, Settles (fun n => (s.system n).closure? n (.declared c (d.params.map .var))) ts ∧
        (∀ t ∈ ts, t.vars ⊆ d.params) ∧
        Settles (fun n => (s.system n).closure? n (.declared c args))
          (ts.map (Ty.subst (Ty.ofParams d.params args))).eraseDups := by
  have hmap := Ty.map_ofParams hnodup hlen
  have husable : s.Usable (.declared c (d.params.map .var)) := .applied (takes_params hd)
  obtain ⟨ts, hw, hts⟩ := hs.ordered.exists_closure? (.declared c (d.params.map .var))
  refine ⟨hmap, ts, hts, fun t ht => ?_, ?_⟩
  · refine List.Subset.trans (hs.vars_of_climbs husable (hw.mem_iff.1 ht)) ?_
    simp [Ty.vars, List.flatMap_map]
  · have hself : (Ty.declared c (d.params.map .var)).subst (Ty.ofParams d.params args) =
        .declared c args := by
      rw [Ty.subst, Ty.substList_eq_map, List.map_map]
      exact congrArg (Ty.declared c) hmap
    rw [← hself]
    exact hs.settles_closure?_subst husable _ hw

end WellScoped

/-- `Triple<A, B, C> implements List<A>, List<B>, List<C>`. -/
def triple : ClassTable :=
  base
    |>.addTypeVar ⟨"A", []⟩
    |>.addTypeVar ⟨"B", []⟩
    |>.addTypeVar ⟨"C", []⟩
    |>.addClass ⟨"Triple", .classKind, [⟨11⟩, ⟨12⟩, ⟨13⟩], some ClassId.object.ty,
      [.declared .list [.var ⟨11⟩], .declared .list [.var ⟨12⟩], .declared .list [.var ⟨13⟩]]⟩

/-- The closure of `Triple<B, C, C>`: the `B` that stands for `A` is not replaced again, and the two
lists of `C` are one type. -/
theorem closure?_applied_triple :
    let b : Ty := .var ⟨12⟩
    let c : Ty := .var ⟨13⟩
    let t : Ty := .declared ⟨23⟩ [b, c, c]
    let σ : TypeVarId → Ty := Ty.ofParams [⟨11⟩, ⟨12⟩, ⟨13⟩] [b, c, c]
    triple.WellScoped ∧
      (triple.system 24).closure? 24 t =
        some [t, ClassId.object.ty, .declared .list [b], .declared .list [c],
          .declared .collection [b], .declared .collection [c], .declared .iterable [b],
          .declared .iterable [c]] ∧
      ∃ ts, Settles (fun n => (triple.system n).closure? n
          (.declared ⟨23⟩ [.var ⟨11⟩, .var ⟨12⟩, .var ⟨13⟩])) ts ∧
        Settles (fun n => (triple.system n).closure? n t) (ts.map (Ty.subst σ)).eraseDups := by
  intro b c t σ
  have hs : triple.WellScoped :=
    ⟨forall_class? (by decide), forall_class? (by decide), forall_class? (by decide)⟩
  have hd : triple.class? ⟨23⟩ = some _ := rfl
  have hlen : [b, c, c].length = 3 := rfl
  obtain ⟨-, ts, hts, -, hclosure⟩ := WellScoped.closure?_applied hs hd (by decide) hlen
  exact ⟨hs, by decide +kernel, ts, hts, hclosure⟩

end ClassTable

end Wiring
