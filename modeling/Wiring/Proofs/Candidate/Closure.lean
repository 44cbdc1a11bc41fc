import Wiring.Proofs.Candidate.Draft
import Wiring.Proofs.Hierarchy.Base
import Wiring.Proofs.Matching.Faults
import Wiring.Proofs.Matching.Ground
/-!
# Offering a type with all its supertypes

What may be offered is decided by what stands for type arguments: neither a wildcard nor an
intersection, at any depth. Substitution keeps this (`Ty.checkOfferedArgs_subst`): what comes in the
place of a variable is an argument itself. So a type that may be offered has only such supertypes
where the declared ones hold no wildcard and no intersection, and a candidate can offer it with its
whole closure (`ClassTable.Ordered.build_closure`).
-/

namespace Wiring

namespace Ty

variable {c : ClassId} {args : List Ty} {t : Ty} {σ : TypeVarId → Ty}

/-- The type may stand for an argument in an offered type. -/
structure LegalArg (t : Ty) : Prop where
  not_wildcard : t.kind ≠ .wildcard
  not_intersection : t.kind ≠ .intersection
  args : t.checkOfferedArgs = .ok ()

theorem checkOfferedArgs_declared_iff :
    (Ty.declared c args).checkOfferedArgs = .ok () ↔ ∀ a ∈ args, a.LegalArg := by
  constructor
  · intro h
    replace h : checkOfferedArgList args = .ok () := h
    induction args with
    | nil => simp
    | cons a args ih =>
      obtain ⟨⟨hw, hi, ha⟩, hargs⟩ := checkOfferedArgList_cons h
      exact List.forall_mem_cons.2 ⟨⟨hw, hi, ha⟩, ih hargs⟩
  · intro h
    exact checkOfferedArgList_eq_ok fun a ha => ⟨(h a ha).1, (h a ha).2, (h a ha).3⟩

theorem legalArg_var (v : TypeVarId) : (Ty.var v).LegalArg :=
  ⟨nofun, nofun, rfl⟩

/-- Only a variable can become a type of another kind. -/
theorem kind_subst (h : t.kind ≠ .typeVariable) : (t.subst σ).kind = t.kind := by
  cases t with
  | var v => exact absurd rfl h
  | _ => rfl

theorem LegalArg.subst (h : t.LegalArg) (hσ : ∀ v, (σ v).LegalArg)
    (hargs : (t.subst σ).checkOfferedArgs = .ok ()) : (t.subst σ).LegalArg := by
  by_cases hv : t.kind = .typeVariable
  · obtain ⟨v, rfl⟩ : ∃ v, t = .var v := by
      cases t <;> first | exact ⟨_, rfl⟩ | cases hv
    exact hσ v
  · have hkind := kind_subst (σ := σ) hv
    exact ⟨hkind ▸ h.not_wildcard, hkind ▸ h.not_intersection, hargs⟩

/-- **Arguments in the place of variables keep a type legal**, in the places of arguments as in
those of components. -/
theorem checkOfferedArgs_subst (hσ : ∀ v, (σ v).LegalArg) (h : t.checkOfferedArgs = .ok ()) :
    (t.subst σ).checkOfferedArgs = .ok () := by
  induction t with
  | array t ih => exact ih h
  | declared c args ih =>
    have hargs := checkOfferedArgs_declared_iff.1 h
    rw [Ty.subst, substList_eq_map, checkOfferedArgs_declared_iff]
    simp only [List.mem_map, forall_exists_index, and_imp, forall_apply_eq_imp_iff₂]
    exact fun a ha => (hargs a ha).subst hσ (ih a ha (hargs a ha).args)
  | var v => exact (hσ v).args
  | _ => rfl

/-- A type without wildcards and intersections is legal. -/
theorem checkOfferedArgs_of_parts
    (h : ∀ u ∈ t.parts, u.kind ≠ .wildcard ∧ u.kind ≠ .intersection) :
    t.checkOfferedArgs = .ok () := by
  induction t with
  | array t ih => exact ih fun u hu => h u (mem_parts_array hu)
  | declared c args ih =>
    rw [checkOfferedArgs_declared_iff]
    intro a ha
    have hparts : ∀ u ∈ a.parts, u.kind ≠ .wildcard ∧ u.kind ≠ .intersection :=
      fun u hu => h u (mem_parts_declared ha hu)
    obtain ⟨hw, hi⟩ := hparts a a.self_mem_parts
    exact ⟨hw, hi, ih a ha hparts⟩
  | _ => rfl

end Ty

namespace ClassTable

variable {s : ClassTable} {t u : Ty}

/-- Declared supertypes hold neither wildcards nor intersections, at any depth. -/
def PlainSupers (s : ClassTable) : Prop :=
  ∀ c d, s.class? c = some d → ∀ t ∈ d.supers, ∀ u ∈ t.parts,
    u.kind ≠ .wildcard ∧ u.kind ≠ .intersection

theorem checkOffered_raw (c : ClassId) : (Ty.declared c []).checkOffered = .ok () := rfl

namespace Ordered

/-- One step from a type that may be offered leads to types that may be offered. A raw use has raw
supertypes; any other has the declared ones with arguments put in. -/
theorem checkOffered_of_mem_supertypes (hs : s.Ordered) (hp : s.PlainSupers)
    (ht : t.checkOffered = .ok ()) (hu : u ∈ s.supertypes t) : u.checkOffered = .ok () := by
  obtain ⟨hconcrete, hargs⟩ := Ty.checkOffered_eq_ok ht
  cases t with
  | primitive p => cases hu
  | array t =>
    obtain ⟨c, rfl⟩ := raw_of_mem_arraySupertypes hu
    exact checkOffered_raw c
  | declared c args =>
    obtain ⟨d, hd, ⟨t, hmem, rfl⟩ | ⟨-, rfl⟩⟩ := mem_supertypes_declared_iff.1 hu
    · obtain ⟨e, as, rfl, -⟩ := hs c d hd t hmem
      unfold instantiate
      split
      · rw [erasure_declared]
        exact checkOffered_raw e
      · have hσ (v : TypeVarId) : (Ty.ofParams d.params args v).LegalArg := by
          rcases Ty.ofParams_mem_or_eq d.params args v with hv | hv
          · exact Ty.checkOfferedArgs_declared_iff.1 hargs _ hv
          · rw [hv]
            exact Ty.legalArg_var v
        have hplain := Ty.checkOfferedArgs_of_parts (hp c d hd _ hmem)
        rw [Ty.checkOffered_of_isConcrete rfl]
        exact Ty.checkOfferedArgs_subst hσ hplain
    · exact checkOffered_raw _
  | var v => cases hconcrete
  | wildcard upper lower => cases hconcrete
  | intersection ts => cases hconcrete

/-- **A type can be offered with its closure.** If the type may be offered, so may all the types it
climbs to, and building a candidate that offers its closure succeeds: the candidate offers exactly
the closure, in this order and each type once. -/
theorem build_closure (hs : s.Ordered) (hp : s.PlainSupers) (ht : t.checkOffered = .ok ())
    (id : String) :
    ∃ ts c, Settles (fun n => (s.system n).closure? n t) ts ∧
      (∀ u ∈ ts, u.checkOffered = .ok ()) ∧
      Settles (fun n => ((Candidate.Draft.ofId id).offerClosure? (s.system n) n t).map
        Candidate.Draft.build) (.ok c) ∧
      c.id = id ∧ c.types = ts ∧ ts.Nodup := by
  obtain ⟨ts, hwalk, hts⟩ := hs.exists_closure? t
  have hnodup : ts.Nodup := hwalk.nodup List.nodup_nil
  have hlegal : ∀ u ∈ ts, u.checkOffered = .ok () :=
    hwalk.forall_mem (fun x hx y hy => hs.checkOffered_of_mem_supertypes hp hx hy)
      (by simpa using ht) (by simp)
  have htypes : ((Candidate.Draft.ofId id).offerAll ts).types = ts :=
    Candidate.Draft.types_offerAll hnodup
  have hsome : ts ≠ [] := List.ne_nil_of_mem (hwalk.queue_subset (List.mem_singleton_self t))
  obtain ⟨c, hc⟩ : ∃ c, ((Candidate.Draft.ofId id).offerAll ts).build = .ok c := by
    rw [Candidate.Draft.exists_build_iff, htypes]
    exact ⟨hsome, hlegal⟩
  have hdraft := Candidate.Draft.build_eq_ok_iff.1 hc
  refine ⟨ts, c, hts, hlegal, hts.mono fun n hn => ?_, ?_, ?_, hnodup⟩
  · simp only [Candidate.Draft.offerClosure?, hn, Option.map_some, hc]
  · have hbare := congrArg Candidate.Draft.bare hdraft
    rw [Candidate.Draft.bare_offerAll] at hbare
    exact (congrArg Candidate.Draft.id hbare).symm
  · exact (congrArg Candidate.Draft.types hdraft).symm.trans htypes

end Ordered

/-- `Grid<T> implements List<List<T[]>>`. -/
def grid : ClassTable :=
  base
    |>.addTypeVar ⟨"T", []⟩
    |>.addClass ⟨"Grid", .classKind, [⟨11⟩], some ClassId.object.ty,
      [.declared .list [.declared .list [.array (.var ⟨11⟩)]]]⟩

/-- The closure of `Grid<T[]>`: the array comes in the place of a component. -/
theorem build_closure_grid :
    let t : Ty := .declared ⟨23⟩ [.array (.var ⟨11⟩)]
    let row : Ty := .declared .list [.array (.array (.var ⟨11⟩))]
    grid.Ordered ∧ grid.PlainSupers ∧ t.checkOffered = .ok () ∧
      (grid.system 24).closure? 24 t =
        some [t, ClassId.object.ty, .declared .list [row], .declared .collection [row],
          .declared .iterable [row]] ∧
      ∃ ts c, Settles (fun n => (grid.system n).closure? n t) ts ∧
        (∀ u ∈ ts, u.checkOffered = .ok ()) ∧
        Settles (fun n => ((Candidate.Draft.ofId "grid").offerClosure? (grid.system n) n t).map
          Candidate.Draft.build) (.ok c) ∧
        c.id = "grid" ∧ c.types = ts ∧ ts.Nodup := by
  intro t row
  have hs : grid.Ordered := forall_class? (by decide)
  have hp : grid.PlainSupers := forall_class? (by decide)
  exact ⟨hs, hp, rfl, by decide +kernel, hs.build_closure hp rfl "grid"⟩

end ClassTable

end Wiring
