import Wiring.ClassTable.Subtyping
import Wiring.Proofs.Fuel
import Wiring.Proofs.Supertypes.Walk
/-!
# Views and closures

The climb to a class and the closure are two walks over the same supertypes. Where the closure
holds declared types only, the climb finds the first of them that is of the wanted class
(`view?_of_walks`).
-/

namespace Wiring

/-- The first type of class `c` in the list. -/
def firstOf (c : ClassId) (ts : List Ty) : Option Ty := ts.find? fun t => t.head? == some c

variable {c : ClassId} {t : Ty} {ts : List Ty}

theorem firstOf_eq_none_iff : firstOf c ts = none ↔ ∀ t ∈ ts, t.head? ≠ some c := by
  simp [firstOf]

theorem mem_of_firstOf (h : firstOf c ts = some t) : t ∈ ts :=
  List.mem_of_find?_eq_some h

theorem eq_declared_of_firstOf (h : firstOf c ts = some t) : ∃ args, t = .declared c args := by
  have hc : t.head? = some c := by simpa using List.find?_some h
  cases t with
  | declared d args =>
    cases hc
    exact ⟨args, rfl⟩
  | _ => cases hc

/-- The first type of a class is known by its arguments. -/
theorem map_args_firstOf (c : ClassId) (ts : List Ty) :
    ((firstOf c ts).map Ty.args).map (.declared c) = firstOf c ts := by
  cases h : firstOf c ts with
  | none => rfl
  | some t =>
    obtain ⟨args, rfl⟩ := eq_declared_of_firstOf h
    rfl

/-- What comes after the first type of a class does not matter. -/
theorem firstOf_of_prefix {us : List Ty} (hp : us ++ [t] <+: ts) (hus : ∀ u ∈ us, u.head? ≠ some c)
    (ht : t.head? = some c) : firstOf c ts = some t := by
  obtain ⟨rest, rfl⟩ := hp
  have hnone : us.find? (fun u => u.head? == some c) = none := by simpa using hus
  simp [firstOf, List.find?_append, hnone, ht]

namespace ClassTable

variable {s : ClassTable} {target : ClassId} {queue seen : List Ty}

/-- The climb follows the walk up to the first type of the wanted class. -/
theorem viewWalk_of_walks (h : Walks s.supertypes queue seen ts)
    (hdecl : ∀ t ∈ ts, ∃ c args, t = .declared c args)
    (hseen : ∀ t ∈ seen, t.head? ≠ some target) :
    Settles (fun n => s.viewWalk target n queue seen) ((firstOf target ts).map Ty.args) := by
  induction h with
  | done =>
    rw [firstOf_eq_none_iff.2 hseen]
    exact ⟨0, fun n _ => by cases n <;> rfl⟩
  | skip ht _ ih =>
    refine Settles.of_succ ((ih hdecl hseen).congr fun n => ?_)
    simp [viewWalk, ht]
  | @visit t queue seen ts ht hw ih =>
    obtain ⟨c, args, rfl⟩ := hdecl t (hw.prefix_seen.subset (by simp))
    by_cases hc : c = target
    · subst hc
      have hfirst : firstOf c ts = some (.declared c args) :=
        firstOf_of_prefix hw.prefix_seen hseen rfl
      refine Settles.of_succ ((Settles.const _).congr fun n => ?_)
      simp [viewWalk, ht, hfirst, Ty.args]
    · have hseen : ∀ u ∈ seen ++ [.declared c args], u.head? ≠ some target := by
        intro u hu
        rcases List.mem_append.1 hu with hu | hu
        · exact hseen u hu
        · rw [List.mem_singleton.1 hu]
          simpa [Ty.head?] using hc
      refine Settles.of_succ ((ih hdecl hseen).congr fun n => ?_)
      simp [viewWalk, ht, hc]

/-- **The view of a class type at a class** is the first type of that class in its closure. -/
theorem view?_of_walks {c : ClassId} {args : List Ty}
    (h : Walks s.supertypes [.declared c args] [] ts)
    (hdecl : ∀ t ∈ ts, ∃ c args, t = .declared c args) (target : ClassId) :
    Settles (fun n => s.view? n c args target) ((firstOf target ts).map Ty.args) :=
  viewWalk_of_walks h hdecl (by simp)

end ClassTable

end Wiring
