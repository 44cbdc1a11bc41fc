import Wiring.Proofs.Hierarchy.Base
import Wiring.Proofs.Subtyping.View
import Wiring.Proofs.Supertypes.Distance
/-!
# Closures in ordered hierarchies

What the closure of a type is, in an ordered table (`Ordered.closure?_spec`), and what the climb to
a class finds there (`Ordered.view?_spec`).
-/

namespace Wiring.ClassTable

/-- **The closure of a type**, with steps enough: it starts with the type, holds each type that this
climbs to once and nothing else, and has the nearer ones first. -/
theorem Ordered.closure?_spec {s : ClassTable} (hs : s.Ordered) (t : Ty) :
    ∃ ts, Settles (fun n => (s.system n).closure? n t) ts ∧ ts.head? = some t ∧ ts.Nodup ∧
      (∀ u, u ∈ ts ↔ Climbs s.supertypes t u) ∧
      ts.Pairwise (distance s.supertypes t · ≤ distance s.supertypes t ·) := by
  obtain ⟨ts, h, hsettles⟩ := hs.exists_closure? t
  exact ⟨ts, hsettles, h.head?, h.nodup List.nodup_nil, fun _ => h.mem_iff, h.sorted⟩

/-- `E extends Comparable<E>`: the bound names its own variable. -/
def selfBound : ClassTable := base.addTypeVar ⟨"E", [.declared .comparable [.var ⟨11⟩]]⟩

/-- The closure of `E` is `E`, `Comparable<E>`, `Object`. -/
theorem closure?_spec_selfBound :
    let t : Ty := .var ⟨11⟩
    selfBound.Ordered ∧
      (selfBound.system 4).closure? 4 t =
        some [t, .declared .comparable [t], ClassId.object.ty] ∧
      ∃ ts, Settles (fun n => (selfBound.system n).closure? n t) ts ∧ ts.head? = some t ∧
        ts.Nodup ∧ (∀ u, u ∈ ts ↔ Climbs selfBound.supertypes t u) ∧
        ts.Pairwise (distance selfBound.supertypes t · ≤ distance selfBound.supertypes t ·) := by
  intro t
  have hs : selfBound.Ordered := base_regular.ordered
  have hclosure : (selfBound.system 4).closure? 4 t =
      some [t, .declared .comparable [t], ClassId.object.ty] := by decide +kernel
  exact ⟨hs, hclosure, Ordered.closure?_spec hs t⟩

/-- **The climb to a class and the closure are one walk.** Both end, and the climb finds the first type
of the class that the closure holds; it finds nothing where the closure holds none. -/
theorem Ordered.view?_spec {s : ClassTable} (hs : s.Ordered) (c : ClassId) (args : List Ty)
    (target : ClassId) :
    ∃ ts view, Settles (fun n => (s.system n).closure? n (.declared c args)) ts ∧
      Settles (fun n => s.view? n c args target) view ∧
      view.map (.declared target) = ts.find? (fun t => t.head? == some target) ∧
      (view = none ↔ ∀ t ∈ ts, t.head? ≠ some target) := by
  obtain ⟨ts, h, hclosure⟩ := hs.exists_closure? (.declared c args)
  have hview : Settles (fun n => s.view? n c args target) ((firstOf target ts).map Ty.args) :=
    view?_of_walks h (hs.declared_of_walks h) target
  have hnone : (firstOf target ts).map Ty.args = none ↔ ∀ t ∈ ts, t.head? ≠ some target := by
    rw [Option.map_eq_none_iff, firstOf_eq_none_iff]
  exact ⟨ts, _, hclosure, hview, map_args_firstOf target ts, hnone⟩

/-- A class with two instances of `Comparable` above it. -/
def twoOrders : ClassTable :=
  base.addClass ⟨"Figure", .classKind, [], some ClassId.object.ty,
    [.declared .comparable [ClassId.string.ty], .declared .comparable [ClassId.integer.ty]]⟩

/-- The climb from `Figure` to `Comparable` finds `Comparable<String>`, which was declared first, and
not `Comparable<Integer>`. -/
theorem view?_spec_twoOrders :
    let strings : Ty := .declared .comparable [ClassId.string.ty]
    let integers : Ty := .declared .comparable [ClassId.integer.ty]
    twoOrders.Ordered ∧
      (twoOrders.system 8).closure? 8 (.declared ⟨23⟩ []) =
        some [.declared ⟨23⟩ [], ClassId.object.ty, strings, integers] ∧
      twoOrders.view? 8 ⟨23⟩ [] .comparable = some (some [ClassId.string.ty]) ∧
      ∃ ts view, Settles (fun n => (twoOrders.system n).closure? n (.declared ⟨23⟩ [])) ts ∧
        Settles (fun n => twoOrders.view? n ⟨23⟩ [] .comparable) view ∧
        view.map (.declared .comparable) = ts.find? (fun t => t.head? == some .comparable) ∧
        (view = none ↔ ∀ t ∈ ts, t.head? ≠ some .comparable) := by
  intro strings integers
  have hs : twoOrders.Ordered := forall_class? (by decide)
  have hclosure : (twoOrders.system 8).closure? 8 (.declared ⟨23⟩ []) =
      some [.declared ⟨23⟩ [], ClassId.object.ty, strings, integers] := by decide +kernel
  have hview : twoOrders.view? 8 ⟨23⟩ [] .comparable = some (some [ClassId.string.ty]) := by
    decide +kernel
  exact ⟨hs, hclosure, hview, Ordered.view?_spec hs ⟨23⟩ [] .comparable⟩

end Wiring.ClassTable
