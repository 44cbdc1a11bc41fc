import Wiring.Proofs.Subtyping.Settled
/-!
# Questions that turn round

A lower bound turns a question about subtypes round: `? super l` contains what `l` is below. What
stood on the left, and may have grown by climbing, stands on the right then. This is harmless as
long as the right side has no lower bound, or none is declared (`Founded.settled_of_lowerDepth`).
Otherwise a question may come down to itself (`subtype?_of_turn`).
-/

namespace Wiring.ClassTable

variable {s : ClassTable} {c d : ClassId} {t u : Ty}

/-- **The question is settled** if the right side has no lower bound in it, or the table declares
none. The left side may have lower bounds in both cases. -/
theorem Founded.settled_of_lowerDepth (hs : s.Founded) (h : u.lowerDepth = 0 ∨ s.NoLowerBounds) :
    s.Settled t u := by
  rcases h with hu | hn
  · -- nothing turns the question round, so that it does not matter what climbs on the left
    have hP : s.Inherited fun _ => True :=
      ⟨fun _ => trivial, fun _ _ _ => trivial, fun _ _ => trivial, fun _ => trivial,
        fun _ => trivial, fun _ _ _ _ => trivial⟩
    have hturn (l t : Ty) (hl : l.lowerDepth < 0) (_ : True) : s.Settled l t :=
      absurd hl (Nat.not_lt_zero _)
    exact (settled_of_inherited hs hP hturn u (Nat.le_of_eq hu)).1 t trivial
  · exact hs.settled hn t u

/-- A class that is a `d<? super u>`, where `u` is `d<? super c>`, leaves a question open: whether
it is below `u` comes down to the same question. -/
theorem subtype?_of_turn {m : Nat} (hu : u = .declared d [.wildcard none (some (.declared c []))])
    (hview : s.view? m c [] d = some (some [.wildcard none (some u)])) (n : Nat) :
    s.subtype? n (.declared c []) u = none := by
  subst hu
  induction n with
  | zero => rfl
  | succ n ih =>
    rw [subtype?_declared (by simp) (by simp)]
    cases hn : s.view? n c [] d with
    | none => rfl
    | some view =>
      rw [(settles_view? hn).unique (settles_view? hview)]
      simp [viewSubtype?, contains?, ih]

/-- `E extends Comparable<? super E>`, and a class `Turn` that is a
`Comparable<? super Comparable<? super Turn>>`. -/
def turning : ClassTable :=
  base
    |>.addTypeVar ⟨"E", [.declared .comparable [.wildcard none (some (.var ⟨11⟩))]]⟩
    |>.addClass ⟨"Turn", .classKind, [], some ClassId.object.ty, [.declared .comparable
      [.wildcard none (some (.declared .comparable
        [.wildcard none (some (.declared ⟨23⟩ []))]))]]⟩

theorem turning_founded : turning.Founded where
  ordered := forall_class? (by decide)
  acyclic := acyclic_of_concrete (forall_typeVar? (by decide))

/-- In `turning` a question without lower bounds on its right side is settled, though not all are;
in the base table a question may turn round twice. -/
theorem settled_of_lowerDepth_turning :
    let turn : Ty := .declared ⟨23⟩ []
    let listOfE : Ty := .declared .arrayList [.var ⟨11⟩]
    let comparables : Ty := .declared .list
      [.wildcard (some (.declared .comparable [.wildcard (some ClassId.object.ty) none])) none]
    let above (c : ClassId) (t : Ty) : Ty := .declared c [.wildcard none (some t)]
    turning.Founded ∧ ¬ turning.Settled turn (.declared .comparable [.wildcard none (some turn)]) ∧
      comparables.lowerDepth = 0 ∧ turning.Settled listOfE comparables ∧
      base.Founded ∧ base.NoLowerBounds ∧
      base.Settled (.declared .arrayList [above .collection ClassId.integer.ty])
        (.declared .list [.wildcard none (some (above .list ClassId.number.ty))]) := by
  intro turn listOfE comparables above
  have hview : turning.view? 8 ⟨23⟩ [] .comparable = some (some [.wildcard none (some
      (.declared .comparable [.wildcard none (some turn)]))]) := by decide
  have hopen : ¬ turning.Settled turn (.declared .comparable [.wildcard none (some turn)]) := by
    rintro ⟨v, n, hn⟩
    have hnone := (subtype?_of_turn rfl hview n).symm.trans (hn n (Nat.le_refl n))
    cases hnone
  exact ⟨turning_founded, hopen, by decide,
    Founded.settled_of_lowerDepth turning_founded (.inl (by decide)), base_founded,
    base_noLowerBounds, Founded.settled_of_lowerDepth base_founded (.inr base_noLowerBounds)⟩

end Wiring.ClassTable
