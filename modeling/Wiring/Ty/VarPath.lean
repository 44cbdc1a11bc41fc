import Wiring.Ty.Basic
/-!
# Paths of type variables

Unfolding a type variable leads into its bound, which may mention variables again. A `VarPath`
holds the variables being unfolded, none of them twice. Variables have 32-bit numbers, so a path
has only so much `room`, and each step uses some of it (`room_push_lt`): this is why unfolding
ends, whatever the bounds are.
-/

namespace Wiring

/-- Variables being unfolded, the innermost first. -/
structure VarPath where
  vars : List TypeVarId
  nodup : vars.Nodup

namespace VarPath

def empty : VarPath := ⟨[], .nil⟩

/-- The path one step further, through a variable that is not on it. -/
def push (path : VarPath) (v : TypeVarId) (h : v ∉ path.vars) : VarPath :=
  ⟨v :: path.vars, List.nodup_cons.2 ⟨h, path.nodup⟩⟩

/-- How many variables are not on the path. -/
def room (path : VarPath) : Nat := UInt32.size - path.vars.length

private theorem length_le_of_nodup_lt {ns : List Nat} {n : Nat} (hd : ns.Nodup)
    (hlt : ∀ m ∈ ns, m < n) : ns.length ≤ n := by
  induction n generalizing ns with
  | zero =>
    cases ns with
    | nil => simp
    | cons m ns => exact absurd (hlt m (by simp)) (by omega)
  | succ n ih =>
    have hrest : (ns.erase n).length ≤ n :=
      ih (hd.erase n) fun m hm => by
        have := (hd.mem_erase_iff).1 hm
        have := hlt m this.2
        omega
    by_cases h : n ∈ ns
    · rw [List.length_erase_of_mem h] at hrest
      omega
    · rw [List.erase_of_not_mem h] at hrest
      omega

theorem length_le (path : VarPath) : path.vars.length ≤ UInt32.size := by
  have hinj : ∀ v w : TypeVarId, v.raw.toNat = w.raw.toNat → v = w := by
    rintro ⟨v⟩ ⟨w⟩ h
    exact congrArg TypeVarId.mk (UInt32.toNat_inj.1 h)
  have hd : (path.vars.map (·.raw.toNat)).Nodup :=
    List.pairwise_map.2 (path.nodup.imp fun hne h => hne (hinj _ _ h))
  have := length_le_of_nodup_lt (n := UInt32.size) hd fun m hm => by
    obtain ⟨v, _, rfl⟩ := List.mem_map.1 hm
    exact v.raw.toNat_lt_size
  simpa using this

theorem room_push_lt (path : VarPath) (v : TypeVarId) (h : v ∉ path.vars) :
    (path.push v h).room < path.room := by
  have := (path.push v h).length_le
  simp only [room, push, List.length_cons] at *
  omega

end VarPath

end Wiring
