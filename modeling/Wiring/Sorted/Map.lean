/-!
# Sorted maps

A finite map as the list of its entries with increasing keys. As for sets, each map has one such
list, and writing a key again replaces its value.
-/

namespace Wiring

/-- A finite map, as the list of its entries in strictly increasing order of keys. -/
structure SortedMap (κ β : Type) [Ord κ] where
  toList : List (κ × β)
  sorted : toList.Pairwise fun p q => compare p.1 q.1 = .lt

namespace SortedMap

variable {κ β : Type} [Ord κ]

instance [DecidableEq κ] [DecidableEq β] : DecidableEq (SortedMap κ β) := fun s t =>
  decidable_of_iff (s.toList = t.toList) (by
    constructor
    · cases s; cases t; simp
    · rintro rfl; rfl)

def empty : SortedMap κ β := ⟨[], .nil⟩

instance : EmptyCollection (SortedMap κ β) := ⟨empty⟩

instance : Inhabited (SortedMap κ β) := ⟨empty⟩

@[simp] theorem toList_empty : (∅ : SortedMap κ β).toList = [] := rfl

def isEmpty (s : SortedMap κ β) : Bool := s.toList.isEmpty

/-- The value of a key. -/
def get? [BEq κ] (s : SortedMap κ β) (k : κ) : Option β := s.toList.lookup k

/-- Puts an entry in its place in a list with increasing keys. -/
def insertList (k : κ) (v : β) : List (κ × β) → List (κ × β)
  | [] => [(k, v)]
  | p :: ps =>
    match compare k p.1 with
    | .lt => (k, v) :: p :: ps
    | .eq => (k, v) :: ps
    | .gt => p :: insertList k v ps

private theorem key_mem_insertList {k : κ} {v : β} {ps : List (κ × β)} {q : κ × β}
    (h : q ∈ insertList k v ps) : q = (k, v) ∨ q ∈ ps := by
  induction ps with
  | nil => exact .inl (by simpa [insertList] using h)
  | cons p ps ih =>
    unfold insertList at h
    split at h
    · exact List.mem_cons.1 h
    · rcases List.mem_cons.1 h with h | h
      · exact .inl h
      · exact .inr (List.mem_cons_of_mem _ h)
    · rcases List.mem_cons.1 h with h | h
      · exact .inr (h ▸ List.mem_cons_self ..)
      · exact (ih h).imp_right (List.mem_cons_of_mem _)

theorem pairwise_insertList [Std.TransOrd κ] [Std.LawfulEqOrd κ] {k : κ} {v : β}
    {ps : List (κ × β)} (h : ps.Pairwise fun p q => compare p.1 q.1 = .lt) :
    (insertList k v ps).Pairwise fun p q => compare p.1 q.1 = .lt := by
  induction ps with
  | nil => simp [insertList]
  | cons p ps ih =>
    obtain ⟨hp, hps⟩ := List.pairwise_cons.1 h
    unfold insertList
    split
    · rename_i hkp
      refine List.pairwise_cons.2 ⟨fun q hq => ?_, h⟩
      rcases List.mem_cons.1 hq with rfl | hq
      · exact hkp
      · exact Std.TransCmp.lt_trans hkp (hp q hq)
    · rename_i hkp
      refine List.pairwise_cons.2 ⟨fun q hq => ?_, hps⟩
      rw [Std.LawfulEqOrd.eq_of_compare hkp]
      exact hp q hq
    · rename_i hkp
      refine List.pairwise_cons.2 ⟨fun q hq => ?_, ih hps⟩
      rcases key_mem_insertList hq with rfl | hq
      · exact Std.OrientedCmp.gt_iff_lt.1 hkp
      · exact hp q hq

/-- Writes a value under a key, in place of one that is there. -/
def insert [Std.TransOrd κ] [Std.LawfulEqOrd κ] (s : SortedMap κ β) (k : κ) (v : β) :
    SortedMap κ β :=
  ⟨insertList k v s.toList, pairwise_insertList s.sorted⟩

private theorem lookup_insertList [BEq κ] [LawfulBEq κ] [Std.TransOrd κ] [Std.LawfulEqOrd κ]
    {k k' : κ} {v : β} {ps : List (κ × β)} :
    (insertList k v ps).lookup k' = if k' == k then some v else ps.lookup k' := by
  have hcons (a : κ) (b : β) (qs : List (κ × β)) :
      ((a, b) :: qs).lookup k' = if k' == a then some b else qs.lookup k' := by
    rw [List.lookup_cons]
    cases k' == a <;> rfl
  induction ps with
  | nil => rw [insertList, hcons]
  | cons p ps ih =>
    obtain ⟨a, b⟩ := p
    unfold insertList
    split
    · rw [hcons]
    · rename_i h
      cases Std.LawfulEqOrd.eq_of_compare h
      rw [hcons, hcons]
      by_cases hk : k' == a <;> simp [hk]
    · rename_i h
      rw [hcons, hcons, ih]
      by_cases ha : k' == a
      · have hne : (k' == k) = false := by
          refine Bool.eq_false_iff.2 fun hk => ?_
          cases eq_of_beq ha
          cases eq_of_beq hk
          simp at h
        simp [ha, hne]
      · simp [ha]

/-- A key has the value written last, and other keys keep theirs. -/
theorem get?_insert [BEq κ] [LawfulBEq κ] [Std.TransOrd κ] [Std.LawfulEqOrd κ]
    (s : SortedMap κ β) (k k' : κ) (v : β) :
    (s.insert k v).get? k' = if k' == k then some v else s.get? k' :=
  lookup_insertList

section Unique

variable [BEq κ] [LawfulBEq κ] [Std.LawfulEqOrd κ] {k : κ} {v : β}

private theorem lookup_eq_some {ps : List (κ × β)}
    (h : ps.Pairwise fun p q => compare p.1 q.1 = .lt) :
    ps.lookup k = some v ↔ (k, v) ∈ ps := by
  induction ps with
  | nil => simp
  | cons p ps ih =>
    obtain ⟨hp, hps⟩ := List.pairwise_cons.1 h
    obtain ⟨k', v'⟩ := p
    rw [List.lookup_cons, List.mem_cons]
    cases hk : k == k' with
    | true =>
      cases eq_of_beq hk
      have hlater : (k, v) ∉ ps := fun hmem => by simpa using hp _ hmem
      simp [hlater, eq_comm]
    | false =>
      have hne : k ≠ k' := by simpa using hk
      simp [ih hps, hne]

theorem get?_eq_some_iff {s : SortedMap κ β} : s.get? k = some v ↔ (k, v) ∈ s.toList :=
  lookup_eq_some s.sorted

/-- Maps with the same value under every key are equal. -/
theorem ext [Std.TransOrd κ] {s t : SortedMap κ β} (h : ∀ k, s.get? k = t.get? k) : s = t := by
  have hirrefl (p : κ × β) : compare p.1 p.1 ≠ .lt := by simp
  have hnodup (s : SortedMap κ β) : s.toList.Nodup := by
    refine s.sorted.imp fun {p q} hlt => ?_
    rintro rfl
    exact hirrefl p hlt
  have hmem (p : κ × β) : p ∈ s.toList ↔ p ∈ t.toList := by
    rw [← get?_eq_some_iff, ← get?_eq_some_iff, h]
  have hperm := (List.perm_ext_iff_of_nodup (hnodup s) (hnodup t)).2 hmem
  have hlist : s.toList = t.toList := by
    refine hperm.eq_of_pairwise (fun p q _ _ hpq hqp => ?_) s.sorted t.sorted
    exact absurd (Std.TransCmp.lt_trans hpq hqp) (hirrefl p)
  cases s
  cases hlist
  rfl

end Unique

end SortedMap

end Wiring
