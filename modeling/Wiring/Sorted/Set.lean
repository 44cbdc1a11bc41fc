/-!
# Sorted sets

A finite set as the increasing list of its members. Each set has one such list, so equal sets
are equal values (`SortedSet.ext`), whatever the order in which the members came.
-/

namespace Wiring

/-- A finite set, as the strictly increasing list of its members. -/
structure SortedSet (α : Type) [Ord α] where
  toList : List α
  sorted : toList.Pairwise fun a b => compare a b = .lt

namespace SortedSet

variable {α : Type} [Ord α]

instance [DecidableEq α] : DecidableEq (SortedSet α) := fun s t =>
  decidable_of_iff (s.toList = t.toList) (by
    constructor
    · cases s; cases t; simp
    · rintro rfl; rfl)

instance : Membership α (SortedSet α) := ⟨fun s a => a ∈ s.toList⟩

theorem mem_def {s : SortedSet α} {a : α} : a ∈ s ↔ a ∈ s.toList := Iff.rfl

def empty : SortedSet α := ⟨[], .nil⟩

instance : EmptyCollection (SortedSet α) := ⟨empty⟩

instance : Inhabited (SortedSet α) := ⟨empty⟩

def isEmpty (s : SortedSet α) : Bool := s.toList.isEmpty

def size (s : SortedSet α) : Nat := s.toList.length

/-- Every member of `s` is in `t`. -/
def isSubset [BEq α] (s t : SortedSet α) : Bool := s.toList.all t.toList.contains

theorem isSubset_iff [DecidableEq α] {s t : SortedSet α} :
    s.isSubset t = true ↔ ∀ a ∈ s, a ∈ t := by
  simp [isSubset, mem_def]

/-- Puts a member in its place in an increasing list. -/
def insertList (a : α) : List α → List α
  | [] => [a]
  | b :: bs =>
    match compare a b with
    | .lt => a :: b :: bs
    | .eq => b :: bs
    | .gt => b :: insertList a bs

theorem mem_insertList [Std.LawfulEqOrd α] {a x : α} {bs : List α} :
    x ∈ insertList a bs ↔ x = a ∨ x ∈ bs := by
  induction bs with
  | nil => simp [insertList]
  | cons b bs ih =>
    unfold insertList
    split
    · simp
    · rename_i h
      rw [Std.LawfulEqOrd.eq_of_compare h]
      simp
    · simp only [List.mem_cons, ih]
      constructor
      · rintro (h | h | h)
        · exact .inr (.inl h)
        · exact .inl h
        · exact .inr (.inr h)
      · rintro (h | h | h)
        · exact .inr (.inl h)
        · exact .inl h
        · exact .inr (.inr h)

theorem pairwise_insertList [Std.TransOrd α] [Std.LawfulEqOrd α] {a : α} {bs : List α}
    (h : bs.Pairwise fun a b => compare a b = .lt) :
    (insertList a bs).Pairwise fun a b => compare a b = .lt := by
  induction bs with
  | nil => simp [insertList]
  | cons b bs ih =>
    obtain ⟨hb, hbs⟩ := List.pairwise_cons.1 h
    unfold insertList
    split
    · rename_i hab
      refine List.pairwise_cons.2 ⟨fun c hc => ?_, h⟩
      rcases List.mem_cons.1 hc with rfl | hc
      · exact hab
      · exact Std.TransCmp.lt_trans hab (hb c hc)
    · exact h
    · rename_i hab
      refine List.pairwise_cons.2 ⟨fun c hc => ?_, ih hbs⟩
      rcases mem_insertList.1 hc with rfl | hc
      · exact Std.OrientedCmp.gt_iff_lt.1 hab
      · exact hb c hc

variable [Std.TransOrd α] [Std.LawfulEqOrd α]

def insert (s : SortedSet α) (a : α) : SortedSet α :=
  ⟨insertList a s.toList, pairwise_insertList s.sorted⟩

def ofList (as : List α) : SortedSet α := as.foldl insert ∅

@[simp] theorem mem_insert {s : SortedSet α} {a x : α} : x ∈ s.insert a ↔ x = a ∨ x ∈ s :=
  mem_insertList

theorem mem_foldl_insert {as : List α} {s : SortedSet α} {x : α} :
    x ∈ as.foldl insert s ↔ x ∈ s ∨ x ∈ as := by
  induction as generalizing s with
  | nil => simp
  | cons a as ih =>
    rw [List.foldl_cons, ih, mem_insert, List.mem_cons]
    constructor
    · rintro ((h | h) | h)
      · exact .inr (.inl h)
      · exact .inl h
      · exact .inr (.inr h)
    · rintro (h | h | h)
      · exact .inl (.inr h)
      · exact .inl (.inl h)
      · exact .inr h

@[simp] theorem mem_ofList {as : List α} {x : α} : x ∈ ofList as ↔ x ∈ as := by
  rw [ofList, mem_foldl_insert]
  constructor
  · rintro (h | h)
    · cases h
    · exact h
  · exact .inr

private theorem toList_unique {as bs : List α}
    (ha : as.Pairwise fun a b => compare a b = .lt) (hb : bs.Pairwise fun a b => compare a b = .lt)
    (h : ∀ x, x ∈ as ↔ x ∈ bs) : as = bs := by
  induction as generalizing bs with
  | nil =>
    cases bs with
    | nil => rfl
    | cons b bs => simpa using (h b).2 (by simp)
  | cons a as ih =>
    cases bs with
    | nil => simpa using (h a).1 (by simp)
    | cons b bs =>
      obtain ⟨ha', has⟩ := List.pairwise_cons.1 ha
      obtain ⟨hb', hbs⟩ := List.pairwise_cons.1 hb
      have irrefl : ∀ x : α, compare x x ≠ .lt := fun x => by simp
      have heq : a = b := by
        rcases List.mem_cons.1 ((h a).1 (by simp)) with hab | hab
        · exact hab
        · rcases List.mem_cons.1 ((h b).2 (by simp)) with hba | hba
          · exact hba.symm
          · exact absurd (Std.TransCmp.lt_trans (ha' b hba) (hb' a hab)) (irrefl a)
      subst heq
      rw [ih has hbs fun x => ?_]
      constructor
      · intro hx
        rcases List.mem_cons.1 ((h x).1 (List.mem_cons_of_mem _ hx)) with rfl | hx'
        · exact absurd (ha' x hx) (irrefl x)
        · exact hx'
      · intro hx
        rcases List.mem_cons.1 ((h x).2 (List.mem_cons_of_mem _ hx)) with rfl | hx'
        · exact absurd (hb' x hx) (irrefl x)
        · exact hx'

/-- Sets with the same members are equal. -/
theorem ext {s t : SortedSet α} (h : ∀ a, a ∈ s ↔ a ∈ t) : s = t := by
  obtain ⟨as, ha⟩ := s
  obtain ⟨bs, hb⟩ := t
  simpa using toList_unique ha hb h

end SortedSet

end Wiring
