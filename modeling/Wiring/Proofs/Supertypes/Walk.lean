import Mathlib.Data.List.Nodup
import Mathlib.Logic.Relation
import Wiring.TypeSystem.Closure
/-!
# The breadth-first walk

A type climbs to the types it reaches by direct supertypes. When the walk of a closure ends, its
result holds exactly the types that the first one climbs to (`mem_closure?_iff`), each once
(`Walks.nodup`). `Walks` is the walk without its count of steps; it ends when all it may
visit lies in one finite list (`exists_walks`).
-/

namespace Wiring

/-- `u` is reached from `t` by going to a direct supertype any number of times. -/
def Climbs (next : Ty → List Ty) : Ty → Ty → Prop :=
  Relation.ReflTransGen fun t u => u ∈ next t

/-- The list holds the direct supertypes of its members. -/
def ClosedUnder (next : Ty → List Ty) (ts : List Ty) : Prop :=
  ∀ t ∈ ts, ∀ u ∈ next t, u ∈ ts

/-- The walk from `queue`, with `seen` behind it, ends with `ts`. -/
inductive Walks (next : Ty → List Ty) : (queue seen ts : List Ty) → Prop where
  | done {seen : List Ty} : Walks next [] seen seen
  | skip {t : Ty} {queue seen ts : List Ty} :
      t ∈ seen → Walks next queue seen ts → Walks next (t :: queue) seen ts
  | visit {t : Ty} {queue seen ts : List Ty} :
      t ∉ seen → Walks next (queue ++ next t) (seen ++ [t]) ts → Walks next (t :: queue) seen ts

/-- What the walk owes the types it has seen: their direct supertypes are seen too, or wait in the
queue. -/
def NoneLost (next : Ty → List Ty) (queue seen : List Ty) : Prop :=
  ∀ t ∈ seen, ∀ u ∈ next t, u ∈ seen ∨ u ∈ queue

variable {next : Ty → List Ty} {t u : Ty} {queue seen ts all : List Ty}

theorem ClosedUnder.mem (h : ClosedUnder next ts) (ht : t ∈ ts) (hu : Climbs next t u) :
    u ∈ ts := by
  induction hu with
  | refl => exact ht
  | tail _ hstep ih => exact h _ ih _ hstep

theorem ClosedUnder.append {more : List Ty} (h : ClosedUnder next ts) (hm : ClosedUnder next more) :
    ClosedUnder next (ts ++ more) := by
  intro t ht u hu
  rcases List.mem_append.1 ht with ht | ht
  · exact List.mem_append_left _ (h t ht u hu)
  · exact List.mem_append_right _ (hm t ht u hu)

theorem exists_closedUnder {us : List Ty} (h : ∀ u ∈ us, ∃ all, u ∈ all ∧ ClosedUnder next all) :
    ∃ all, us ⊆ all ∧ ClosedUnder next all := by
  induction us with
  | nil => exact ⟨[], by simp, by simp [ClosedUnder]⟩
  | cons u us ih =>
    obtain ⟨all, hu, hall⟩ := h u (by simp)
    obtain ⟨more, hus, hmore⟩ := ih fun x hx => h x (by simp [hx])
    refine ⟨all ++ more, ?_, hall.append hmore⟩
    exact List.cons_subset.2 ⟨by simp [hu], fun x hx => by simp [hus hx]⟩

/-- A list from which each step stays in it or leads into a closed list is part of a closed list. -/
theorem exists_closedUnder_of_core {core : List Ty}
    (h : ∀ t ∈ core, ∀ u ∈ next t, u ∈ core ∨ ∃ all, u ∈ all ∧ ClosedUnder next all) :
    ∃ all, core ⊆ all ∧ ClosedUnder next all := by
  have houter : ∀ u ∈ (core.flatMap next).filter (· ∉ core),
      ∃ all, u ∈ all ∧ ClosedUnder next all := by
    intro u hu
    rw [List.mem_filter, List.mem_flatMap, decide_eq_true_eq] at hu
    obtain ⟨⟨t, ht, hu⟩, hn⟩ := hu
    exact (h t ht u hu).resolve_left hn
  obtain ⟨more, hsub, hmore⟩ := exists_closedUnder houter
  refine ⟨core ++ more, List.subset_append_left _ _, fun t ht u hu => ?_⟩
  rcases List.mem_append.1 ht with ht | ht
  · by_cases hcore : u ∈ core
    · exact List.mem_append_left _ hcore
    · refine List.mem_append_right _ (hsub (List.mem_filter.2 ⟨?_, decide_eq_true hcore⟩))
      exact List.mem_flatMap.2 ⟨t, ht, hu⟩
  · exact List.mem_append_right _ (hmore t ht u hu)

namespace NoneLost

theorem start : NoneLost next queue [] := by
  simp [NoneLost]

theorem skip (h : NoneLost next (t :: queue) seen) (ht : t ∈ seen) : NoneLost next queue seen := by
  intro x hx u hu
  rcases h x hx u hu with hu | hu
  · exact Or.inl hu
  · rcases List.mem_cons.1 hu with rfl | hu
    · exact Or.inl ht
    · exact Or.inr hu

theorem visit (h : NoneLost next (t :: queue) seen) :
    NoneLost next (queue ++ next t) (seen ++ [t]) := by
  intro x hx u hu
  rcases List.mem_append.1 hx with hx | hx
  · rcases h x hx u hu with hu | hu
    · exact Or.inl (by simp [hu])
    · rcases List.mem_cons.1 hu with rfl | hu
      · exact Or.inl (by simp)
      · exact Or.inr (by simp [hu])
  · rw [List.mem_singleton] at hx
    subst hx
    exact Or.inr (by simp [hu])

end NoneLost

namespace Walks

/-- The walk only appends to what it has seen. -/
theorem prefix_seen (h : Walks next queue seen ts) : seen <+: ts := by
  induction h with
  | done => exact List.prefix_rfl
  | skip _ _ ih => exact ih
  | visit _ _ ih => exact (List.prefix_append _ _).trans ih

theorem nodup (h : Walks next queue seen ts) (hs : seen.Nodup) : ts.Nodup := by
  induction h with
  | done => exact hs
  | skip _ _ ih => exact ih hs
  | visit ht _ ih =>
    refine ih (hs.append (List.nodup_singleton _) ?_)
    simpa using ht

/-- What types pass on to their supertypes holds of everything the walk visits. -/
theorem forall_mem {P : Ty → Prop} (h : Walks next queue seen ts)
    (hP : ∀ t, P t → ∀ u ∈ next t, P u) (hq : ∀ t ∈ queue, P t) (hs : ∀ t ∈ seen, P t) :
    ∀ t ∈ ts, P t := by
  induction h with
  | done => exact hs
  | skip _ _ ih => exact ih (fun u hu => hq u (by simp [hu])) hs
  | @visit t queue seen ts _ _ ih =>
    have ht := hq t (by simp)
    refine ih (fun u hu => ?_) (fun u hu => ?_)
    · rcases List.mem_append.1 hu with hu | hu
      · exact hq u (by simp [hu])
      · exact hP t ht u hu
    · rcases List.mem_append.1 hu with hu | hu
      · exact hs u hu
      · exact List.mem_singleton.1 hu ▸ ht

theorem queue_subset (h : Walks next queue seen ts) : queue ⊆ ts := by
  induction h with
  | done => simp
  | skip ht h ih => exact List.cons_subset.2 ⟨h.prefix_seen.subset ht, ih⟩
  | visit _ h ih =>
    rw [List.append_subset] at ih
    exact List.cons_subset.2 ⟨h.prefix_seen.subset (by simp), ih.1⟩

/-- No supertype is left out. -/
theorem closedUnder (h : Walks next queue seen ts) (hs : NoneLost next queue seen) :
    ClosedUnder next ts := by
  induction h with
  | done => exact fun t ht u hu => (hs t ht u hu).resolve_right (by simp)
  | skip ht _ ih => exact ih (hs.skip ht)
  | visit _ _ ih => exact ih hs.visit

/-- A walk from one type visits what the type climbs to. -/
theorem mem_iff (h : Walks next [t] [] ts) : u ∈ ts ↔ Climbs next t u := by
  constructor
  · intro hu
    refine h.forall_mem (P := Climbs next t) (fun x hx y hy => ?_) (fun x hx => ?_) (by simp) u hu
    · exact Relation.ReflTransGen.tail hx hy
    · rw [List.mem_singleton.1 hx]
      exact Relation.ReflTransGen.refl
  · intro hu
    exact (h.closedUnder .start).mem (h.queue_subset (by simp)) hu

end Walks

/-- The walk ends when all it may visit lies in one finite list: each step shortens the queue or
visits a member of the list for the first time. -/
theorem exists_walks (hall : ClosedUnder next all) (hq : queue ⊆ all) :
    ∃ ts, Walks next queue seen ts := by
  -- outside on the members not yet seen, inside on the queue
  induction hk : (all.filter (· ∉ seen)).length using Nat.strongRecOn generalizing queue seen with
  | _ k ih =>
    induction queue with
    | nil => exact ⟨seen, .done⟩
    | cons t queue ihq =>
      obtain ⟨ht, hq⟩ := List.cons_subset.1 hq
      by_cases hseen : t ∈ seen
      · obtain ⟨ts, h⟩ := ihq hq
        exact ⟨ts, .skip hseen h⟩
      · have hunseen : all.filter (· ∉ seen ++ [t]) = (all.filter (· ∉ seen)).filter (· ≠ t) := by
          rw [List.filter_filter]
          refine List.filter_congr fun x _ => ?_
          simp [and_comm]
        have hlt : (all.filter (· ∉ seen ++ [t])).length < k := by
          rw [hunseen, ← hk, List.length_filter_lt_length_iff_exists]
          exact ⟨t, by simp [ht, hseen], by simp⟩
        obtain ⟨ts, h⟩ : ∃ ts, Walks next (queue ++ next t) (seen ++ [t]) ts :=
          ih _ hlt (List.append_subset.2 ⟨hq, hall t ht⟩) rfl
        exact ⟨ts, .visit hseen h⟩

namespace TypeSystem

variable {sys : TypeSystem} {n m : Nat}

/-- The walk that counts its steps is the walk, given steps enough. -/
theorem walks_of_closureWalk (h : sys.closureWalk n queue seen = some ts) :
    Walks sys.supertypes queue seen ts := by
  induction n generalizing queue seen with
  | zero =>
    cases queue with
    | nil => cases h; exact .done
    | cons t queue => cases h
  | succ n ih =>
    cases queue with
    | nil => cases h; exact .done
    | cons t queue =>
      simp only [closureWalk, List.contains_iff_mem] at h
      split at h
      · rename_i ht
        exact .skip ht (ih h)
      · rename_i ht
        exact .visit ht (ih h)

/-- The number of steps depends on the supertypes only. -/
theorem closureWalk_of_walks (h : Walks next queue seen ts) :
    ∃ n, ∀ m, n ≤ m → ∀ sys : TypeSystem, sys.supertypes = next →
      sys.closureWalk m queue seen = some ts := by
  induction h with
  | done => exact ⟨0, fun m _ sys _ => by cases m <;> rfl⟩
  | skip ht _ ih =>
    obtain ⟨n, hn⟩ := ih
    refine ⟨n + 1, fun m hm sys hsys => ?_⟩
    obtain ⟨m, rfl⟩ : ∃ k, m = k + 1 := ⟨m - 1, by omega⟩
    simpa [closureWalk, ht] using hn m (by omega) sys hsys
  | visit ht _ ih =>
    obtain ⟨n, hn⟩ := ih
    refine ⟨n + 1, fun m hm sys hsys => ?_⟩
    obtain ⟨m, rfl⟩ : ∃ k, m = k + 1 := ⟨m - 1, by omega⟩
    simpa [closureWalk, ht, hsys] using hn m (by omega) sys hsys

/-- **The closure of a type holds exactly the types it climbs to.** -/
theorem mem_closure?_iff (h : sys.closure? n t = some ts) :
    u ∈ ts ↔ Climbs sys.supertypes t u :=
  (walks_of_closureWalk h).mem_iff

end TypeSystem

end Wiring
