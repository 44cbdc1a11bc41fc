import Mathlib.Order.Lattice.Nat
import Wiring.Proofs.Supertypes.Walk
/-!
# Distances

How many steps it takes to climb from one type to another, and that a walk meets types in the order
of their distance from where it starts (`Walks.sorted`). The queue spans two levels: what is reached
in `d` steps, and behind it what is reached in one step more (`Level`). Types are told apart when
they are visited and not when they join the queue, so that a type in the queue may have been seen
already, but one that was not is at the distance of its level.
-/

namespace Wiring

/-- `u` is reached from `t` in so many steps to a direct supertype. -/
inductive Reached (next : Ty → List Ty) (t : Ty) : Nat → Ty → Prop where
  | start : Reached next t 0 t
  | step {n : Nat} {u v : Ty} : Reached next t n u → v ∈ next u → Reached next t (n + 1) v

/-- The least number of steps in which `u` is reached from `t`. -/
noncomputable def distance (next : Ty → List Ty) (t u : Ty) : Nat := sInf {n | Reached next t n u}

variable {next : Ty → List Ty} {t u v : Ty} {n d : Nat}

theorem Reached.climbs (h : Reached next t n u) : Climbs next t u := by
  induction h with
  | start => exact Relation.ReflTransGen.refl
  | step _ hstep ih => exact ih.tail hstep

theorem exists_reached (h : Climbs next t u) : ∃ n, Reached next t n u := by
  induction h with
  | refl => exact ⟨0, .start⟩
  | tail _ hstep ih =>
    obtain ⟨n, hn⟩ := ih
    exact ⟨n + 1, hn.step hstep⟩

theorem distance_le (h : Reached next t n u) : distance next t u ≤ n := Nat.sInf_le h

/-- What is reached at all is reached at its distance. -/
theorem reached_distance (h : Climbs next t u) : Reached next t (distance next t u) u := by
  obtain ⟨n, hn⟩ := exists_reached h
  exact Nat.sInf_mem (s := {n | Reached next t n u}) ⟨n, hn⟩

/-- The walk from `t` is at level `d`: before it in the queue is `near`, at most `d` steps away, and
behind this `far`, at most `d + 1` steps away. -/
structure Level (next : Ty → List Ty) (t : Ty) (d : Nat) (near far seen : List Ty) : Prop where
  near_reached : ∀ u ∈ near, Reached next t d u
  far_reached : ∀ u ∈ far, Reached next t (d + 1) u
  seen_le : ∀ u ∈ seen, distance next t u ≤ d
  /-- The levels before this one are done with. -/
  mem_of_lt : ∀ n < d, ∀ u, Reached next t n u → u ∈ seen
  mem_or : ∀ u, Reached next t d u → u ∈ seen ∨ u ∈ near
  /-- What was seen has its direct supertypes in sight. -/
  next_mem : ∀ u ∈ seen, ∀ v ∈ next u, v ∈ seen ∨ v ∈ near ∨ v ∈ far
  sorted : seen.Pairwise (distance next t · ≤ distance next t ·)

namespace Level

variable {near far seen queue : List Ty}

theorem start (next : Ty → List Ty) (t : Ty) : Level next t 0 [t] [] [] where
  near_reached u hu := by
    rw [List.mem_singleton.1 hu]
    exact .start
  far_reached := by simp
  seen_le := by simp
  mem_of_lt n hn := absurd hn (Nat.not_lt_zero n)
  mem_or u hu := by
    cases hu
    simp
  next_mem := by simp
  sorted := .nil

/-- When a level is done with, the next one begins. -/
theorem shift (h : Level next t d [] far seen) : Level next t (d + 1) far [] seen where
  near_reached := h.far_reached
  far_reached := by simp
  seen_le u hu := (h.seen_le u hu).trans (Nat.le_succ d)
  mem_of_lt n hn u hu := by
    rcases Nat.lt_succ_iff_lt_or_eq.1 hn with hn | rfl
    · exact h.mem_of_lt n hn u hu
    · exact (h.mem_or u hu).resolve_right (by simp)
  mem_or u hu := by
    obtain - | ⟨hx, hu⟩ := hu
    have hx := (h.mem_or _ hx).resolve_right (by simp)
    simpa using h.next_mem _ hx u hu
  next_mem u hu v hv := by simpa using h.next_mem u hu v hv
  sorted := h.sorted

/-- The head of the queue is near, at this level or at the next. -/
theorem exists_cons (h : Level next t d near far seen) (hq : u :: queue = near ++ far) :
    ∃ d near far, queue = near ++ far ∧ Level next t d (u :: near) far seen := by
  cases near with
  | nil =>
    obtain rfl : u :: queue = far := hq
    exact ⟨d + 1, queue, [], by simp, h.shift⟩
  | cons x near =>
    obtain ⟨rfl, rfl⟩ := List.cons.inj hq
    exact ⟨d, near, far, rfl, h⟩

theorem skip (h : Level next t d (u :: near) far seen) (hu : u ∈ seen) :
    Level next t d near far seen where
  near_reached x hx := h.near_reached x (by simp [hx])
  far_reached := h.far_reached
  seen_le := h.seen_le
  mem_of_lt := h.mem_of_lt
  mem_or x hx := by
    rcases h.mem_or x hx with hx | hx
    · exact .inl hx
    · rcases List.mem_cons.1 hx with rfl | hx
      · exact .inl hu
      · exact .inr hx
  next_mem x hx v hv := by
    rcases h.next_mem x hx v hv with hv | hv | hv
    · exact .inl hv
    · rcases List.mem_cons.1 hv with rfl | hv
      · exact .inl hu
      · exact .inr (.inl hv)
    · exact .inr (.inr hv)
  sorted := h.sorted

/-- What was not seen before is at the distance of its level. -/
theorem distance_eq (h : Level next t d (u :: near) far seen) (hu : u ∉ seen) :
    distance next t u = d := by
  have hreached := h.near_reached u (by simp)
  refine (distance_le hreached).antisymm (Nat.le_of_not_lt fun hlt => hu ?_)
  exact h.mem_of_lt _ hlt u (reached_distance hreached.climbs)

theorem visit (h : Level next t d (u :: near) far seen) (hu : u ∉ seen) :
    Level next t d near (far ++ next u) (seen ++ [u]) where
  near_reached x hx := h.near_reached x (by simp [hx])
  far_reached x hx := by
    rcases List.mem_append.1 hx with hx | hx
    · exact h.far_reached x hx
    · exact (h.near_reached u (by simp)).step hx
  seen_le x hx := by
    rcases List.mem_append.1 hx with hx | hx
    · exact h.seen_le x hx
    · rw [List.mem_singleton.1 hx, h.distance_eq hu]
  mem_of_lt n hn x hx := List.mem_append_left _ (h.mem_of_lt n hn x hx)
  mem_or x hx := by
    rcases h.mem_or x hx with hx | hx
    · exact .inl (by simp [hx])
    · rcases List.mem_cons.1 hx with rfl | hx
      · exact .inl (by simp)
      · exact .inr hx
  next_mem x hx v hv := by
    rcases List.mem_append.1 hx with hx | hx
    · rcases h.next_mem x hx v hv with hv | hv | hv
      · exact .inl (by simp [hv])
      · rcases List.mem_cons.1 hv with rfl | hv
        · exact .inl (by simp)
        · exact .inr (.inl hv)
      · exact .inr (.inr (by simp [hv]))
    · rw [List.mem_singleton.1 hx] at hv
      exact .inr (.inr (by simp [hv]))
  sorted := by
    rw [List.pairwise_append]
    refine ⟨h.sorted, List.pairwise_singleton _ _, fun x hx y hy => ?_⟩
    rw [List.mem_singleton.1 hy, h.distance_eq hu]
    exact h.seen_le x hx

/-- **The rest of a walk keeps the order.** -/
theorem sorted_of_walks {ts : List Ty} (h : Level next t d near far seen)
    (hq : queue = near ++ far) (hw : Walks next queue seen ts) :
    ts.Pairwise (distance next t · ≤ distance next t ·) := by
  induction hw generalizing d near far with
  | done => exact h.sorted
  | skip hu _ ih =>
    obtain ⟨d, near, far, hq, h⟩ := h.exists_cons hq
    exact ih (h.skip hu) hq
  | visit hu _ ih =>
    obtain ⟨d, near, far, rfl, h⟩ := h.exists_cons hq
    exact ih (h.visit hu) (List.append_assoc _ _ _)

end Level

/-- A walk from one type meets types in the order of their distance from it. -/
theorem Walks.sorted {ts : List Ty} (h : Walks next [t] [] ts) :
    ts.Pairwise (distance next t · ≤ distance next t ·) :=
  (Level.start next t).sorted_of_walks (by simp) h

theorem Walks.head? {ts : List Ty} (h : Walks next [t] [] ts) : ts.head? = some t := by
  cases h with
  | skip ht _ => cases ht
  | visit _ h =>
    obtain ⟨rest, rfl⟩ := h.prefix_seen
    rfl

end Wiring
