import Wiring.Proofs.Supertypes.Walk
/-!
# Images of walks

A map that commutes with direct supertypes takes walks to walks (`Walks.map`). It may make types
equal that were visited apart. The image of the later one is then left out, and nothing that comes
after it changes place: its supertypes were in the queue before.
-/

namespace Wiring

theorem eraseDups_concat (ts : List Ty) (t : Ty) :
    (ts ++ [t]).eraseDups = if t ∈ ts then ts.eraseDups else ts.eraseDups ++ [t] := by
  rw [List.eraseDups_append]
  by_cases ht : t ∈ ts <;> simp [List.removeAll, ht, List.eraseDups_cons]

namespace Walks

variable {next : Ty → List Ty} {f : Ty → Ty} {queue extra rest seen ts : List Ty}

theorem of_append_seen (he : extra ⊆ seen) (h : Walks next (extra ++ rest) seen ts) :
    Walks next rest seen ts := by
  induction extra with
  | nil => exact h
  | cons t extra ih =>
    obtain ⟨ht, he⟩ := List.cons_subset.1 he
    cases h with
    | skip _ h => exact ih he h
    | visit hn _ => exact absurd ht hn

/-- What is seen already, or waits further ahead, need not wait again. -/
theorem of_append_repeated (he : extra ⊆ seen ++ queue)
    (h : Walks next (queue ++ (extra ++ rest)) seen ts) : Walks next (queue ++ rest) seen ts := by
  generalize hq : queue ++ (extra ++ rest) = all at h
  induction h generalizing queue rest with
  | done =>
    obtain ⟨rfl, rfl, rfl⟩ : queue = [] ∧ extra = [] ∧ rest = [] := by simpa using hq
    exact .done
  | skip ht h ih =>
    cases queue with
    | nil =>
      have h := Walks.skip ht h
      rw [← hq] at h
      exact of_append_seen (by simpa using he) h
    | cons x queue =>
      obtain ⟨rfl, hrest⟩ := List.cons.inj hq
      refine .skip ht (ih (fun y hy => ?_) hrest)
      rcases List.mem_append.1 (he hy) with hy | hy
      · exact List.mem_append_left _ hy
      · rcases List.mem_cons.1 hy with rfl | hy
        · exact List.mem_append_left _ ht
        · exact List.mem_append_right _ hy
  | @visit t _ seen ts ht h ih =>
    cases queue with
    | nil =>
      have h := Walks.visit ht h
      rw [← hq] at h
      exact of_append_seen (by simpa using he) h
    | cons x queue =>
      obtain ⟨rfl, rfl⟩ := List.cons.inj hq
      have hwalk : Walks next (queue ++ (rest ++ next x)) (seen ++ [x]) ts :=
        ih (List.Subset.trans he (by simp)) (by simp)
      exact .visit ht (by simpa using hwalk)

/-- **The image of a walk is a walk**, once repetitions are left out. -/
theorem map (h : Walks next queue seen ts) (hs : NoneLost next queue seen)
    (hf : ∀ t ∈ ts, next (f t) = (next t).map f) :
    Walks next (queue.map f) (seen.map f).eraseDups (ts.map f).eraseDups := by
  induction h with
  | done => exact .done
  | skip ht _ ih =>
    exact .skip (List.mem_eraseDups.2 (List.mem_map_of_mem ht)) (ih (hs.skip ht) hf)
  | @visit t queue seen ts ht h ih =>
    have hsub : seen ++ [t] ⊆ ts := h.prefix_seen.subset
    have ih := ih hs.visit hf
    rw [List.map_append, List.map_append, List.map_singleton, eraseDups_concat,
      ← hf t (hsub (by simp))] at ih
    by_cases hseen : f t ∈ seen.map f
    · -- the type that has the same image was visited before, and so its supertypes are not new
      obtain ⟨x, hx, hxt⟩ := List.mem_map.1 hseen
      rw [if_pos hseen, ← hxt, hf x (hsub (by simp [hx]))] at ih
      have hrepeated : (next x).map f ⊆ (seen.map f).eraseDups ++ queue.map f := by
        intro y hy
        obtain ⟨u, hu, rfl⟩ := List.mem_map.1 hy
        simp only [List.mem_append, List.mem_eraseDups]
        rcases hs x hx u hu with hu | hu
        · exact .inl (List.mem_map_of_mem hu)
        · rcases List.mem_cons.1 hu with rfl | hu
          · exact .inl hseen
          · exact .inr (List.mem_map_of_mem hu)
      have hwalk : Walks next (queue.map f ++ []) (seen.map f).eraseDups (ts.map f).eraseDups :=
        of_append_repeated hrepeated (by simpa using ih)
      exact .skip (List.mem_eraseDups.2 hseen) (by simpa using hwalk)
    · rw [if_neg hseen] at ih
      exact .visit (mt List.mem_eraseDups.1 hseen) ih

end Walks

end Wiring
