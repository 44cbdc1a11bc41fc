import Wiring.Reduction
/-!
# Who is in contention

`contenders` says in one formula who is in contention: without alternates everybody, and otherwise
the alternates of the highest rank. The pass over a list keeps to it with every candidate
(`Contest.Holds.push`), so that it ends with the contenders of the whole list (`ofList_eq`).
Leaving out candidates that are not in contention never changes who is (`mem_contenders_of_keep`).
-/

namespace Wiring

/-- The highest rank of an alternate, if there is an alternate. -/
def topRank (cs : List Candidate) : Option Int :=
  ((cs.filter (·.alternate)).map (·.rank)).max?

/-- The candidates that no other one beats. -/
def contenders (cs : List Candidate) : List Candidate :=
  match topRank cs with
  | none => cs
  | some m => cs.filter fun c => c.alternate && c.rank == m

theorem topRank_eq_none_iff {cs : List Candidate} :
    topRank cs = none ↔ ∀ c ∈ cs, c.alternate = false := by
  simp [topRank, List.max?_eq_none_iff, List.filter_eq_nil_iff]

theorem topRank_eq_some_iff {cs : List Candidate} {m : Int} :
    topRank cs = some m ↔
      (∃ c ∈ cs, c.alternate = true ∧ c.rank = m) ∧
        ∀ c ∈ cs, c.alternate = true → c.rank ≤ m := by
  simp only [topRank, List.max?_eq_some_iff, List.mem_map, List.mem_filter]
  constructor
  · rintro ⟨⟨c, ⟨hc, ha⟩, hr⟩, hle⟩
    exact ⟨⟨c, hc, ha, hr⟩, fun d hd hda => hle _ ⟨d, ⟨hd, hda⟩, rfl⟩⟩
  · rintro ⟨⟨c, hc, ha, hr⟩, hle⟩
    refine ⟨⟨c, ⟨hc, ha⟩, hr⟩, ?_⟩
    rintro _ ⟨d, ⟨hd, hda⟩, rfl⟩
    exact hle d hd hda

theorem contenders_of_none {cs : List Candidate} (h : topRank cs = none) : contenders cs = cs := by
  simp [contenders, h]

theorem contenders_of_some {cs : List Candidate} {m : Int} (h : topRank cs = some m) :
    contenders cs = cs.filter fun c => c.alternate && c.rank == m := by
  simp [contenders, h]

theorem contenders_sublist (cs : List Candidate) : (contenders cs).Sublist cs := by
  unfold contenders
  split
  · exact List.Sublist.refl cs
  · exact List.filter_sublist

theorem mem_contenders_of_some {cs : List Candidate} {m : Int} (h : topRank cs = some m)
    {c : Candidate} : c ∈ contenders cs ↔ c ∈ cs ∧ c.alternate = true ∧ c.rank = m := by
  simp [contenders_of_some h]

/-! ## One more candidate -/

theorem topRank_concat (cs : List Candidate) {c : Candidate} (ha : c.alternate = true) :
    topRank (cs ++ [c]) = some ((topRank cs).elim c.rank (max · c.rank)) := by
  rw [topRank_eq_some_iff]
  cases ht : topRank cs with
  | none =>
    have hno := topRank_eq_none_iff.1 ht
    refine ⟨⟨c, by simp, ha, rfl⟩, fun d hd hda => ?_⟩
    rcases List.mem_append.1 hd with hd | hd
    · rw [hno d hd] at hda; cases hda
    · rw [List.mem_singleton.1 hd]; exact Int.le_refl _
  | some m =>
    obtain ⟨⟨w, hw, hwa, hwr⟩, hle⟩ := topRank_eq_some_iff.1 ht
    simp only [Option.elim]
    constructor
    · by_cases hm : c.rank ≤ m
      · exact ⟨w, by simp [hw], hwa, by omega⟩
      · exact ⟨c, by simp, ha, by omega⟩
    · intro d hd hda
      rcases List.mem_append.1 hd with hd | hd
      · have := hle d hd hda; omega
      · rw [List.mem_singleton.1 hd]; omega

theorem topRank_concat_plain (cs : List Candidate) {c : Candidate} (ha : c.alternate = false) :
    topRank (cs ++ [c]) = topRank cs := by
  simp [topRank, List.filter_append, ha]

/-- No alternate stands above the highest rank. -/
theorem filter_above_eq_nil (cs : List Candidate) (r : Int) (h : ∀ m ∈ topRank cs, m < r) :
    cs.filter (fun c => c.alternate && c.rank == r) = [] := by
  refine List.filter_eq_nil_iff.2 fun d hd => ?_
  simp only [Bool.and_eq_true, beq_iff_eq, not_and]
  intro hda hdr
  cases ht : topRank cs with
  | none => rw [topRank_eq_none_iff.1 ht d hd] at hda; cases hda
  | some m =>
    have h1 := (topRank_eq_some_iff.1 ht).2 d hd hda
    have h2 := h m ht
    omega

/-- An alternate that stands above all others is alone in contention. -/
theorem contenders_concat_above (cs : List Candidate) {c : Candidate} (ha : c.alternate = true)
    (h : ∀ m ∈ topRank cs, m < c.rank) :
    topRank (cs ++ [c]) = some c.rank ∧ contenders (cs ++ [c]) = [c] := by
  have ht : topRank (cs ++ [c]) = some c.rank := by
    rw [topRank_concat cs ha]
    cases hc : topRank cs with
    | none => rfl
    | some m => exact congrArg some (Int.max_eq_right (by have := h m hc; omega))
  refine ⟨ht, ?_⟩
  rw [contenders_of_some ht, List.filter_append, filter_above_eq_nil cs c.rank h]
  simp [ha]

/-- An alternate below the highest rank, and beside an alternate a candidate that is none, changes
nothing. -/
theorem contenders_concat_below (cs : List Candidate) {c : Candidate} {m : Int}
    (hm : topRank cs = some m) (h : c.alternate = true → c.rank < m) :
    topRank (cs ++ [c]) = some m ∧ contenders (cs ++ [c]) = contenders cs := by
  have ht : topRank (cs ++ [c]) = some m := by
    cases ha : c.alternate with
    | false => rw [topRank_concat_plain cs ha, hm]
    | true =>
      rw [topRank_concat cs ha, hm]
      exact congrArg some (Int.max_eq_left (by have := h ha; omega))
  refine ⟨ht, ?_⟩
  rw [contenders_of_some ht, contenders_of_some hm, List.filter_append]
  have hout : (c.alternate && c.rank == m) = false := by
    rw [Bool.and_eq_false_imp]
    intro ha
    have := h ha
    simp only [beq_eq_false_iff_ne]
    omega
  simp [hout]

/-- An alternate of the highest rank, and a candidate that is none where there is no alternate,
comes to those in contention. -/
theorem contenders_concat_equal (cs : List Candidate) {c : Candidate}
    (h : if c.alternate then topRank cs = some c.rank else topRank cs = none) :
    topRank (cs ++ [c]) = topRank cs ∧ contenders (cs ++ [c]) = contenders cs ++ [c] := by
  cases ha : c.alternate with
  | false =>
    have hnone : topRank cs = none := by simpa [ha] using h
    have ht := topRank_concat_plain cs ha
    exact ⟨ht, by rw [contenders_of_none hnone, contenders_of_none (ht.trans hnone)]⟩
  | true =>
    have hsome : topRank cs = some c.rank := by simpa [ha] using h
    have ht : topRank (cs ++ [c]) = some c.rank := by
      rw [topRank_concat cs ha, hsome]
      exact congrArg some (Int.max_self c.rank)
    refine ⟨ht.trans hsome.symm, ?_⟩
    rw [contenders_of_some ht, contenders_of_some hsome, List.filter_append]
    simp [ha]

/-! ## The pass over a list -/

namespace Contest

/-- What the pass holds after the candidates `seen`: the contenders among these, who share one rank
if they are alternates. Those that have tied are none or several. -/
structure Holds (k : Contest) (seen : List Candidate) : Prop where
  alternateRank : k.alternateRank = topRank seen
  inContention : k.unresolved ++ k.candidate.toList = contenders seen
  tied : k.unresolved = [] ∨ 2 ≤ k.unresolved.length

namespace Holds

variable {k : Contest} {seen : List Candidate} {c : Candidate}

theorem start : start.Holds [] := ⟨rfl, rfl, .inl rfl⟩

/-- A contender joins, whether the place is held or free. -/
theorem join (h : k.Holds seen) (hrank : topRank (seen ++ [c]) = topRank seen)
    (hjoins : contenders (seen ++ [c]) = contenders seen ++ [c]) :
    (k.join c).Holds (seen ++ [c]) := by
  unfold Contest.join
  cases hk : k.candidate with
  | none =>
    have hcontenders := h.inContention
    rw [hk, Option.toList_none, List.append_nil] at hcontenders
    exact ⟨h.alternateRank.trans hrank.symm, by rw [hjoins, ← hcontenders]; rfl, h.tied⟩
  | some current =>
    have hcontenders := h.inContention
    rw [hk, Option.toList_some] at hcontenders
    refine ⟨h.alternateRank.trans hrank.symm, ?_, .inr (by simp)⟩
    rw [hjoins, ← hcontenders]
    simp

/-- A candidate that drops out leaves all as it is. -/
theorem skip (h : k.Holds seen) (hrank : topRank (seen ++ [c]) = topRank seen)
    (hsame : contenders (seen ++ [c]) = contenders seen) : k.Holds (seen ++ [c]) :=
  ⟨h.alternateRank.trans hrank.symm, h.inContention.trans hsame.symm, h.tied⟩

/-- A candidate that beats all others is left alone. -/
theorem alone (hrank : topRank (seen ++ [c]) = some c.rank)
    (halone : contenders (seen ++ [c]) = [c]) :
    Contest.Holds ⟨some c, some c.rank, []⟩ (seen ++ [c]) :=
  ⟨hrank.symm, halone.symm, .inl rfl⟩

theorem pushPlain (h : k.Holds seen) (ha : c.alternate = false) :
    (k.pushPlain c).Holds (seen ++ [c]) := by
  unfold Contest.pushPlain
  rw [h.alternateRank]
  cases ht : topRank seen with
  | none =>
    obtain ⟨hrank, hjoins⟩ := contenders_concat_equal seen (c := c) (by simp [ha, ht])
    exact h.join hrank hjoins
  | some m =>
    obtain ⟨hrank, hsame⟩ := contenders_concat_below seen (c := c) ht (by simp [ha])
    exact h.skip (hrank.trans ht.symm) hsame

theorem pushAlternate (h : k.Holds seen) (ha : c.alternate = true) :
    (k.pushAlternate c).Holds (seen ++ [c]) := by
  unfold Contest.pushAlternate
  rw [h.alternateRank]
  cases ht : topRank seen with
  | none =>
    obtain ⟨hrank, halone⟩ := contenders_concat_above seen ha (by simp [ht])
    exact alone hrank halone
  | some m =>
    dsimp only
    by_cases hlt : c.rank < m
    · rw [if_pos hlt]
      obtain ⟨hrank, hsame⟩ := contenders_concat_below seen ht fun _ => hlt
      exact h.skip (hrank.trans ht.symm) hsame
    · rw [if_neg hlt]
      by_cases heq : c.rank = m
      · rw [if_pos heq]
        obtain ⟨hrank, hjoins⟩ := contenders_concat_equal seen (c := c) (by simp [ha, ht, heq])
        exact h.join hrank hjoins
      · rw [if_neg heq]
        obtain ⟨hrank, halone⟩ := contenders_concat_above seen ha fun r hr => by
          rw [ht] at hr
          cases hr
          omega
        exact alone hrank halone

/-- **One more candidate**: what holds of the candidates seen holds with the next one. -/
theorem push (h : k.Holds seen) (c : Candidate) : (k.push c).Holds (seen ++ [c]) := by
  unfold Contest.push
  by_cases ha : c.alternate = true
  · rw [if_pos ha]
    exact h.pushAlternate ha
  · rw [if_neg ha]
    exact h.pushPlain (Bool.eq_false_iff.2 ha)

/-- **The pass over a list** holds the contenders at every point. -/
theorem foldl_push (h : k.Holds seen) (cs : List Candidate) :
    (cs.foldl Contest.push k).Holds (seen ++ cs) := by
  induction cs generalizing k seen with
  | nil => simpa using h
  | cons c cs ih => simpa using ih (h.push c)

end Holds

end Contest

namespace Reduction

/-- Nothing, a winner or a tie, by how many are in contention. -/
def ofContenders : List Candidate → Reduction
  | [] => .empty
  | [c] => .resolved c
  | cs => .unresolved cs

theorem ofContenders_of_two_le {cs : List Candidate} (h : 2 ≤ cs.length) :
    ofContenders cs = .unresolved cs := by
  match cs with
  | _ :: _ :: _ => rfl

end Reduction

/-- The pass ends with the contenders: as nobody has tied alone, a tie shows in the list of those
that have tied. -/
theorem Contest.Holds.finish_eq {k : Contest} {seen : List Candidate} (h : k.Holds seen) :
    k.finish = .ofContenders (contenders seen) := by
  unfold Contest.finish
  rw [← h.inContention]
  rcases h.tied with htied | htied
  · rw [htied]
    cases k.candidate <;> rfl
  · have hne : ¬ k.unresolved.isEmpty = true := by
      intro hempty
      rw [List.isEmpty_iff.1 hempty] at htied
      cases htied
    have hlen : 2 ≤ (k.unresolved ++ k.candidate.toList).length := by
      rw [List.length_append]
      omega
    rw [if_neg hne, Reduction.ofContenders_of_two_le hlen]

/-- A single candidate is in contention whatever its rank, alternate or not. -/
theorem contenders_singleton (c : Candidate) : contenders [c] = [c] := by
  cases ha : c.alternate <;> simp [contenders, topRank, ha]

/-- **The pass finds the contenders**, for every list of candidates. -/
theorem ofList_eq (cs : List Candidate) :
    Reduction.ofList cs = Reduction.ofContenders (contenders cs) := by
  match cs with
  | [] => rfl
  | [c] => rw [contenders_singleton]; rfl
  | c :: d :: cs => exact (Contest.Holds.start.foldl_push (c :: d :: cs)).finish_eq

/-! ## Leaving candidates out -/

/-- Of a part of the candidates that still has all the contenders, the contenders are the same. -/
theorem mem_contenders_of_keep {cs ds : List Candidate} (hsub : ds ⊆ cs)
    (hkeep : contenders cs ⊆ ds) (c : Candidate) : c ∈ contenders ds ↔ c ∈ contenders cs := by
  cases ht : topRank cs with
  | none =>
    have hno := topRank_eq_none_iff.1 ht
    have ht' : topRank ds = none := topRank_eq_none_iff.2 fun d hd => hno d (hsub hd)
    rw [contenders_of_none ht] at hkeep ⊢
    rw [contenders_of_none ht']
    exact ⟨fun h => hsub h, fun h => hkeep h⟩
  | some m =>
    obtain ⟨⟨w, hw, hwa, hwr⟩, hle⟩ := topRank_eq_some_iff.1 ht
    have hwds : w ∈ ds := hkeep ((mem_contenders_of_some ht).2 ⟨hw, hwa, hwr⟩)
    have ht' : topRank ds = some m :=
      topRank_eq_some_iff.2 ⟨⟨w, hwds, hwa, hwr⟩, fun d hd => hle d (hsub hd)⟩
    rw [mem_contenders_of_some ht']
    constructor
    · rintro ⟨hc, ha, hr⟩
      exact (mem_contenders_of_some ht).2 ⟨hsub hc, ha, hr⟩
    · intro hc
      exact ⟨hkeep hc, ((mem_contenders_of_some ht).1 hc).2⟩

theorem contenders_perm_of_keep {cs ds : List Candidate} (hcs : cs.Nodup) (hds : ds.Nodup)
    (hsub : ds ⊆ cs) (hkeep : contenders cs ⊆ ds) : (contenders cs).Perm (contenders ds) :=
  (List.perm_ext_iff_of_nodup (hcs.sublist (contenders_sublist cs))
    (hds.sublist (contenders_sublist ds))).2 fun c => (mem_contenders_of_keep hsub hkeep c).symm

end Wiring
