import Wiring.Memo.Basic
/-!
# Memos that grow

A memo that is not cleared grows: what it keeps it keeps on, and new keys are only added while there
is room (`Grows`). So it never holds more entries than its capacity allows (`Sound`), and a value
that was asked for is kept afterwards, unless there is no room for it (`get?_publish`).
-/

namespace Wiring.Memo

variable {κ β : Type} {m m' m'' : Memo κ β} {k : κ} {v : β}

/-- No key is kept twice, and there are no more entries than the capacity allows. -/
structure Sound (m : Memo κ β) : Prop where
  nodup : (m.entries.map (·.1)).Nodup
  fits : ∀ n ∈ m.capacity, m.size ≤ n

theorem sound_withCapacity (capacity : Option Nat) : (withCapacity capacity : Memo κ β).Sound :=
  ⟨.nil, fun n _ => Nat.zero_le n⟩

theorem sound_clear (m : Memo κ β) : m.clear.Sound := ⟨.nil, fun n _ => Nat.zero_le n⟩

theorem size_lt_of_room (hfull : m.isFull = false) : ∀ n ∈ m.capacity, m.size < n := by
  intro n hn
  rw [Option.mem_def] at hn
  simpa [isFull, hn] using hfull

/-- A full memo holds as many entries as it may. -/
theorem Sound.capacity_eq (h : m.Sound) (hfull : m.isFull = true) : m.capacity = some m.size := by
  obtain ⟨n, hn, hle⟩ := (Option.any_eq_true _ _).1 hfull
  have hfits := h.fits n hn
  rw [hn, Nat.le_antisymm (of_decide_eq_true hle) hfits]

variable [BEq κ]

/-- `m'` keeps what `m` keeps, and perhaps more, as far as there is room. -/
structure Grows (m m' : Memo κ β) : Prop where
  capacity_eq : m'.capacity = m.capacity
  kept : ∀ k v, m.get? k = some v → m'.get? k = some v
  sound : m.Sound → m'.Sound

namespace Grows

theorem refl (m : Memo κ β) : m.Grows m := ⟨rfl, fun _ _ h => h, id⟩

theorem trans (h : m.Grows m') (h' : m'.Grows m'') : m.Grows m'' :=
  ⟨h'.capacity_eq.trans h.capacity_eq, fun k v hk => h'.kept k v (h.kept k v hk),
    fun hm => h'.sound (h.sound hm)⟩

theorem countHit (m : Memo κ β) : m.Grows m.countHit := ⟨rfl, fun _ _ h => h, fun h => ⟨h.1, h.2⟩⟩

theorem countMiss (m : Memo κ β) : m.Grows m.countMiss := ⟨rfl, fun _ _ h => h, fun h => ⟨h.1, h.2⟩⟩

end Grows

/-! ## Publishing -/

section

variable (m : Memo κ β) (k : κ) (v : β)

theorem publish_of_get?_some {kept : β} (h : m.get? k = some kept) : m.publish k v = (kept, m) := by
  simp [publish, h]

theorem publish_of_full (h : m.get? k = none) (hfull : m.isFull = true) :
    m.publish k v = (v, m) := by
  simp [publish, h, hfull]

theorem publish_of_room (h : m.get? k = none) (hfull : m.isFull = false) :
    m.publish k v = (v, { m with entries := (k, v) :: m.entries }) := by
  simp [publish, h, hfull]

theorem hits_publish : (m.publish k v).2.hits = m.hits := by
  unfold publish
  split
  · rfl
  · dsimp only
    split <;> rfl

theorem misses_publish : (m.publish k v).2.misses = m.misses := by
  unfold publish
  split
  · rfl
  · dsimp only
    split <;> rfl

end

/-! ## Computing -/

section

variable {ε τ : Type} {t t' : τ} {run : Memo κ β → τ → Except ε β × Memo κ β × τ}

theorem compute_of_get?_some (h : m.get? k = some v) :
    m.compute t k run = (.ok v, m.countHit, t) := by
  simp [compute, h]

theorem compute_of_error {e : ε} (h : m.get? k = none)
    (hrun : run m.countMiss t = (.error e, m', t')) : m.compute t k run = (.error e, m', t') := by
  simp [compute, h, hrun]

theorem compute_of_ok (h : m.get? k = none) (hrun : run m.countMiss t = (.ok v, m', t')) :
    m.compute t k run = (.ok (m'.publish k v).1, (m'.publish k v).2, t') := by
  simp [compute, h, hrun]

end

variable [LawfulBEq κ]

theorem not_mem_of_get?_none (h : m.get? k = none) : k ∉ m.entries.map (·.1) := by
  intro hmem
  obtain ⟨p, hp, rfl⟩ := List.mem_map.1 hmem
  have hne := List.lookup_eq_none_iff.1 h p hp
  simp at hne

theorem get?_publish_of_ne (m : Memo κ β) {k k' : κ} (v : β) (hne : k' ≠ k) :
    (m.publish k v).2.get? k' = m.get? k' := by
  cases hk : m.get? k with
  | some kept => rw [publish_of_get?_some m k v hk]
  | none =>
    cases hfull : m.isFull with
    | true => rw [publish_of_full m k v hk hfull]
    | false =>
      have hbeq : (k' == k) = false := beq_eq_false_iff_ne.2 hne
      simp [publish_of_room m k v hk hfull, get?, List.lookup_cons, hbeq]

theorem grows_publish (m : Memo κ β) (k : κ) (v : β) : m.Grows (m.publish k v).2 := by
  cases hk : m.get? k with
  | some kept => simpa [publish_of_get?_some m k v hk] using Grows.refl m
  | none =>
    cases hfull : m.isFull with
    | true => simpa [publish_of_full m k v hk hfull] using Grows.refl m
    | false =>
      have hroom := publish_of_room m k v hk hfull
      refine ⟨by rw [hroom], fun k' v' hk' => ?_, fun hm => ?_⟩
      · have hne : k' ≠ k := by
          rintro rfl
          exact absurd (hk.symm.trans hk') (by simp)
        exact (get?_publish_of_ne m v hne).trans hk'
      · rw [hroom]
        exact ⟨List.nodup_cons.2 ⟨not_mem_of_get?_none hk, hm.nodup⟩, size_lt_of_room hfull⟩

/-- What is published is kept, or it is new and the memo is full. -/
theorem get?_publish (m : Memo κ β) (k : κ) (v : β) :
    (m.publish k v).2.get? k = some (m.publish k v).1 ∨
      (m.publish k v).2.get? k = none ∧ (m.publish k v).2.isFull = true := by
  cases hk : m.get? k with
  | some kept => exact .inl (by rw [publish_of_get?_some m k v hk]; exact hk)
  | none =>
    cases hfull : m.isFull with
    | true => exact .inr (by rw [publish_of_full m k v hk hfull]; exact ⟨hk, hfull⟩)
    | false => exact .inl (by simp [publish_of_room m k v hk hfull, get?])

/-- A request for a value whose computation leaves the memo alone is counted once, as a hit or as a
miss; on a hit nothing is computed. -/
theorem compute_of_untouched {ε τ : Type} {t : τ} (k : κ)
    (run : Memo κ β → τ → Except ε β × Memo κ β × τ)
    (hrun : (run m.countMiss t).2.1 = m.countMiss) :
    m.Grows (m.compute t k run).2.1 ∧
      (m.compute t k run).2.1.hits = m.hits + (if (m.get? k).isSome then 1 else 0) ∧
      (m.compute t k run).2.1.misses = m.misses + (if (m.get? k).isSome then 0 else 1) ∧
      (m.compute t k run).2.2 = if (m.get? k).isSome then t else (run m.countMiss t).2.2 := by
  cases hk : m.get? k with
  | some v =>
    rw [compute_of_get?_some hk]
    exact ⟨.countHit m, rfl, rfl, rfl⟩
  | none =>
    rcases hr : run m.countMiss t with ⟨answer, m', t'⟩
    rw [hr] at hrun
    obtain rfl : m' = m.countMiss := hrun
    cases answer with
    | error e =>
      rw [compute_of_error hk hr]
      exact ⟨.countMiss m, rfl, rfl, rfl⟩
    | ok v =>
      rw [compute_of_ok hk hr]
      exact ⟨(Grows.countMiss m).trans (grows_publish _ k v), hits_publish _ k v,
        misses_publish _ k v, rfl⟩

end Wiring.Memo
