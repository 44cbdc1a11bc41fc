import Wiring.Proofs.Memo.Growth
/-!
# Memos that agree with a function

`Agrees f m`: whatever the memo keeps for a key is what `f` computes for it. A computation that
answers as `f` does then answers the same through the memo (`compute_agrees`): on a hit, on a
miss, on a failure, and when the memo is full.
-/

namespace Wiring.Memo

variable {κ β ε τ : Type} [BEq κ] {f : κ → Except ε β} {m : Memo κ β}

/-- Every kept value is the value of its key under `f`; in particular `f` does not fail there. -/
def Agrees (f : κ → Except ε β) (m : Memo κ β) : Prop :=
  ∀ k v, m.get? k = some v → f k = .ok v

theorem agrees_withCapacity (f : κ → Except ε β) (capacity : Option Nat) :
    (withCapacity capacity : Memo κ β).Agrees f := by
  intro k v h
  simp [withCapacity, get?] at h

theorem agrees_clear (f : κ → Except ε β) (m : Memo κ β) : m.clear.Agrees f := by
  intro k v h
  simp [clear, get?] at h

theorem agrees_of_mem_new {remember : Bool} {capacity : Option Nat}
    (h : m ∈ if remember then some (withCapacity capacity : Memo κ β) else none) : m.Agrees f := by
  split at h
  · cases h
    exact agrees_withCapacity f capacity
  · cases h

theorem agrees_of_mem_clear {o : Option (Memo κ β)} (h : m ∈ o.map clear) : m.Agrees f := by
  rw [Option.mem_def, Option.map_eq_some_iff] at h
  obtain ⟨m', _, rfl⟩ := h
  exact agrees_clear f m'

theorem agrees_countHit (h : m.Agrees f) : m.countHit.Agrees f := h

theorem agrees_countMiss (h : m.Agrees f) : m.countMiss.Agrees f := h

variable [LawfulBEq κ]

/-- Publishing the right value answers with it, also if the key was filled in the meantime. -/
theorem publish_agrees (h : m.Agrees f) {k : κ} {v : β} (hv : f k = .ok v) :
    (m.publish k v).1 = v ∧ (m.publish k v).2.Agrees f := by
  have hanswer : (m.publish k v).1 = v := by
    cases hk : m.get? k with
    | some kept =>
      rw [publish_of_get?_some m k v hk]
      exact Except.ok.inj ((h k kept hk).symm.trans hv)
    | none => simp [publish, hk]
  refine ⟨hanswer, fun k' v' hk' => ?_⟩
  by_cases hne : k' = k
  · subst hne
    rcases get?_publish m k' v with hkept | ⟨hnone, -⟩
    · rw [hkept, hanswer] at hk'
      cases hk'
      exact hv
    · simp [hnone] at hk'
  · rw [get?_publish_of_ne m v hne] at hk'
    exact h k' v' hk'

/-- **A memo is transparent.** If the computation answers what `f` does, keeps agreement and keeps
the property `P` of its own state, then asking through the memo answers what `f` does, keeps
agreement and keeps `P`. -/
theorem compute_agrees {P : τ → Prop} {t : τ} {k : κ}
    (run : Memo κ β → τ → Except ε β × Memo κ β × τ) (hm : m.Agrees f) (ht : P t)
    (hrun : ∀ m t, m.Agrees f → P t →
      (run m t).1 = f k ∧ (run m t).2.1.Agrees f ∧ P (run m t).2.2) :
    (m.compute t k run).1 = f k ∧ (m.compute t k run).2.1.Agrees f ∧
      P (m.compute t k run).2.2 := by
  cases hk : m.get? k with
  | some v =>
    rw [compute_of_get?_some hk]
    exact ⟨(hm k v hk).symm, agrees_countHit hm, ht⟩
  | none =>
    obtain ⟨h1, h2, h3⟩ := hrun m.countMiss t (agrees_countMiss hm) ht
    rcases hr : run m.countMiss t with ⟨answer, m', t'⟩
    rw [hr] at h1 h2 h3
    cases answer with
    | error e =>
      rw [compute_of_error hk hr]
      exact ⟨h1, h2, h3⟩
    | ok v =>
      obtain ⟨p1, p2⟩ := publish_agrees h2 h1.symm
      rw [compute_of_ok hk hr, p1]
      exact ⟨h1, p2, h3⟩

end Wiring.Memo
