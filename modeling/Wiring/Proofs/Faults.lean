/-!
# What a computation may fail with

`FailsOnly P x` says that every fault of `x` has the property `P`; a computation that never fails
has it for every `P`. A sequence fails with what one of its steps fails with. `FailsFirst f l e`
says that a walk through `l` that asks `f` about each member stops with the fault `e`.
-/

namespace Wiring

variable {ε α β : Type}

/-- A sequence succeeds when each step does. -/
theorem bind_eq_ok {x : Except ε α} {f : α → Except ε β} {b : β} :
    (x >>= f) = .ok b ↔ ∃ a, x = .ok a ∧ f a = .ok b := by
  cases x <;> simp [bind, Except.bind]

/-- A sequence fails where the first step does, or with what the rest fails with. -/
theorem bind_eq_error {x : Except ε α} {f : α → Except ε β} {e : ε} :
    (x >>= f) = .error e ↔ x = .error e ∨ ∃ a, x = .ok a ∧ f a = .error e := by
  cases x <;> simp [bind, Except.bind]

/-- Whatever `x` fails with has the property `P`. -/
def FailsOnly (P : ε → Prop) (x : Except ε α) : Prop := ∀ e, x = .error e → P e

namespace FailsOnly

variable {P Q : ε → Prop} {x : Except ε α}

theorem ok (a : α) : FailsOnly P (.ok a : Except ε α) := fun _ h => by cases h

theorem error {e : ε} (h : P e) : FailsOnly P (.error e : Except ε α) := fun _ he => by
  cases he
  exact h

theorem mono (h : FailsOnly P x) (hPQ : ∀ e, P e → Q e) : FailsOnly Q x :=
  fun e he => hPQ e (h e he)

theorem bind {f : α → Except ε β} (h : FailsOnly P x) (hf : ∀ a, x = .ok a → FailsOnly P (f a)) :
    FailsOnly P (x >>= f) := by
  cases x with
  | error e => exact error (h e rfl)
  | ok a => exact hf a rfl

theorem allM {f : α → Except ε Bool} {l : List α} (h : ∀ a ∈ l, FailsOnly P (f a)) :
    FailsOnly P (l.allM f) := by
  induction l with
  | nil => exact ok true
  | cons a l ih =>
    refine bind (h a (by simp)) fun b _ => ?_
    cases b with
    | true => exact ih fun a ha => h a (by simp [ha])
    | false => exact ok false

theorem anyM {f : α → Except ε Bool} {l : List α} (h : ∀ a ∈ l, FailsOnly P (f a)) :
    FailsOnly P (l.anyM f) := by
  induction l with
  | nil => exact ok false
  | cons a l ih =>
    refine bind (h a (by simp)) fun b _ => ?_
    cases b with
    | true => exact ok true
    | false => exact ih fun a ha => h a (by simp [ha])

end FailsOnly

/-- `e` is the fault of `f` at the first member of the list at which `f` fails. -/
def FailsFirst (f : α → Except ε β) (l : List α) (e : ε) : Prop :=
  ∃ before a after, l = before ++ a :: after ∧ (∀ b ∈ before, ∃ v, f b = .ok v) ∧ f a = .error e

namespace FailsFirst

variable {f : α → Except ε β} {l l' : List α} {a : α} {e : ε}

theorem not_nil : ¬ FailsFirst f [] e := by
  rintro ⟨before, a, after, h, -⟩
  simp at h

theorem cons_iff :
    FailsFirst f (a :: l) e ↔ f a = .error e ∨ (∃ v, f a = .ok v) ∧ FailsFirst f l e := by
  constructor
  · rintro ⟨before, b, after, h, hbefore, hb⟩
    rcases List.cons_eq_append_iff.1 h with ⟨rfl, h⟩ | ⟨before, rfl, rfl⟩
    · cases h
      exact .inl hb
    · obtain ⟨ha, hbefore⟩ := List.forall_mem_cons.1 hbefore
      exact .inr ⟨ha, before, b, after, rfl, hbefore, hb⟩
  · rintro (ha | ⟨ha, before, b, after, rfl, hbefore, hb⟩)
    · exact ⟨[], a, l, rfl, by simp, ha⟩
    · exact ⟨a :: before, b, after, rfl, List.forall_mem_cons.2 ⟨ha, hbefore⟩, hb⟩

/-- A walk through two lists stops in the second one only if nothing fails in the first. -/
theorem append_iff :
    FailsFirst f (l ++ l') e ↔
      FailsFirst f l e ∨ (∀ a ∈ l, ∃ v, f a = .ok v) ∧ FailsFirst f l' e := by
  induction l with
  | nil => simp [not_nil]
  | cons a l ih =>
    rw [List.cons_append, cons_iff, cons_iff, ih, List.forall_mem_cons, and_assoc, and_or_left,
      or_assoc]

/-- A walk stops somewhere exactly if some member is at fault. -/
theorem exists_iff : (∃ e, FailsFirst f l e) ↔ ∃ a ∈ l, ∃ e, f a = .error e := by
  induction l with
  | nil => simp [not_nil]
  | cons a l ih =>
    cases ha : f a with
    | error e => simp [cons_iff, ha]
    | ok v => simpa [cons_iff, ha] using ih

end FailsFirst

section

variable {f : α → Except ε β} {l : List α}

/-- To ask about each member of a list fails with the first fault. -/
theorem mapM_eq_error_iff {e : ε} : l.mapM f = .error e ↔ FailsFirst f l e := by
  induction l with
  | nil => simp [FailsFirst.not_nil, pure, Except.pure]
  | cons a l ih =>
    rw [List.mapM_cons, bind_eq_error, FailsFirst.cons_iff, ← ih]
    simp [bind_eq_error, pure, Except.pure]

theorem exists_mapM_eq_ok_iff : (∃ bs, l.mapM f = .ok bs) ↔ ∀ a ∈ l, ∃ b, f a = .ok b := by
  induction l with
  | nil => simp [pure, Except.pure]
  | cons a l ih =>
    rw [List.mapM_cons, List.forall_mem_cons, ← ih]
    simp only [bind_eq_ok]
    constructor
    · rintro ⟨_, b, hb, bs, hbs, -⟩
      exact ⟨⟨b, hb⟩, bs, hbs⟩
    · rintro ⟨⟨b, hb⟩, bs, hbs⟩
      exact ⟨_, b, hb, bs, hbs, rfl⟩

end

/-! ## Questions about all or some members -/

section

variable {f : α → Except ε Bool} {l : List α}

/-- Where no member is at fault, to ask about all is a plain test. -/
theorem allM_eq_ok {g : α → Bool} (h : ∀ a ∈ l, f a = .ok (g a)) : l.allM f = .ok (l.all g) := by
  induction l with
  | nil => rfl
  | cons a l ih =>
    rw [List.allM_cons, h a (by simp), ih fun b hb => h b (by simp [hb]), List.all_cons]
    cases g a <;> rfl

theorem anyM_eq_ok {g : α → Bool} (h : ∀ a ∈ l, f a = .ok (g a)) : l.anyM f = .ok (l.any g) := by
  induction l with
  | nil => rfl
  | cons a l ih =>
    rw [List.anyM_cons, h a (by simp), ih fun b hb => h b (by simp [hb]), List.any_cons]
    cases g a <;> rfl

theorem allM_eq_true_iff : l.allM f = .ok true ↔ ∀ a ∈ l, f a = .ok true := by
  induction l with
  | nil => simp [pure, Except.pure]
  | cons a l ih =>
    rw [List.allM_cons, List.forall_mem_cons, ← ih, bind_eq_ok]
    simp [pure, Except.pure]

theorem anyM_eq_false_iff : l.anyM f = .ok false ↔ ∀ a ∈ l, f a = .ok false := by
  induction l with
  | nil => simp [pure, Except.pure]
  | cons a l ih =>
    rw [List.anyM_cons, List.forall_mem_cons, ← ih, bind_eq_ok]
    simp [pure, Except.pure]

/-- All is refused only where some member is. -/
theorem exists_of_allM_eq_false (h : l.allM f = .ok false) : ∃ a ∈ l, f a = .ok false := by
  induction l with
  | nil => cases h
  | cons a l ih =>
    rw [List.allM_cons, bind_eq_ok] at h
    obtain ⟨b, hb, hrest⟩ := h
    cases b with
    | false => exact ⟨a, by simp, hb⟩
    | true =>
      obtain ⟨a', ha', hf⟩ := ih hrest
      exact ⟨a', by simp [ha'], hf⟩

theorem exists_of_anyM_eq_true (h : l.anyM f = .ok true) : ∃ a ∈ l, f a = .ok true := by
  induction l with
  | nil => cases h
  | cons a l ih =>
    rw [List.anyM_cons, bind_eq_ok] at h
    obtain ⟨b, hb, hrest⟩ := h
    cases b with
    | true => exact ⟨a, by simp, hb⟩
    | false =>
      obtain ⟨a', ha', hf⟩ := ih hrest
      exact ⟨a', by simp [ha'], hf⟩

end

end Wiring
