/-!
# Answers that need fuel

A question that counts its steps may stay open: its answer is an `Option`. `SettledBy x y` says
that `y` answers what `x` answers, and `Settles f a` that `f` gives the answer `a` with fuel enough.
`Converges f` says of a computation that may fail that with fuel enough it succeeds, with one
result.
-/

namespace Wiring

variable {α β : Type}

/-- What `x` answers, `y` answers too. -/
def SettledBy (x y : Option α) : Prop := ∀ a, x = some a → y = some a

namespace SettledBy

variable {x y : Option α}

protected theorem rfl : SettledBy x x := fun _ h => h

protected theorem none : SettledBy none y := fun _ h => by cases h

theorem bind {f g : α → Option β} (h : SettledBy x y) (hfg : ∀ a, SettledBy (f a) (g a)) :
    SettledBy (x >>= f) (y >>= g) := by
  intro b hb
  obtain ⟨a, hx, hf⟩ := Option.bind_eq_some_iff.1 hb
  exact Option.bind_eq_some_iff.2 ⟨a, h a hx, hfg a b hf⟩

theorem allM {f g : α → Option Bool} (h : ∀ a, SettledBy (f a) (g a)) (l : List α) :
    SettledBy (l.allM f) (l.allM g) := by
  induction l with
  | nil => exact SettledBy.rfl
  | cons a l ih =>
    refine bind (h a) fun b => ?_
    cases b with
    | true => exact ih
    | false => exact SettledBy.rfl

theorem anyM {f g : α → Option Bool} (h : ∀ a, SettledBy (f a) (g a)) (l : List α) :
    SettledBy (l.anyM f) (l.anyM g) := by
  induction l with
  | nil => exact SettledBy.rfl
  | cons a l ih =>
    refine bind (h a) fun b => ?_
    cases b with
    | true => exact SettledBy.rfl
    | false => exact ih

theorem forall_of_allM {f : α → Option Bool} {l : List α} (h : l.allM f = some true) :
    ∀ a ∈ l, f a = some true := by
  induction l with
  | nil => simp
  | cons a l ih =>
    obtain ⟨b, hb, hrest⟩ := Option.bind_eq_some_iff.1 h
    cases b with
    | true => exact List.forall_mem_cons.2 ⟨hb, ih hrest⟩
    | false => cases hrest

theorem exists_of_anyM {f : α → Option Bool} {l : List α} (h : l.anyM f = some true) :
    ∃ a ∈ l, f a = some true := by
  induction l with
  | nil => cases h
  | cons a l ih =>
    obtain ⟨b, hb, hrest⟩ := Option.bind_eq_some_iff.1 h
    cases b with
    | true => exact ⟨a, by simp, hb⟩
    | false =>
      obtain ⟨a', ha', hf⟩ := ih hrest
      exact ⟨a', by simp [ha'], hf⟩

end SettledBy

/-- Questions that are answered alike for all members are answered alike for the list. -/
theorem allM_congr {m : Type → Type} [Monad m] {f g : α → m Bool} {l : List α}
    (h : ∀ a ∈ l, f a = g a) : l.allM f = l.allM g := by
  induction l with
  | nil => rfl
  | cons a l ih =>
    rw [List.allM_cons, List.allM_cons, h a (by simp), ih fun b hb => h b (by simp [hb])]

theorem anyM_congr {m : Type → Type} [Monad m] {f g : α → m Bool} {l : List α}
    (h : ∀ a ∈ l, f a = g a) : l.anyM f = l.anyM g := by
  induction l with
  | nil => rfl
  | cons a l ih =>
    rw [List.anyM_cons, List.anyM_cons, h a (by simp), ih fun b hb => h b (by simp [hb])]

theorem anyM_singleton (f : α → Option Bool) (a : α) : [a].anyM f = f a := by
  rw [List.anyM]
  cases f a with
  | none => rfl
  | some b => cases b <;> rfl

theorem allM_ne_false {f : α → Option Bool} {l : List α} (h : ∀ a ∈ l, f a ≠ some false) :
    l.allM f ≠ some false := by
  induction l with
  | nil => exact nofun
  | cons a l ih =>
    intro hall
    obtain ⟨b, hb, hrest⟩ := Option.bind_eq_some_iff.1 hall
    cases b with
    | true => exact ih (fun b hb => h b (by simp [hb])) hrest
    | false => exact h a (by simp) hb

theorem anyM_ne_false {f : α → Option Bool} {l : List α} {a : α} (ha : a ∈ l)
    (h : f a ≠ some false) : l.anyM f ≠ some false := by
  induction l with
  | nil => cases ha
  | cons b l ih =>
    intro hany
    obtain ⟨v, hv, hrest⟩ := Option.bind_eq_some_iff.1 hany
    cases v with
    | true => cases hrest
    | false =>
      rcases List.mem_cons.1 ha with rfl | ha
      · exact h hv
      · exact ih ha hrest

/-- `P` holds with fuel enough. -/
def Eventually (P : Nat → Prop) : Prop := ∃ N, ∀ n, N ≤ n → P n

namespace Eventually

variable {P Q : Nat → Prop}

theorem of_forall (h : ∀ n, P n) : Eventually P := ⟨0, fun n _ => h n⟩

theorem mono (h : Eventually P) (hPQ : ∀ n, P n → Q n) : Eventually Q := by
  obtain ⟨N, hN⟩ := h
  exact ⟨N, fun n hn => hPQ n (hN n hn)⟩

theorem and (hP : Eventually P) (hQ : Eventually Q) : Eventually fun n => P n ∧ Q n := by
  obtain ⟨N, hN⟩ := hP
  obtain ⟨M, hM⟩ := hQ
  exact ⟨max N M, fun n hn => ⟨hN n (by omega), hM n (by omega)⟩⟩

end Eventually

/-- With fuel enough, `f` gives the answer `a`. -/
def Settles (f : Nat → Option α) (a : α) : Prop := Eventually fun n => f n = some a

namespace Settles

variable {f : Nat → Option α} {a : α}

theorem const (a : α) : Settles (fun _ => some a) a := Eventually.of_forall fun _ => rfl

/-- The first unit of fuel may be spent at once. -/
theorem of_succ (h : Settles (fun n => f (n + 1)) a) : Settles f a := by
  obtain ⟨N, hN⟩ := h
  refine ⟨N + 1, fun n hn => ?_⟩
  obtain ⟨n, rfl⟩ : ∃ k, n = k + 1 := ⟨n - 1, by omega⟩
  exact hN n (by omega)

theorem congr {g : Nat → Option α} (h : Settles f a) (hfg : ∀ n, f n = g n) : Settles g a :=
  h.mono fun n hn => (hfg n).symm.trans hn

theorem bind {g : Nat → α → Option β} {b : β} (h : Settles f a)
    (hg : Settles (fun n => g n a) b) : Settles (fun n => f n >>= g n) b := by
  refine (h.and hg).mono fun n hn => ?_
  show f n >>= g n = some b
  rw [hn.1]
  exact hn.2

/-- Where more fuel keeps answers, one answer settles the question. -/
theorem of_mono {n : Nat} (hf : ∀ n m, n ≤ m → SettledBy (f n) (f m)) (h : f n = some a) :
    Settles f a :=
  ⟨n, fun m hm => hf n m hm a h⟩

theorem unique {b : α} (ha : Settles f a) (hb : Settles f b) : a = b := by
  obtain ⟨N, hN⟩ := ha.and hb
  obtain ⟨ha, hb⟩ := hN N (Nat.le_refl N)
  exact Option.some.inj (ha.symm.trans hb)

theorem allM {g : Nat → α → Option Bool} {l : List α}
    (h : ∀ a ∈ l, Settles (fun n => g n a) true) : Settles (fun n => l.allM (g n)) true := by
  induction l with
  | nil => exact const true
  | cons a l ih => exact (h a (by simp)).bind (ih fun b hb => h b (by simp [hb]))

/-- If each member of a list has an answer, so has the question about all of them. -/
theorem exists_allM {g : Nat → α → Option Bool} {l : List α}
    (h : ∀ a ∈ l, ∃ v, Settles (fun n => g n a) v) : ∃ v, Settles (fun n => l.allM (g n)) v := by
  induction l with
  | nil => exact ⟨true, const true⟩
  | cons a l ih =>
    obtain ⟨v, hv⟩ := h a (by simp)
    cases v with
    | true =>
      obtain ⟨w, hw⟩ := ih fun b hb => h b (by simp [hb])
      exact ⟨w, hv.bind hw⟩
    | false => exact ⟨false, hv.bind (const false)⟩

theorem exists_anyM {g : Nat → α → Option Bool} {l : List α}
    (h : ∀ a ∈ l, ∃ v, Settles (fun n => g n a) v) : ∃ v, Settles (fun n => l.anyM (g n)) v := by
  induction l with
  | nil => exact ⟨false, const false⟩
  | cons a l ih =>
    obtain ⟨v, hv⟩ := h a (by simp)
    cases v with
    | true => exact ⟨true, hv.bind (const true)⟩
    | false =>
      obtain ⟨w, hw⟩ := ih fun b hb => h b (by simp [hb])
      exact ⟨w, hv.bind hw⟩

end Settles

/-- With fuel enough, `f` succeeds, and always with the same result. -/
def Converges {ε : Type} (f : Nat → Except ε α) : Prop := ∃ a, Eventually fun n => f n = .ok a

namespace Converges

variable {ε : Type} {f : Nat → Except ε α}

theorem ok (a : α) : Converges fun _ => (.ok a : Except ε α) :=
  ⟨a, Eventually.of_forall fun _ => rfl⟩

theorem congr {g : Nat → Except ε α} (h : Converges f) (hfg : ∀ n, f n = g n) : Converges g := by
  obtain ⟨a, ha⟩ := h
  exact ⟨a, ha.mono fun n hn => (hfg n).symm.trans hn⟩

theorem of_eq {x : Except ε α} (hf : ∀ n, f n = x) (hx : ∃ a, x = .ok a) : Converges f := by
  obtain ⟨a, rfl⟩ := hx
  exact ⟨a, Eventually.of_forall hf⟩

theorem bind {g : Nat → α → Except ε β} (h : Converges f) (hg : ∀ a, Converges fun n => g n a) :
    Converges fun n => f n >>= g n := by
  obtain ⟨a, ha⟩ := h
  obtain ⟨b, hb⟩ := hg a
  refine ⟨b, (ha.and hb).mono fun n hn => ?_⟩
  show f n >>= g n = .ok b
  rw [hn.1]
  exact hn.2

theorem allM {g : Nat → α → Except ε Bool} {l : List α}
    (h : ∀ a ∈ l, Converges fun n => g n a) : Converges fun n => l.allM (g n) := by
  induction l with
  | nil => exact ok true
  | cons a l ih =>
    refine bind (h a (by simp)) fun fits => ?_
    cases fits with
    | true => exact ih fun b hb => h b (by simp [hb])
    | false => exact ok false

theorem anyM {g : Nat → α → Except ε Bool} {l : List α}
    (h : ∀ a ∈ l, Converges fun n => g n a) : Converges fun n => l.anyM (g n) := by
  induction l with
  | nil => exact ok false
  | cons a l ih =>
    refine bind (h a (by simp)) fun fits => ?_
    cases fits with
    | true => exact ok true
    | false => exact ih fun b hb => h b (by simp [hb])

end Converges

end Wiring
