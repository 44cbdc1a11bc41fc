import Wiring.Memo.Op
import Wiring.Proofs.Memo.Growth
/-!
# The course of operations on a memo

Between the moment in which a key is found missing and the one in which its value is published any
operations may run, and fill, clear or publish that very key. `Op.course` lists what happens while
an operation runs, nested operations included, with the memo after each move. A move that clears
nothing makes the memo grow (`Step`), and a course is a path of such steps (`Op.leads`), so what
each step keeps is kept between any two moments (`courseAll_accounts`).
-/

namespace Wiring.Memo

variable {κ β ε : Type}

/-- Induction over operations, with one hypothesis for those during a computation. -/
@[induction_eliminator]
theorem Op.induct {motive : Op κ β ε → Prop} (get : ∀ k, motive (.get k))
    (compute : ∀ k during outcome, (∀ op ∈ during, motive op) →
      motive (.compute k during outcome))
    (clear : motive .clear) (size : motive .size) : ∀ op, motive op := by
  intro op
  refine Op.rec (motive_1 := motive) (motive_2 := fun ops => ∀ op ∈ ops, motive op)
    get compute clear size ?_ ?_ op
  · intro _ h
    cases h
  · intro op ops hop hops op' h
    cases h with
    | head => exact hop
    | tail _ h => exact hops op' h

/-- What happens to a memo: a computed value is asked for, or an operation is answered. -/
inductive Move (κ β ε : Type) where
  | asked (k : κ)
  | answered (op : Op κ β ε) (answer : Answer β ε)

def Move.isAsked : Move κ β ε → Bool
  | .asked _ => true
  | .answered .. => false

def Move.isClear : Move κ β ε → Bool
  | .answered .clear _ => true
  | _ => false

def Report.answer : Report β ε → Answer β ε
  | .mk answer _ _ => answer

variable [BEq κ]

/-- The memo once a request for a computed value is counted. -/
def ask (m : Memo κ β) (k : κ) : Memo κ β := if (m.get? k).isSome then m.countHit else m.countMiss

/-- An operation is answered, with the memo that it leaves. -/
def Op.last (op : Op κ β ε) (m : Memo κ β) : Move κ β ε × Memo κ β :=
  (.answered op (op.run m).1.answer, (op.run m).2)

mutual

/-- What happens while an operation runs, with the memo after each move. -/
def Op.course : Op κ β ε → Memo κ β → List (Move κ β ε × Memo κ β)
  | .compute k during outcome, m =>
    (.asked k, m.ask k) ::
      ((if (m.get? k).isSome then [] else courseAll during (m.ask k)) ++
        [Op.last (.compute k during outcome) m])
  | .get k, m => [Op.last (.get k) m]
  | .clear, m => [Op.last .clear m]
  | .size, m => [Op.last .size m]

def courseAll : List (Op κ β ε) → Memo κ β → List (Move κ β ε × Memo κ β)
  | [], _ => []
  | op :: ops, m => op.course m ++ courseAll ops (op.run m).2

end

/-- What one move changes. -/
structure Step (m : Memo κ β) (x : Move κ β ε) (m' : Memo κ β) : Prop where
  capacity_eq : m'.capacity = m.capacity
  sound : m.Sound → m'.Sound
  kept : x.isClear = false → ∀ k v, m.get? k = some v → m'.get? k = some v
  counts : m'.hits + m'.misses = m.hits + m.misses + if x.isAsked then 1 else 0
  computed : ∀ k during outcome v, x = .answered (.compute k during outcome) (.computed (.ok v)) →
    m'.get? k = some v ∨ m'.get? k = none ∧ m'.isFull = true

/-- The moves lead from one memo to the other, step by step. -/
inductive Leads : Memo κ β → List (Move κ β ε × Memo κ β) → Memo κ β → Prop where
  | nil (m : Memo κ β) : Leads m [] m
  | cons {m m' m'' : Memo κ β} {x : Move κ β ε} {rest : List (Move κ β ε × Memo κ β)} :
      Step m x m' → Leads m' rest m'' → Leads m ((x, m') :: rest) m''

variable {m m' m'' : Memo κ β} {x : Move κ β ε} {before after : List (Move κ β ε × Memo κ β)}

namespace Leads

theorem single (h : Step m x m') : Leads m [(x, m')] m' := .cons h (.nil m')

theorem append (h : Leads m before m') (h' : Leads m' after m'') :
    Leads m (before ++ after) m'' := by
  induction h with
  | nil => exact h'
  | cons hstep _ ih => exact .cons hstep (ih h')

theorem split (h : Leads m (before ++ after) m'') :
    ∃ m', Leads m before m' ∧ Leads m' after m'' := by
  induction before generalizing m with
  | nil => exact ⟨m, .nil m, h⟩
  | cons y before ih =>
    cases h with
    | cons hstep h =>
      obtain ⟨m', hbefore, hafter⟩ := ih h
      exact ⟨m', .cons hstep hbefore, hafter⟩

/-- The last move leaves the memo that the moves lead to. -/
theorem last (h : Leads m before m') : ∀ moment ∈ before.getLast?, moment.2 = m' := by
  intro moment hlast
  obtain ⟨init, rfl⟩ := List.getLast?_eq_some_iff.1 hlast
  obtain ⟨_, -, h⟩ := h.split
  cases h with
  | cons _ h =>
    cases h
    rfl

/-- A moment in the course comes by one step, and the rest goes on from there. -/
theorem moment (h : Leads m (before ++ (x, m') :: after) m'') :
    Leads m (before ++ [(x, m')]) m' ∧ (∃ m₀, Step m₀ x m') ∧ Leads m' after m'' := by
  obtain ⟨m₀, hbefore, h⟩ := h.split
  cases h with
  | cons hstep hafter => exact ⟨hbefore.append (.single hstep), ⟨m₀, hstep⟩, hafter⟩

theorem capacity_eq (h : Leads m before m') : m'.capacity = m.capacity := by
  induction h with
  | nil => rfl
  | cons hstep _ ih => exact ih.trans hstep.capacity_eq

theorem sound (h : Leads m before m') (hm : m.Sound) : m'.Sound := by
  induction h with
  | nil => exact hm
  | cons hstep _ ih => exact ih (hstep.sound hm)

theorem kept (h : Leads m before m') (hclear : ∀ y ∈ before, y.1.isClear = false) {k : κ} {v : β}
    (hk : m.get? k = some v) : m'.get? k = some v := by
  induction h with
  | nil => exact hk
  | cons hstep _ ih =>
    obtain ⟨hx, hrest⟩ := List.forall_mem_cons.1 hclear
    exact ih hrest (hstep.kept hx k v hk)

theorem counts (h : Leads m before m') :
    m'.hits + m'.misses = m.hits + m.misses + before.countP (·.1.isAsked) := by
  induction h with
  | nil => rfl
  | cons hstep _ ih =>
    rw [ih, hstep.counts, List.countP_cons]
    exact (Nat.add_right_comm _ _ _).trans (Nat.add_assoc _ _ _)

end Leads

/-! ## Every course leads -/

section

variable (m : Memo κ β) (k : κ) (during : List (Op κ β ε))

theorem Op.run_compute_of_kept {v : β} (outcome : Except ε β) (h : m.get? k = some v) :
    (Op.compute k during outcome).run m =
      (.mk (.computed (.ok v)) none m.countHit.stats, m.countHit) := by
  simp [Op.run, compute_of_get?_some h]

theorem Op.run_compute_of_error (e : ε) (h : m.get? k = none) :
    (Op.compute k during (.error e)).run m =
      (.mk (.computed (.error e)) (some (runAll during m.countMiss).1)
        (runAll during m.countMiss).2.stats, (runAll during m.countMiss).2) := by
  rw [Op.run, compute_of_error h rfl]

theorem Op.run_compute_of_ok (v : β) (h : m.get? k = none) :
    (Op.compute k during (.ok v : Except ε β)).run m =
      (.mk (.computed (.ok ((runAll during m.countMiss).2.publish k v).1))
        (some (runAll during m.countMiss).1) ((runAll during m.countMiss).2.publish k v).2.stats,
        ((runAll during m.countMiss).2.publish k v).2) := by
  rw [Op.run, compute_of_ok h rfl]

theorem step_ask : Step m (.asked k : Move κ β ε) (m.ask k) := by
  unfold ask
  split
  · have h := Grows.countHit m
    exact ⟨rfl, h.sound, fun _ => h.kept, Nat.add_right_comm _ _ _, nofun⟩
  · have h := Grows.countMiss m
    exact ⟨rfl, h.sound, fun _ => h.kept, rfl, nofun⟩

end

theorem Step.of_grows {op : Op κ β ε} {answer : Answer β ε} (h : m.Grows m')
    (hcount : m'.hits + m'.misses = m.hits + m.misses)
    (hcomputed : ∀ k during outcome v, op = .compute k during outcome →
      answer = .computed (.ok v) → m'.get? k = some v ∨ m'.get? k = none ∧ m'.isFull = true) :
    Step m (.answered op answer) m' where
  capacity_eq := h.capacity_eq
  sound := h.sound
  kept _ := h.kept
  counts := hcount
  computed k during outcome v hx := by
    cases hx
    exact hcomputed k during outcome v rfl rfl

theorem Leads.all (ops : List (Op κ β ε))
    (h : ∀ op ∈ ops, ∀ m : Memo κ β, Leads m (op.course m) (op.run m).2) (m : Memo κ β) :
    Leads m (courseAll ops m) (runAll ops m).2 := by
  induction ops generalizing m with
  | nil => exact .nil m
  | cons op ops ih =>
    obtain ⟨hop, hops⟩ := List.forall_mem_cons.1 h
    exact (hop m).append (ih hops _)

variable [LawfulBEq κ]

/-- What a computed value is answered with is kept, unless the memo is full. -/
theorem Step.publish (m : Memo κ β) (k : κ) (during : List (Op κ β ε)) (outcome : Except ε β)
    (v : β) : Step m (.answered (.compute k during outcome) (.computed (.ok (m.publish k v).1)))
      (m.publish k v).2 := by
  refine .of_grows (grows_publish m k v) (by rw [hits_publish, misses_publish]) ?_
  intro k' during' outcome' v' hop hv
  cases hop
  cases hv
  exact get?_publish m k v

theorem Op.leads (op : Op κ β ε) (m : Memo κ β) : Leads m (op.course m) (op.run m).2 := by
  induction op generalizing m with
  | get k | size => exact .single (.of_grows (.refl m) rfl nofun)
  | clear => exact .single ⟨rfl, fun _ => sound_clear m, nofun, rfl, nofun⟩
  | compute k during outcome ih =>
    rw [Op.course]
    refine .cons (step_ask m k) ?_
    cases hk : m.get? k with
    | some v =>
      simp only [ask, hk, Option.isSome_some, if_true, List.nil_append, Op.last,
        Op.run_compute_of_kept m k during outcome hk]
      refine .single (.of_grows (.refl _) rfl fun k' during' outcome' v' hop hv => .inl ?_)
      cases hop
      cases hv
      exact hk
    | none =>
      simp only [ask, hk, Option.isSome_none, Bool.false_eq_true, if_false, Op.last]
      have hduring := Leads.all during ih m.countMiss
      cases outcome with
      | error e =>
        rw [Op.run_compute_of_error m k during e hk]
        exact hduring.append (.single (.of_grows (.refl _) rfl nofun))
      | ok v =>
        rw [Op.run_compute_of_ok m k during v hk]
        exact hduring.append (.single (.publish _ k during (.ok v) v))

/-- **What holds of a memo at every moment**, whatever runs while values are computed. The course
ends with the memo that running the operations leaves. At each moment there are no more entries than
the capacity allows, and there have been as many hits and misses as requests for computed values; a
value that such a request is answered with is kept, or its key is not and the memo is full; and a
kept value stays until the memo is cleared. A failed computation leaves what the operations during
it left. -/
theorem courseAll_accounts (capacity : Option Nat) (ops : List (Op κ β ε)) :
    let start : Memo κ β := withCapacity capacity
    let course := courseAll ops start
    (∀ moment ∈ course.getLast?, moment.2 = (runAll ops start).2) ∧
      (∀ before x m after, course = before ++ (x, m) :: after →
        m.capacity = capacity ∧ m.Sound ∧
        m.hits + m.misses = (before ++ [(x, m)]).countP (·.1.isAsked) ∧
        (∀ k during outcome v, x = .answered (.compute k during outcome) (.computed (.ok v)) →
          m.get? k = some v ∨ m.get? k = none ∧ capacity = some m.size) ∧
        ∀ between y m' later, after = between ++ (y, m') :: later →
          (∀ moment ∈ between ++ [(y, m')], moment.1.isClear = false) →
          ∀ k v, m.get? k = some v → m'.get? k = some v) ∧
      ∀ (m : Memo κ β) (k : κ) (during : List (Op κ β ε)) (e : ε), m.get? k = none →
        ((Op.compute k during (.error e)).run m).1.answer = .computed (.error e) ∧
        ((Op.compute k during (.error e)).run m).2 = (runAll during m.countMiss).2 := by
  intro start course
  have hcourse : Leads start course (runAll ops start).2 := .all ops (fun op _ => op.leads) start
  refine ⟨hcourse.last, fun before x m after heq => ?_, fun m k during e hk => ?_⟩
  · rw [heq] at hcourse
    obtain ⟨hbefore, ⟨m₀, hstep⟩, hafter⟩ := hcourse.moment
    have hcapacity : m.capacity = capacity := hbefore.capacity_eq
    have hsound := hbefore.sound (sound_withCapacity capacity)
    refine ⟨hcapacity, hsound, hbefore.counts.trans (Nat.zero_add _), ?_, ?_⟩
    · intro k during outcome v hx
      refine (hstep.computed k during outcome v hx).imp_right fun ⟨hnone, hfull⟩ => ⟨hnone, ?_⟩
      exact hcapacity.symm.trans (hsound.capacity_eq hfull)
    · intro between y m' later hlater hclear k v hk
      rw [hlater] at hafter
      exact hafter.moment.1.kept hclear hk
  · rw [Op.run_compute_of_error m k during e hk]
    exact ⟨rfl, rfl⟩

/-- Room for one value. The key 1 is published while it is computed, and the first value wins; the
key 2 is computed while the memo is cleared and a computation of the same key fails; the key 3 finds
no room. -/
theorem courseAll_accounts_nested :
    let ops : List (Op Nat Nat String) :=
      [.compute 1 [.compute 1 [] (.ok 10), .get 1] (.ok 20),
        .compute 2 [.clear, .compute 2 [] (.error "boom")] (.ok 30), .compute 3 [] (.ok 40),
        .compute 2 [] (.ok 50)]
    let final := (runAll ops (withCapacity (some 1))).2
    (∀ moment ∈ courseAll ops (withCapacity (some 1)), moment.2.size ≤ 1) ∧
      final.entries = [(2, 30)] ∧ final.hits + final.misses = 6 := by
  intro ops final
  obtain ⟨-, hmoment, -⟩ := courseAll_accounts (some 1) ops
  refine ⟨fun ⟨x, m⟩ hmem => ?_, rfl, rfl⟩
  obtain ⟨before, after, heq⟩ := List.append_of_mem hmem
  obtain ⟨hcapacity, hsound, -⟩ := hmoment before x m after heq
  exact hsound.fits 1 hcapacity

end Wiring.Memo
