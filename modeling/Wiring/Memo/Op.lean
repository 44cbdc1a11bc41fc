import Wiring.Memo.Basic
/-!
# Operations on a memo

Operations form trees: while a value is computed, further operations may run on the same memo,
also for the same key. Running a tree gives a report of the same shape.
-/

namespace Wiring.Memo

/-- An operation on a memo whose computations fail with an `ε`. -/
inductive Op (κ β ε : Type) where
  | get (k : κ)
  /-- Asks for a computed value. The computation runs the operations `during` and has the given
  outcome. -/
  | compute (k : κ) (during : List (Op κ β ε)) (outcome : Except ε β)
  | clear
  | size

/-- What an operation answers. -/
inductive Answer (β ε : Type) where
  | kept (v : Option β)
  | computed (v : Except ε β)
  | cleared
  | size (n : Nat)

/-- The counts of a memo. -/
structure Stats where
  hits : Nat
  misses : Nat
  entries : Nat
deriving DecidableEq, Repr

def stats {κ β : Type} (m : Memo κ β) : Stats := ⟨m.hits, m.misses, m.size⟩

/-- The answer of an operation, the reports of the operations during its computation if there
was one, and the counts after it. -/
inductive Report (β ε : Type) where
  | mk (answer : Answer β ε) (during : Option (List (Report β ε))) (stats : Stats)

variable {κ β ε : Type} [BEq κ]

mutual

def Op.run : Op κ β ε → Memo κ β → Report β ε × Memo κ β
  | .get k, m => (.mk (.kept (m.get? k)) none m.stats, m)
  | .compute k during outcome, m =>
    let (v, m, reports) := m.compute none k fun m _ =>
      let (reports, m) := runAll during m
      (outcome, m, some reports)
    (.mk (.computed v) reports m.stats, m)
  | .clear, m => (.mk .cleared none m.clear.stats, m.clear)
  | .size, m => (.mk (.size m.size) none m.stats, m)

/-- The reports of several operations, one after the other. -/
def runAll : List (Op κ β ε) → Memo κ β → List (Report β ε) × Memo κ β
  | [], m => ([], m)
  | op :: ops, m =>
    let (report, m) := op.run m
    let (reports, m) := runAll ops m
    (report :: reports, m)

end

end Wiring.Memo
