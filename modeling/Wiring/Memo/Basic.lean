/-!
# Memos

A memo keeps the values of keys that were computed before. A value is computed when it is asked
for and not there; a failed computation leaves nothing behind; and once the memo holds as many
entries as its capacity allows, values of new keys are still computed but not kept. Each request
for a computed value counts as a hit or as a miss.
-/

namespace Wiring

structure Memo (κ β : Type) where
  entries : List (κ × β)
  /-- How many entries may be kept; no limit if absent. -/
  capacity : Option Nat
  hits : Nat
  misses : Nat
deriving Repr

namespace Memo

variable {κ β : Type}

def withCapacity (capacity : Option Nat) : Memo κ β := ⟨[], capacity, 0, 0⟩

def size (m : Memo κ β) : Nat := m.entries.length

def isEmpty (m : Memo κ β) : Bool := m.entries.isEmpty

/-- Drops all entries; the counts go on. -/
def clear (m : Memo κ β) : Memo κ β := { m with entries := [] }

/-- No further entry may be kept. -/
def isFull (m : Memo κ β) : Bool := m.capacity.any fun n => n ≤ m.size

def countHit (m : Memo κ β) : Memo κ β := { m with hits := m.hits + 1 }

def countMiss (m : Memo κ β) : Memo κ β := { m with misses := m.misses + 1 }

variable [BEq κ]

/-- The value that is kept for a key. -/
def get? (m : Memo κ β) (k : κ) : Option β := m.entries.lookup k

/-- Keeps a value if its key has none and there is room. The answer is the value the key had, or
else the one given. -/
def publish (m : Memo κ β) (k : κ) (v : β) : β × Memo κ β :=
  match m.get? k with
  | some kept => (kept, m)
  | none => (v, if m.isFull then m else { m with entries := (k, v) :: m.entries })

/-- The value of a key, computed by `run` if it is not kept. The computation may itself use the
memo, and may change a state `τ` of its own. -/
def compute {ε τ : Type} (m : Memo κ β) (t : τ) (k : κ)
    (run : Memo κ β → τ → Except ε β × Memo κ β × τ) : Except ε β × Memo κ β × τ :=
  match m.get? k with
  | some v => (.ok v, m.countHit, t)
  | none =>
    match run m.countMiss t with
    | (.error e, m, t) => (.error e, m, t)
    | (.ok v, m, t) =>
      let (v, m) := m.publish k v
      (.ok v, m, t)

end Memo

end Wiring
