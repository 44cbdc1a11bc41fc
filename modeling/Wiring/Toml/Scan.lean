/-!
# Reading from the front of a text

A scanner takes a value from the front of a list of characters and leaves the rest, or finds none
there. Scanners are joined by the operations of a state that may fail; repetition ends because
each turn must leave less than it found.
-/

namespace Wiring.Toml

/-- A reader of a value at the front of a text. -/
abbrev Scan := StateT (List Char) Option

namespace Scan

variable {α β : Type}

/-- One character of a class. -/
def one (p : Char → Bool) : Scan Char
  | [] => none
  | c :: cs => if p c then some (c, cs) else none

/-- The given character. -/
def char (c : Char) : Scan Char := one (· == c)

/-- The given characters, one after the other. -/
def exactly (cs : List Char) : Scan (List Char) := cs.mapM char

/-- All characters of a class up to the first that is not. -/
def run (p : Char → Bool) : Scan (List Char) := fun cs => some (cs.takeWhile p, cs.dropWhile p)

/-- As `run`, and at least one character. -/
def run1 (p : Char → Bool) : Scan (List Char) := do
  let cs ← run p
  guard (cs ≠ [])
  return cs

/-- The end of the text. -/
def atEnd : Scan Unit
  | [] => some ((), [])
  | _ :: _ => none

def times (n : Nat) (s : Scan α) : Scan (List α) := (List.replicate n s).mapM id

/-- The values of a scanner taken one after the other from a text, and what is left of it. -/
def manyFrom (s : Scan α) (cs : List Char) : List α × List Char :=
  match s cs with
  | none => ([], cs)
  | some (a, rest) =>
    if rest.length < cs.length then
      let more := manyFrom s rest
      (a :: more.1, more.2)
    else ([], cs)
termination_by cs.length

/-- As many values as there are. -/
def many (s : Scan α) : Scan (List α) := fun cs => some (manyFrom s cs)

/-- One value or more, with separators between them. -/
def sepBy1 (item : Scan α) (separator : Scan β) : Scan (List α) := do
  let first ← item
  let rest ← many (separator *> item)
  return first :: rest

def sepBy (item : Scan α) (separator : Scan β) : Scan (List α) :=
  sepBy1 item separator <|> pure []

/-- The characters that a scanner takes. -/
def taken (s : Scan α) : Scan (List Char) := fun cs => do
  let (_, rest) ← s cs
  return (cs.take (cs.length - rest.length), rest)

/-- The value of the whole text. -/
def whole? (s : Scan α) (cs : List Char) : Option α := Prod.fst <$> (s <* atEnd) cs

/-! ## What is left -/

end Scan

end Wiring.Toml
