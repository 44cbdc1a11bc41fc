import Wiring.Toml.Quoted
/-!
# Keys

A key is a name, or several names with dots between them, which lead through tables to the place
of the last one. A name is bare or quoted on one line.
-/

namespace Wiring.Toml

/-- The name of a value, and the names of the tables on the way to it. -/
structure Key where
  path : List String
  name : String
deriving DecidableEq, Inhabited, Repr

namespace Key

/-- A key has fewer names than this. -/
def maxNames : Nat := 80

def ofNames? (names : List String) : Option Key := Key.mk names.dropLast <$> names.getLast?

end Key

namespace Scan

def isBare (c : Char) : Bool := c.isAlphanum || c == '-' || c == '_'

def name : Scan String := String.ofList <$> (basic <|> literal <|> run1 isBare)

def key : Scan Key := do
  let names ← sepBy1 (spaced name) (char '.')
  guard (names.length < Key.maxNames)
  Key.ofNames? names

end Scan

end Wiring.Toml
