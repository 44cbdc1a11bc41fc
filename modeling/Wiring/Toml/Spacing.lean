import Wiring.Toml.Scan
/-!
# Spacing

What stands between the parts of a document: blanks within a line, comments, and line ends.
-/

namespace Wiring.Toml

/-- Blanks within a line. -/
def isSpace (c : Char) : Bool := c == ' ' || c == '\t'

/-- The characters of comments and of most texts: all but control characters, and the tab. -/
def isPlain (c : Char) : Bool := c == '\t' || (0x20 ≤ c.toNat && c.toNat != 0x7F)

namespace Scan

def spaces : Scan Unit := discard (run isSpace)

/-- A line feed, with or without a carriage return before it. -/
def newline : Scan Unit := do
  discard (optional (char '\r'))
  discard (char '\n')

def comment : Scan Unit := do
  discard (char '#')
  discard (run isPlain)

/-- What may follow the content of a line. -/
def lineEnd : Scan Unit := do
  spaces
  discard (optional comment)
  newline <|> atEnd

/-- Blanks, line ends and comments. -/
def spacing : Scan Unit := do
  spaces
  discard (many (do discard (optional comment); newline; spaces))

/-- A value with blanks around it. -/
def spaced {α : Type} (s : Scan α) : Scan α := spaces *> s <* spaces

end Scan

end Wiring.Toml
