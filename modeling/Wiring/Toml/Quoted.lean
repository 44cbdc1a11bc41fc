import Wiring.Text.Digits
import Wiring.Toml.Spacing
/-!
# Texts

A text stands between double quotes, where a backslash starts an escape, or between single
quotes, where all characters are as they stand. Between three quotes of either kind it may go
over several lines.
-/

namespace Wiring.Toml.Scan

/-- The character with a number of so many hexadecimal digits. -/
def numbered (width : Nat) : Scan Char := do
  let digits ← times width (one Text.isHexDigit)
  let n := Text.valueOf 16 digits
  guard n.isValidChar
  return Char.ofNat n

/-- The escapes of one letter. -/
def escapes : List (Char × Char) := [
  ('b', '\x08'), ('f', '\x0c'), ('n', '\n'), ('r', '\r'), ('t', '\t'), ('\\', '\\'), ('"', '"')]

/-- What an escape stands for, after its backslash. -/
def escape : Scan Char := do
  let c ← one fun _ => true
  match escapes.lookup c with
  | some e => return e
  | none =>
    if c = 'u' then numbered 4
    else if c = 'U' then numbered 8
    else failure

def escaped : Scan (List Char) := char '\\' *> (fun c => [c]) <$> escape

def isBasic (c : Char) : Bool := isPlain c && c != '"' && c != '\\'

def isLiteral (c : Char) : Bool := isPlain c && c != '\''

/-! ## On one line -/

def basic : Scan (List Char) :=
  char '"' *> List.flatten <$> many (run1 isBasic <|> escaped) <* char '"'

def literal : Scan (List Char) := char '\'' *> run isLiteral <* char '\''

/-! ## Over several lines -/

/-- One or two quotes, which may stand inside three. -/
def innerQuotes (quote : Char) : Scan (List Char) := do
  let quotes ← run (· == quote)
  guard (quotes.length = 1 ∨ quotes.length = 2)
  return quotes

/-- The three closing quotes, with those that belong to the text before them. -/
def closingQuotes (quote : Char) : Scan (List Char) := do
  let quotes ← run (· == quote)
  guard (3 ≤ quotes.length ∧ quotes.length ≤ 5)
  return quotes.drop 3

/-- A backslash at the end of a line joins the next line that is not blank. -/
def joined : Scan (List Char) := do
  discard (char '\\')
  spaces
  newline
  discard (many (newline <|> discard (one isSpace)))
  return []

/-- A line end in a text is a line feed, however it is written. -/
def lineFeed : Scan (List Char) := newline *> pure ['\n']

/-- A text of many parts between three quotes; a line end right after the first three is not part
of it. -/
def multiline (quote : Char) (part : Scan (List Char)) : Scan (List Char) := do
  discard (times 3 (char quote))
  discard (optional newline)
  let parts ← many (part <|> lineFeed <|> innerQuotes quote)
  let quotes ← closingQuotes quote
  return parts.flatten ++ quotes

def multilineBasic : Scan (List Char) := multiline '"' (run1 isBasic <|> joined <|> escaped)

def multilineLiteral : Scan (List Char) := multiline '\'' (run1 isLiteral)

def text : Scan String :=
  String.ofList <$> (multilineBasic <|> basic <|> multilineLiteral <|> literal)

end Wiring.Toml.Scan
