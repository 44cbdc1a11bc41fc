import Wiring.Text.Combining
import Wiring.Text.Unprintable
/-!
# Quoted text

A text between double quotes. Quotes, backslashes and the common control characters have an
escape of two characters; other characters that would not be seen as themselves, because they
have no glyph or join the one before, are written by number as `\u{…}`.
-/

namespace Wiring.Text

/-- The escape by number, with as few digits as there can be. -/
def numbered (c : Char) : List Char :=
  ['\\', 'u', '{'] ++ Nat.toDigits 16 c.toNat ++ ['}']

/-- The written form of one character. -/
def escape (c : Char) : List Char :=
  if c = '"' then ['\\', '"']
  else if c = '\\' then ['\\', '\\']
  else if c = '\t' then ['\\', 't']
  else if c = '\n' then ['\\', 'n']
  else if c = '\r' then ['\\', 'r']
  else if c = '\x00' then ['\\', '0']
  else if isCombining c || isUnprintable c then numbered c
  else [c]

def quoteChars (cs : List Char) : List Char := ['"'] ++ cs.flatMap escape ++ ['"']

/-- The quoted form of a text. -/
def quote (s : String) : String := String.ofList (quoteChars s.toList)

end Wiring.Text
