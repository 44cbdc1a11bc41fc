import Wiring.Text.Digits
import Wiring.Toml.Scan
import Wiring.Toml.Value
/-!
# Numbers

Whole numbers of 64 bits in four bases, and binary numbers written as decimals. Single
underscores may stand between digits. A decimal has no leading zeros, its fraction and its
exponent may have them.
-/

namespace Wiring.Toml.Scan

/-- Digits of a class, with single underscores between them. -/
def digits (isDigit : Char → Bool) : Scan (List Char) :=
  sepBy1 (one isDigit) (optional (char '_'))

/-- A zero alone, or digits without a leading zero. -/
def wholeDigits : Scan (List Char) := char '0' *> pure ['0'] <|> digits Char.isDigit

/-- Whether there is a minus sign; a plus sign is the same as none. -/
def negative : Scan Bool := char '-' *> pure true <|> char '+' *> pure false <|> pure false

/-! ## Whole numbers -/

/-- The bases other than ten, with their letters and digits. -/
def bases : List (Char × Nat × (Char → Bool)) := [
  ('x', 16, Text.isHexDigit), ('o', 8, fun c => '0' ≤ c && c ≤ '7'),
  ('b', 2, fun c => c == '0' || c == '1')]

/-- A number with the letter of its base in front, and no sign. -/
def basedInteger : Scan Int := do
  discard (char '0')
  let letter ← one fun _ => true
  let (base, isDigit) ← (bases.lookup letter : Option _)
  return Text.valueOf base (← digits isDigit)

def decimalInteger : Scan Int := do
  let minus ← negative
  let n := Text.valueOf 10 (← wholeDigits)
  return if minus then -n else n

/-- A whole number of 64 bits with a sign. -/
def integer : Scan Int := do
  let n ← basedInteger <|> decimalInteger
  guard (Int64.minValue.toInt ≤ n ∧ n ≤ Int64.maxValue.toInt)
  return n

/-! ## Binary numbers -/

def fraction : Scan (List Char) := char '.' *> digits Char.isDigit

def exponent : Scan Int := do
  discard (one fun c => c == 'e' || c == 'E')
  let minus ← negative
  let n := Text.valueOf 10 (← digits Char.isDigit)
  return if minus then -n else n

/-- A decimal with a fraction, an exponent or both. One that is too large is malformed, unless it
is negative: then it is read as infinite. -/
def decimal : Scan Binary64 := do
  let minus ← negative
  let whole ← wholeDigits
  let (places, power) ←
    (([], ·) <$> exponent) <|> (do return (← fraction, (← optional exponent).getD 0))
  let x := Binary64.ofDecimal minus (Text.valueOf 10 (whole ++ places)) (power - places.length)
  guard (x ≠ .infinite false)
  return x

/-- The numbers that are named. -/
def named : Scan Binary64 := do
  let minus ← negative
  exactly ['i', 'n', 'f'] *> pure (.infinite minus) <|> exactly ['n', 'a', 'n'] *> pure .nan

def float : Scan Binary64 := decimal <|> named

end Wiring.Toml.Scan
