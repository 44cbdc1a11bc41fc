import Wiring.Decimal.Positional
/-!
# JSON values

The values of a JSON document and their compact text. A number is an integer with a count of
decimal places, so that `1` and `1.0` are written apart.
-/

namespace Wiring

inductive Json where
  | null
  | bool (b : Bool)
  /-- The number `mantissa / 10 ^ places`. -/
  | num (mantissa : Int) (places : Nat)
  | str (s : String)
  | arr (items : List Json)
  | obj (fields : List (String × Json))
deriving Inhabited

namespace Json

def int (n : Int) : Json := .num n 0

def nat (n : Nat) : Json := .num n 0

/-! ## Text -/

/-- Lower-case hexadecimal digits, at least `width` of them. -/
def hex (width n : Nat) : List Char :=
  let digits := Nat.toDigits 16 n
  List.replicate (width - digits.length) '0' ++ digits

/-- A character inside a quoted text: quotes, backslashes and control characters are escaped. -/
def escapeChar (c : Char) : List Char :=
  if c = '"' then ['\\', '"']
  else if c = '\\' then ['\\', '\\']
  else if c.toNat < 0x20 then ['\\', 'u'] ++ hex 4 c.toNat
  else [c]

def quote (s : String) : String :=
  "\"" ++ String.ofList (s.toList.flatMap escapeChar) ++ "\""

def numText (mantissa : Int) (places : Nat) : String :=
  (if mantissa < 0 then "-" else "") ++ Decimal.positional mantissa.natAbs places

mutual

/-- The text without blanks. -/
def render : Json → String
  | .null => "null"
  | .bool true => "true"
  | .bool false => "false"
  | .num m places => numText m places
  | .str s => quote s
  | .arr items => "[" ++ renderItems items ++ "]"
  | .obj fields => "\x7b" ++ renderFields fields ++ "\x7d"

def renderItems : List Json → String
  | [] => ""
  | [j] => j.render
  | j :: js => j.render ++ "," ++ renderItems js

def renderFields : List (String × Json) → String
  | [] => ""
  | [(k, j)] => quote k ++ ":" ++ j.render
  | (k, j) :: fields => quote k ++ ":" ++ j.render ++ "," ++ renderFields fields

end

end Json

end Wiring
