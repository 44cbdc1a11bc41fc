import Wiring.Decimal.Binary64
/-!
# Values of a TOML document

A document is a table, and a table holds values under keys, in the order in which they came.
-/

namespace Wiring.Toml

inductive Value where
  | str (s : String)
  | int (n : Int)
  | float (x : Binary64)
  | bool (b : Bool)
  /-- A date, a time of day, or both, as it is written. -/
  | dateTime (written : String)
  | array (items : List Value)
  | table (entries : List (String × Value))
deriving Inhabited

/-- Values under their keys. -/
abbrev Table := List (String × Value)

end Wiring.Toml
