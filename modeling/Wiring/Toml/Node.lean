import Wiring.Toml.Key
import Wiring.Toml.Value
/-!
# Tables under construction

The lines of a document add to tables one after the other. What may be added to a table depends
on how the table came about: a header defines a table once, a dotted key may only add to tables
that dotted keys made, and a value is never changed. An array of tables grows by its headers, and
all else that leads to it goes to its last table.
-/

namespace Wiring.Toml

/-- How a table came about. -/
inductive Origin where
  /-- It is the document, or it has a header. -/
  | defined
  /-- It was on the way of a header, and may still get one of its own. -/
  | passed
  /-- It was on the way of a dotted key. -/
  | dotted
deriving DecidableEq, Inhabited, Repr

inductive Node where
  | value (v : Value)
  | table (origin : Origin) (entries : List (String × Node))
  /-- An array of tables with at least one. -/
  | tables (earlier : List (List (String × Node))) (last : List (String × Node))
deriving Inhabited

namespace Node

/-- The entries of a table. -/
abbrev Entries := List (String × Node)

/-- The entries with the node under a key replaced where it stands. -/
def put (es : Entries) (k : String) (n : Node) : Entries :=
  es.map fun e => if e.1 = k then (k, n) else e

/-- Changes the table at the end of a path, and makes the tables on the way that are missing. With
`dotted` the way is that of a dotted key, else that of a header. -/
def change (dotted : Bool) (f : Origin → Entries → Option Entries) :
    List String → Origin → Entries → Option Entries
  | [], origin, es => f origin es
  | k :: path, _, es =>
    match es.lookup k with
    | none => do
      let origin := if dotted then .dotted else .passed
      return es ++ [(k, .table origin (← change dotted f path origin []))]
    | some (.value _) => none
    | some (.table origin inner) => do
      guard !(dotted && origin = .defined)
      return put es k (.table origin (← change dotted f path origin inner))
    | some (.tables earlier last) => do
      return put es k (.tables earlier (← change dotted f path .defined last))

/-! ## Lines -/

/-- Adds a value under a new key. Only dotted keys add to the tables of dotted keys. -/
def addEntry (es : Entries) (entry : Key × Value) : Option Entries :=
  let (key, v) := entry
  change true (fun origin es => do
    guard (key.path.isEmpty || origin = .dotted)
    guard (es.lookup key.name).isNone
    return es ++ [(key.name, .value v)]) key.path .defined es

/-- The table of a header with the entries below it. A table that headers passed through is
completed, and moves to the end. -/
def addTable (es : Entries) (key : Key) (entries : List (Key × Value)) : Option Entries :=
  change false (fun _ es => do
    let started ← match es.lookup key.name with
      | none => some []
      | some (.table .passed inner) => some inner
      | some _ => none
    let inner ← entries.foldlM addEntry started
    return es.filter (·.1 ≠ key.name) ++ [(key.name, .table .defined inner)])
    key.path .defined es

/-- One more table in an array of tables, with the entries below its header. -/
def addToTables (es : Entries) (key : Key) (entries : List (Key × Value)) : Option Entries :=
  change false (fun _ es => do
    let inner ← entries.foldlM addEntry []
    match es.lookup key.name with
    | none => some (es ++ [(key.name, .tables [] inner)])
    | some (.tables earlier last) => some (put es key.name (.tables (earlier ++ [last]) inner))
    | some _ => none)
    key.path .defined es

/-! ## Values -/

mutual

/-- The value of a finished node. -/
def toValue : Node → Value
  | .value v => v
  | .table _ es => .table (toTable es)
  | .tables earlier last => .array (toTables earlier ++ [.table (toTable last)])

def toTable : List (String × Node) → Table
  | [] => []
  | (k, n) :: es => (k, n.toValue) :: toTable es

def toTables : List (List (String × Node)) → List Value
  | [] => []
  | t :: ts => .table (toTable t) :: toTables ts

end

/-- The table of entries in the order of their lines. -/
def tableOf? (entries : List (Key × Value)) : Option Table :=
  toTable <$> entries.foldlM addEntry []

end Node

end Wiring.Toml
