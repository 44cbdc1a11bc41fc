import Wiring.Toml.DateTime
import Wiring.Toml.Key
import Wiring.Toml.Node
import Wiring.Toml.Number
/-!
# Documents

A document is a list of lines: entries, headers of tables and headers of arrays of tables. The
entries below a header belong to its table.

This reader is a stand-in for any other reader of TOML 1.0. It is assumed of such a reader that it
takes the documents of that language and no other texts, with the values in the order in which they
were written. No theorem about the settings rests on more of it than the documents of the texts that
the theorem is about: what reads the text is a parameter there (`Settings.LoadsAsDeclared`).
-/

namespace Wiring.Toml

namespace Scan

/-! ## Values -/

def bool : Scan Bool :=
  exactly ['t', 'r', 'u', 'e'] *> pure true <|>
    exactly ['f', 'a', 'l', 's', 'e'] *> pure false

/-- A value that holds no other. -/
def scalar : Scan Value :=
  Value.str <$> text <|> Value.dateTime <$> dateTime <|> Value.float <$> float <|>
    Value.int <$> integer <|> Value.bool <$> bool

/-- Items with commas between them; a comma may follow the last one. -/
def items (item : Scan Value) : Scan (List Value) :=
  sepBy1 (spacing *> item <* spacing) (char ',') <* optional (char ',') <|> pure []

/-- Items between brackets, on one line or several. -/
def array (item : Scan Value) : Scan Value := do
  discard (char '[')
  let items ← items item
  spacing
  discard (char ']')
  return .array items

/-- A key and its value. -/
def entry (item : Scan Value) : Scan (Key × Value) := do
  let k ← key
  discard (char '=')
  return (k, ← spaced item)

/-- A table between braces, on one line. -/
def inlineTable (item : Scan Value) : Scan Value := do
  discard (char '{')
  let entries ← sepBy (entry item) (char ',')
  spaces
  discard (char '}')
  Value.table <$> (Node.tableOf? entries : Option Table)

/-- A value that is nested at most so deep. -/
def value : Nat → Scan Value
  | 0 => scalar
  | depth + 1 => scalar <|> array (value depth) <|> inlineTable (value depth)

/-- Arrays and inline tables are nested at most so deep. -/
def maxDepth : Nat := 79

end Scan

/-! ## Lines -/

inductive Line where
  | blank
  | entry (e : Key × Value)
  | header (key : Key)
  | arrayHeader (key : Key)
deriving Inhabited

namespace Scan

def arrayHeader : Scan Key := exactly ['[', '['] *> key <* exactly [']', ']']

def header : Scan Key := char '[' *> key <* char ']'

/-- A line with its end. -/
def line : Scan Line := do
  spaces
  let content ← Line.arrayHeader <$> arrayHeader <|> Line.header <$> header <|>
    Line.entry <$> entry (value maxDepth) <|> pure .blank
  lineEnd
  return content

/-- The lines of a document, which may start with a byte order mark. -/
def lines : Scan (List Line) := optional (char '\ufeff') *> many line

end Scan

/-! ## Sections -/

/-- The entries before the first header. -/
def entriesOf (ls : List Line) : List (Key × Value) × List Line :=
  match ls with
  | .entry e :: ls =>
    let (es, rest) := entriesOf ls
    (e :: es, rest)
  | .blank :: ls => entriesOf ls
  | ls => ([], ls)

theorem length_entriesOf_le (ls : List Line) : (entriesOf ls).2.length ≤ ls.length := by
  fun_induction entriesOf ls with
  | case1 e ls es rest h ih =>
    simp_all
    omega
  | case2 ls ih =>
    simp only [List.length_cons]
    omega
  | case3 => simp

/-- Adds the sections that headers start, one after the other. -/
def addSections (es : Node.Entries) (ls : List Line) : Option Node.Entries :=
  match ls with
  | [] => some es
  | .header k :: ls => do
    addSections (← Node.addTable es k (entriesOf ls).1) (entriesOf ls).2
  | .arrayHeader k :: ls => do
    addSections (← Node.addToTables es k (entriesOf ls).1) (entriesOf ls).2
  | _ :: ls => addSections es ls
termination_by ls.length
decreasing_by
  all_goals
    have hle := length_entriesOf_le ls
    simp only [List.length_cons]
    omega

/-- The table of a list of lines, if each adds to those before. -/
def ofLines? (ls : List Line) : Option Table := do
  let es ← (entriesOf ls).1.foldlM Node.addEntry []
  Node.toTable <$> addSections es (entriesOf ls).2

/-- The table of a document. -/
def ofText? (s : String) : Option Table := Scan.lines.whole? s.toList >>= ofLines?

end Wiring.Toml
