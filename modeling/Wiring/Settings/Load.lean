import Wiring.Decimal.Shortest
import Wiring.Settings.Fields
import Wiring.Text.Quoted
import Wiring.Toml.Document
/-!
# Loading settings

Settings are read from a TOML document. Each section is a table whose keys are fields, or an array
with the values of the fields in their order. What is absent has its default, a key that is no
field is refused, and so is a value of another type. The first offence in the document counts.

This is how a deserializer treats records that are declared so, and nothing about it is special to
the settings but their fields. What a theorem about the settings assumes of it is said there, for
any loader (`LoadsAsDeclared`).
-/

namespace Wiring.Settings

open Toml (Value Table)

/-- Why the values of a document are no settings. -/
inductive Misfit where
  | unknownField (name : String) (known : List String)
  | wrongType (found : Value) (expected : String)
  | negative (n : Int)

namespace Misfit

/-- What kind of value was found, and its text if it has one. -/
def describe : Value → String
  | .str s => "string " ++ Text.quote s
  | .int n => "integer `" ++ toString n ++ "`"
  | .float x => "floating point `" ++ x.text ++ "`"
  | .bool b => "boolean `" ++ (if b then "true" else "false") ++ "`"
  | .dateTime _ => "map"
  | .array _ => "sequence"
  | .table _ => "map"

/-- The names that would have been right. -/
def choice (names : List String) : String :=
  match names.map fun n => "`" ++ n ++ "`" with
  | [a] => a
  | [a, b] => a ++ " or " ++ b
  | all => "one of " ++ ", ".intercalate all

def message : Misfit → String
  | unknownField name known => "unknown field `" ++ name ++ "`, expected " ++ choice known
  | wrongType found expected => "invalid type: " ++ describe found ++ ", expected " ++ expected
  | negative n => "invalid value: " ++ describe (.int n) ++ ", expected usize"

end Misfit

/-! ## Values of fields -/

def textOf : Value → Except Misfit String
  | .str s => .ok s
  | v => .error (.wrongType v "a string")

def boolOf : Value → Except Misfit Bool
  | .bool b => .ok b
  | v => .error (.wrongType v "a boolean")

/-- A count is an integer that is not negative. -/
def countOf : Value → Except Misfit Nat
  | .int n => if n < 0 then .error (.negative n) else .ok n.toNat
  | v => .error (.wrongType v "usize")

/-- What a value means for a field of the type. -/
def FieldType.read : (type : FieldType) → Value → Except Misfit type.Content
  | .text => textOf
  | .flag => boolOf
  | .count => fun v => some <$> countOf v

/-! ## Records -/

/-- A place to put values into: its name, and what a value changes there. -/
structure Slot (σ : Type) where
  name : String
  read : Value → Except Misfit (σ → σ)

variable {σ : Type}

/-- Makes the changes one after the other, up to the first offence. -/
def putAll (changes : List (Except Misfit (σ → σ))) (s : σ) : Except Misfit σ :=
  changes.foldlM (fun s change => return (← change) s) s

/-- What an entry of a table changes, if its key is the name of a slot. -/
def readEntry (slots : List (Slot σ)) (e : String × Value) : Except Misfit (σ → σ) :=
  match slots.find? (·.name = e.1) with
  | some slot => slot.read e.2
  | none => .error (.unknownField e.1 (slots.map Slot.name))

/-- Puts the values of a table into the slots of their names. -/
def putTable (slots : List (Slot σ)) (entries : Table) (s : σ) : Except Misfit σ :=
  putAll (entries.map (readEntry slots)) s

/-- Puts values into the slots one after the other; further values are left out. -/
def putItems (slots : List (Slot σ)) (items : List Value) (s : σ) : Except Misfit σ :=
  putAll ((slots.zip items).map fun p => p.1.read p.2) s

def Field.slot (field : Field σ) : Slot σ :=
  ⟨field.name, fun v => return field.set (← field.type.read v)⟩

/-- The one key of a date and time that is read as a table. -/
def dateTimeKey : String := "$__toml_private_datetime"

/-- The record that a value holds. -/
def Record.read (r : Record σ) (v : Value) : Except Misfit σ :=
  let slots := r.fields.map Field.slot
  match v with
  | .table entries => putTable slots entries r.default
  | .array items => putItems slots items r.default
  | .dateTime written => putTable slots [(dateTimeKey, .str written)] r.default
  | v => .error (.wrongType v ("struct " ++ r.name))

def Section.slot (part : Section) : Slot Settings :=
  ⟨part.name, fun v => return part.set (← part.record.read v)⟩

/-- The settings of a document. -/
def ofTable (document : Table) : Except Misfit Settings :=
  putTable (sections.map Section.slot) document .default

/-! ## Texts -/

/-- Why there are no settings. -/
inductive LoadError where
  | noFile (path : String)
  /-- The file is no text. -/
  | notText (path : String)
  /-- The text is no TOML document. -/
  | malformed
  | misfit (m : Misfit)

def LoadError.message : LoadError → String
  | .noFile path =>
    "failed to read config file " ++ path ++ ": No such file or directory (os error 2)"
  | .notText path =>
    "failed to read config file " ++ path ++ ": stream did not contain valid UTF-8"
  | .malformed => "invalid config: not a TOML document"
  | .misfit m => "invalid config: " ++ m.message

/-- Settings from the text of a document. -/
def ofText (s : String) : Except LoadError Settings :=
  match Toml.ofText? s with
  | none => .error .malformed
  | some document => (ofTable document).mapError .misfit

end Wiring.Settings
