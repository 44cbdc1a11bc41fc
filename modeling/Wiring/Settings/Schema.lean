import Wiring.Json
import Wiring.Settings.Fields
/-!
# The schema of the settings

A JSON schema that says which documents are settings, with the defaults and the meaning of each
field. It is made from the declared fields (`exported`), and published under a title of its own and
with an example (`schema`).

How a schema is made from declared fields is the way of a schema generator, and nothing about it is
special to the settings but their fields. What a theorem about the schema assumes of it is said
there, for any generator and any reading of schemas (`DescribesAsDeclared`).
-/

namespace Wiring.Settings

variable {σ : Type}

/-! ## Settings as JSON -/

def FieldType.json : (type : FieldType) → type.Content → Json
  | .text => .str
  | .flag => .bool
  | .count => fun n => (n.map Json.nat).getD .null

def Record.json (r : Record σ) (s : σ) : Json :=
  .obj (r.fields.map fun field => (field.name, field.type.json (field.get s)))

def resolutionJson (s : ResolutionSettings) : Json := resolutionRecord.json s

def toJson (s : Settings) : Json :=
  .obj (sections.map fun part => (part.name, part.record.json (part.get s)))

/-! ## Parts of the schema -/

/-- The types of JSON values that a field may have. -/
def FieldType.jsonTypes : FieldType → Json
  | .text => .str "string"
  | .flag => .str "boolean"
  | .count => .arr [.str "integer", .str "null"]

/-- Counts have a least value. -/
def Field.limits (field : Field σ) : List (String × Json) :=
  match field.type with
  | .count => [("format", .str "uint"), ("minimum", .num (10 * field.minimum) 1)]
  | _ => []

/-- A field with its type, default and meaning, and its limits. -/
def Field.schema (field : Field σ) (dflt : σ) : Json :=
  .obj ([("type", field.type.jsonTypes), ("default", field.type.json (field.get dflt)),
    ("description", .str field.description)] ++ field.limits)

/-- An object with these properties and no other. -/
def objectSchema (properties : List (String × Json)) (more : List (String × Json)) : Json :=
  .obj ([("type", .str "object"), ("additionalProperties", .bool false),
    ("properties", .obj properties)] ++ more)

def Record.schema (r : Record σ) : Json :=
  objectSchema (r.fields.map fun field => (field.name, field.schema r.default))
    (r.description.toList.map fun text => ("description", .str text))

/-- A part that is defined elsewhere in the schema, with its default. -/
def refSchema (definition : String) (dflt : Json) : Json :=
  .obj [
    ("allOf", .arr [.obj [("$ref", .str ("#/definitions/" ++ definition))]]),
    ("default", dflt)]

/-- The schema that the fields give. -/
def exported : Json :=
  objectSchema
    (sections.map fun part =>
      (part.name, refSchema part.record.name (part.record.json part.record.default)))
    [("$schema", .str "http://json-schema.org/draft-07/schema#"),
      ("definitions", .obj (sections.map fun part => (part.record.name, part.record.schema)))]

/-! ## The published schema -/

/-- A document that shows the usual fields. -/
def exampleJson : Json :=
  .obj [
    ("logging", .obj [("level", .str "info")]),
    ("resolution", .obj [("cache_selections", .bool true), ("cache_reductions", .bool true)])]

/-- The schema under a title of its own, and with an example. -/
def publish : Json → Json
  | .obj keywords =>
    .obj (keywords.filter (fun e => e.1 ≠ "title" ∧ e.1 ≠ "examples") ++
      [("title", .str "keel.toml"), ("examples", .arr [exampleJson])])
  | schema => schema

def schema : Json := publish exported

end Wiring.Settings
