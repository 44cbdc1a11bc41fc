import Wiring.Json
import Wiring.Text.Pieces
/-!
# Values that a schema admits

The part of the JSON schema language, draft 7, that the schemas of this library are written in. A
schema is an object of keywords, each of which has its say about a value; `$ref` refers to another
part of the document and then no other keyword counts. Keywords that only describe (`title`,
`description`, `default`, `examples`, `format`) admit every value. References may form a circle: a
value is valid if that can be shown in finitely many steps.

The keywords mean here what the language says they mean, and that is assumed of whatever reads the
schemas. A theorem about the settings takes the reading as a parameter
(`Settings.DescribesAsDeclared`), and this one shows that there is such a reading.
-/

namespace Wiring.Json

/-- The fields of an object; no other value has any. -/
def fields : Json → List (String × Json)
  | .obj fields => fields
  | _ => []

def items : Json → List Json
  | .arr items => items
  | _ => []

/-! ## Keywords -/

/-- The types of a value. A number without a fraction is an integer, however it is written. -/
def typeNames : Json → List String
  | .null => ["null"]
  | .bool _ => ["boolean"]
  | .num m places => if (Nat.pow 10 places : Int) ∣ m then ["number", "integer"] else ["number"]
  | .str _ => ["string"]
  | .arr _ => ["array"]
  | .obj _ => ["object"]

/-- The types that the keyword `type` allows: one, or several in an array. -/
def allowedTypes : Json → List String
  | .str t => [t]
  | .arr ts => ts.filterMap fun
    | .str t => some t
    | _ => none
  | _ => []

theorem mem_typeNames_num_iff {m : Int} {places : Nat} {name : String} :
    name ∈ (num m places).typeNames ↔
      name = "number" ∨ name = "integer" ∧ (Nat.pow 10 places : Int) ∣ m := by
  rw [typeNames]
  split
  · rename_i h
    simp only [List.mem_cons, List.not_mem_nil, or_false, h, and_true]
  · rename_i h
    simp only [List.mem_cons, List.not_mem_nil, or_false, h, and_false]

theorem string_mem_typeNames_iff {v : Json} : "string" ∈ v.typeNames ↔ ∃ s, v = .str s := by
  cases v with
  | num => simp [mem_typeNames_num_iff]
  | _ => simp [typeNames]

theorem boolean_mem_typeNames_iff {v : Json} : "boolean" ∈ v.typeNames ↔ ∃ b, v = .bool b := by
  cases v with
  | num => simp [mem_typeNames_num_iff]
  | _ => simp [typeNames]

theorem object_mem_typeNames_iff {v : Json} :
    "object" ∈ v.typeNames ↔ ∃ fields, v = .obj fields := by
  cases v with
  | num => simp [mem_typeNames_num_iff]
  | _ => simp [typeNames]

theorem null_mem_typeNames_iff {v : Json} : "null" ∈ v.typeNames ↔ v = .null := by
  cases v with
  | num => simp [mem_typeNames_num_iff]
  | _ => simp [typeNames]

theorem integer_mem_typeNames_iff {v : Json} :
    "integer" ∈ v.typeNames ↔
      ∃ (n : Int) (places : Nat), v = .num (Nat.pow 10 places * n) places := by
  cases v with
  | num m places =>
    rw [mem_typeNames_num_iff]
    constructor
    · rintro (h | ⟨-, n, rfl⟩)
      · exact absurd h (by decide)
      · exact ⟨n, places, rfl⟩
    · rintro ⟨n, _, ⟨⟩⟩
      exact .inr ⟨rfl, n, rfl⟩
  | _ => simp [typeNames]

def fitsType (keywords : List (String × Json)) (v : Json) : Bool :=
  (keywords.lookup "type").all fun type => (allowedTypes type).any (v.typeNames.contains ·)

theorem fitsType_iff {keywords : List (String × Json)} {type v : Json}
    (h : keywords.lookup "type" = some type) :
    fitsType keywords v = true ↔ ∃ name ∈ allowedTypes type, name ∈ v.typeNames := by
  simp [fitsType, h]

/-- One type that is allowed is the type of the value. -/
theorem fitsType_str_iff {keywords : List (String × Json)} {name : String} {v : Json}
    (h : keywords.lookup "type" = some (.str name)) :
    fitsType keywords v = true ↔ name ∈ v.typeNames := by
  rw [fitsType_iff h]
  simp [allowedTypes]

/-- Numbers are not below the bound; all other values pass. -/
def isAtLeast : (v bound : Json) → Bool
  | .num m p, .num n q => n * Nat.pow 10 p ≤ m * Nat.pow 10 q
  | _, _ => true

def fitsMinimum (keywords : List (String × Json)) (v : Json) : Bool :=
  (keywords.lookup "minimum").all v.isAtLeast

theorem fitsMinimum_obj (keywords fields : List (String × Json)) :
    fitsMinimum keywords (.obj fields) = true := by
  unfold fitsMinimum
  cases keywords.lookup "minimum" <;> rfl

/-- The schemas of the keyword `allOf`, each of which the value must satisfy. -/
def allOf (keywords : List (String × Json)) : List Json :=
  (keywords.lookup "allOf").elim [] items

/-- The schema for a field: that of the property with its name, else that of additional ones. -/
def fieldSchema? (keywords : List (String × Json)) (name : String) : Option Json :=
  ((keywords.lookup "properties").bind (·.fields.lookup name)).or
    (keywords.lookup "additionalProperties")

/-- The part of a document that a reference such as `#/definitions/Name` leads to. -/
def at? (document : Json) (reference : String) : Option Json :=
  match Text.pieces '/' reference.toList with
  | ['#'] :: names =>
    names.foldlM (fun part name => part.fields.lookup (String.ofList name)) document
  | _ => none

/-! ## Validity -/

/-- A value is valid against a schema, which is part of the document `root`. -/
inductive Valid (root : Json) : (schema v : Json) → Prop where
  | always {v : Json} : Valid root (.bool true) v
  | reference {keywords : List (String × Json)} {reference : String} {part v : Json} :
      keywords.lookup "$ref" = some (.str reference) → root.at? reference = some part →
      Valid root part v → Valid root (.obj keywords) v
  | keywords {keywords : List (String × Json)} {v : Json} :
      keywords.lookup "$ref" = none → fitsType keywords v = true → fitsMinimum keywords v = true →
      (∀ part ∈ allOf keywords, Valid root part v) →
      (∀ name field part, (name, field) ∈ v.fields → fieldSchema? keywords name = some part →
        Valid root part field) →
      Valid root (.obj keywords) v

variable {root part v : Json} {keywords : List (String × Json)}

theorem not_valid_false : ¬ Valid root (.bool false) v := nofun

/-- Where a schema refers to another, that one decides alone. -/
theorem valid_reference_iff {reference : String}
    (h : keywords.lookup "$ref" = some (.str reference)) (hpart : root.at? reference = some part) :
    Valid root (.obj keywords) v ↔ Valid root part v := by
  constructor
  · intro hv
    cases hv with
    | reference h' hpart' hv =>
      cases h.symm.trans h'
      cases hpart.symm.trans hpart'
      exact hv
    | keywords h' => exact absurd (h.symm.trans h') nofun
  · exact .reference h hpart

/-- Each keyword has its say. -/
theorem valid_iff (h : keywords.lookup "$ref" = none) :
    Valid root (.obj keywords) v ↔
      fitsType keywords v = true ∧ fitsMinimum keywords v = true ∧
        (∀ part ∈ allOf keywords, Valid root part v) ∧
        ∀ name field part, (name, field) ∈ v.fields → fieldSchema? keywords name = some part →
          Valid root part field := by
  constructor
  · intro hv
    cases hv with
    | reference h' => exact absurd (h.symm.trans h') nofun
    | keywords _ htype hminimum hall hfields => exact ⟨htype, hminimum, hall, hfields⟩
  · rintro ⟨htype, hminimum, hall, hfields⟩
    exact .keywords h htype hminimum hall hfields

/-- Keywords without parts admit what is of their type and not below their minimum. -/
theorem valid_simple_iff (h : keywords.lookup "$ref" = none) (hall : allOf keywords = [])
    (hproperties : keywords.lookup "properties" = none)
    (hadditional : keywords.lookup "additionalProperties" = none) :
    Valid root (.obj keywords) v ↔ fitsType keywords v = true ∧ fitsMinimum keywords v = true := by
  rw [valid_iff h]
  constructor
  · exact fun ⟨htype, hminimum, _⟩ => ⟨htype, hminimum⟩
  · rintro ⟨htype, hminimum⟩
    refine ⟨htype, hminimum, by simp [hall], fun name field part _ hpart => ?_⟩
    simp [fieldSchema?, hproperties, hadditional] at hpart

end Wiring.Json
