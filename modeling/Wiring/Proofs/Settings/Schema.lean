import Mathlib
import Wiring.Proofs.Json.Validity
import Wiring.Proofs.Settings.Loading
/-!
# Settings and their schema

Of any loader and any schema that go by the declared fields: a text that the loader takes is valid
against the schema just when its sections are tables and its capacity is not 0
(`valid_iff_of_loaded`). For the loader takes an array for a section too, and 0 for the capacity,
which the schema does not admit. Loader and schema of this library go by the declared fields
(`ofText_loadsAsDeclared`, `exported_describesAsDeclared`), so they part on such texts
(`outsideSchema_zero_and_array`).
-/

namespace Wiring.Settings

open Json (Valid)
open Toml (Value Table)

variable {σ : Type} {r : Record σ} {field : Field σ} {root part dflt j : Json} {name : String}
  {properties more : List (String × Json)}

/-! ## Fields -/

/-- An integer is not below a bound that is written with one decimal place. -/
theorem isAtLeast_iff {n : Int} {places minimum : Nat} :
    Json.isAtLeast (.num (Nat.pow 10 places * n) places) (.num (10 * minimum) 1) = true ↔
      (minimum : Int) ≤ n := by
  have hpos : (0 : Int) < 10 * Nat.pow 10 places :=
    Int.mul_pos (by decide) (Int.natCast_pos.2 (Nat.pow_pos (by decide)))
  have hleft : 10 * (minimum : Int) * Nat.pow 10 places = minimum * (10 * Nat.pow 10 places) := by
    ring
  have hright : Nat.pow 10 places * n * Nat.pow 10 1 = n * (10 * Nat.pow 10 places) := by
    rw [show (Nat.pow 10 1 : Int) = 10 from rfl]
    ring
  rw [Json.isAtLeast, decide_eq_true_iff, hleft, hright]
  exact Int.mul_le_mul_right hpos

/-- A count is null or an integer, and not below the minimum. -/
theorem valid_count_iff {keywords : List (String × Json)} {minimum : Nat}
    (htype : keywords.lookup "type" = some FieldType.count.jsonTypes)
    (hminimum : keywords.lookup "minimum" = some (.num (10 * minimum) 1)) :
    Json.fitsType keywords j = true ∧ Json.fitsMinimum keywords j = true ↔
      FieldType.count.Admits minimum j := by
  have hallowed : Json.allowedTypes FieldType.count.jsonTypes = ["integer", "null"] := rfl
  have hatLeast : Json.fitsMinimum keywords j = j.isAtLeast (.num (10 * minimum) 1) := by
    rw [Json.fitsMinimum, hminimum, Option.all_some]
  rw [Json.fitsType_iff htype, hatLeast, hallowed]
  simp only [List.mem_cons, List.not_mem_nil, or_false, exists_eq_or_imp, exists_eq_left,
    Json.integer_mem_typeNames_iff, Json.null_mem_typeNames_iff]
  constructor
  · rintro ⟨⟨n, places, rfl⟩ | rfl, hle⟩
    · exact .count rfl (isAtLeast_iff.1 hle)
    · exact .absent
  · rintro (_ | _ | _ | ⟨rfl, hle⟩)
    · exact ⟨.inr rfl, rfl⟩
    · exact ⟨.inl ⟨_, _, rfl⟩, isAtLeast_iff.2 hle⟩

/-- The schema of a field admits what the field admits. -/
theorem Field.valid_schema_iff {default : σ} :
    Valid root (field.schema default) j ↔ field.type.Admits field.minimum j := by
  obtain ⟨name, type, description, get, set, minimum⟩ := field
  cases type with
  | text =>
    refine (Json.valid_simple_iff rfl rfl rfl rfl).trans ?_
    rw [Json.fitsType_str_iff rfl, Json.string_mem_typeNames_iff]
    constructor
    · rintro ⟨⟨s, rfl⟩, -⟩
      exact .text s
    · rintro ⟨s⟩
      exact ⟨⟨s, rfl⟩, rfl⟩
  | flag =>
    refine (Json.valid_simple_iff rfl rfl rfl rfl).trans ?_
    rw [Json.fitsType_str_iff rfl, Json.boolean_mem_typeNames_iff]
    constructor
    · rintro ⟨⟨b, rfl⟩, -⟩
      exact .flag b
    · rintro (_ | ⟨b⟩)
      exact ⟨⟨b, rfl⟩, rfl⟩
  | count => exact (Json.valid_simple_iff rfl rfl rfl rfl).trans (valid_count_iff rfl rfl)

/-! ## Records -/

/-- Further keywords of a record: they describe it, and refer to no other schema. -/
structure Describes (more : List (String × Json)) : Prop where
  noReference : more.lookup "$ref" = none
  noParts : Json.allOf more = []

def objectKeywords (properties more : List (String × Json)) : List (String × Json) :=
  [("type", .str "object"), ("additionalProperties", .bool false),
    ("properties", .obj properties)] ++ more

/-- A field that is no property is not admitted at all. -/
theorem fieldSchema?_objectKeywords :
    Json.fieldSchema? (objectKeywords properties more) name =
      some ((properties.lookup name).getD (.bool false)) := by
  have hor : Json.fieldSchema? (objectKeywords properties more) name =
      (properties.lookup name).or (some (.bool false)) := rfl
  rw [hor]
  cases properties.lookup name <;> rfl

/-- An object is valid if its fields are properties that admit their values. -/
theorem valid_objectSchema_iff (hmore : Describes more) :
    Valid root (objectSchema properties more) j ↔
      ∃ fields, j = .obj fields ∧
        ∀ e ∈ fields, ∃ part, properties.lookup e.1 = some part ∧ Valid root part e.2 := by
  have hreference : (objectKeywords properties more).lookup "$ref" = none := hmore.noReference
  have hall : Json.allOf (objectKeywords properties more) = [] := hmore.noParts
  have hkeywords : objectSchema properties more = .obj (objectKeywords properties more) := rfl
  rw [hkeywords, Json.valid_iff hreference, Json.fitsType_str_iff rfl,
    Json.object_mem_typeNames_iff, hall]
  constructor
  · rintro ⟨⟨fields, rfl⟩, -, -, hfields⟩
    refine ⟨fields, rfl, fun ⟨name, j⟩ hmem => ?_⟩
    have hv := hfields name j _ hmem fieldSchema?_objectKeywords
    cases hpart : properties.lookup name with
    | none =>
      rw [hpart] at hv
      exact absurd hv Json.not_valid_false
    | some part =>
      rw [hpart] at hv
      exact ⟨part, rfl, hv⟩
  · rintro ⟨fields, rfl, hfields⟩
    refine ⟨⟨fields, rfl⟩, Json.fitsMinimum_obj _ fields, by simp, ?_⟩
    intro name j part hmem hpart
    obtain ⟨part', hlookup, hv⟩ := hfields _ hmem
    rw [fieldSchema?_objectKeywords, hlookup] at hpart
    cases hpart
    exact hv

/-- Where no key occurs twice, an entry is found by its key. -/
theorem lookup_eq_some_iff_mem (hkeys : (properties.map Prod.fst).Nodup) :
    properties.lookup name = some part ↔ (name, part) ∈ properties := by
  induction properties with
  | nil => simp
  | cons entry properties ih =>
    obtain ⟨key, value⟩ := entry
    rw [List.map_cons, List.nodup_cons] at hkeys
    obtain ⟨hkey, hrest⟩ := hkeys
    rw [List.lookup_cons, List.mem_cons, ← ih hrest]
    by_cases h : name = key
    · subst h
      have hnone : properties.lookup name ≠ some part := by
        intro hsome
        exact hkey (List.mem_map.2 ⟨_, (ih hrest).1 hsome, rfl⟩)
      simp [hnone, eq_comm]
    · have hne : (name == key) = false := beq_false_of_ne h
      simp [h, hne]

/-- **A schema made from declarations** with names of their own admits the objects whose fields are
declared, with values that the declarations admit. -/
theorem valid_objectSchema_map_iff {α : Type*} {decls : List α} {nameOf : α → String}
    {schemaOf : α → Json} (hmore : Describes more) (hnames : (decls.map nameOf).Nodup)
    (admits : α → Json → Prop) (h : ∀ a ∈ decls, ∀ j, Valid root (schemaOf a) j ↔ admits a j) :
    Valid root (objectSchema (decls.map fun a => (nameOf a, schemaOf a)) more) j ↔
      ∃ fields, j = .obj fields ∧
        ∀ e ∈ fields, ∃ a ∈ decls, nameOf a = e.1 ∧ admits a e.2 := by
  have hkeys : ((decls.map fun a => (nameOf a, schemaOf a)).map Prod.fst).Nodup := by
    rwa [List.map_map]
  rw [valid_objectSchema_iff hmore]
  simp only [lookup_eq_some_iff_mem hkeys, List.mem_map, Prod.mk.injEq]
  refine exists_congr fun fields => and_congr_right fun _ => forall₂_congr fun e _ => ?_
  constructor
  · rintro ⟨_, ⟨a, ha, hname, rfl⟩, hv⟩
    exact ⟨a, ha, hname, (h a ha e.2).1 hv⟩
  · rintro ⟨a, ha, hname, hadmits⟩
    exact ⟨_, ⟨a, ha, hname, rfl⟩, (h a ha e.2).2 hadmits⟩

/-- The schema of a record admits what the record admits. -/
theorem Record.valid_schema_iff : Valid root r.schema j ↔ r.Admits j := by
  have hmore : Describes (r.description.toList.map fun text => ("description", .str text)) := by
    cases r.description <;> exact ⟨rfl, rfl⟩
  exact valid_objectSchema_map_iff hmore r.nodup_names
    (fun field j => field.type.Admits field.minimum j) fun _ _ _ => Field.valid_schema_iff

/-! ## The schema -/

/-- A part that is defined elsewhere admits what its definition admits. -/
theorem valid_refSchema_iff (h : root.at? ("#/definitions/" ++ name) = some part) :
    Valid root (refSchema name dflt) j ↔ Valid root part j := by
  have hreference : Valid root (.obj [("$ref", .str ("#/definitions/" ++ name))]) j ↔
      Valid root part j := Json.valid_reference_iff rfl h
  rw [← hreference, refSchema]
  constructor
  · intro hv
    exact ((Json.valid_iff rfl).1 hv).2.2.1 _ List.mem_cons_self
  · intro hv
    refine .keywords rfl rfl rfl (fun part hpart => ?_) (fun _ _ _ _ hnone => ?_)
    · rw [List.mem_singleton.1 hpart]
      exact hv
    · cases hnone

theorem valid_section_iff {part : Section} (hpart : part ∈ sections) :
    Valid schema (refSchema part.record.name dflt) j ↔ part.record.Admits j := by
  have hrecord : Valid schema part.record.schema j ↔ part.record.Admits j :=
    Record.valid_schema_iff
  rw [← hrecord]
  simp only [sections, List.mem_cons, List.not_mem_nil, or_false] at hpart
  rcases hpart with rfl | rfl
  · exact valid_refSchema_iff rfl
  · exact valid_refSchema_iff rfl

/-- **The schema of this library goes by the declared fields.** -/
theorem exported_describesAsDeclared :
    DescribesAsDeclared (fun schema => Valid schema schema) exported := by
  intro j
  have hkeywords : Valid schema schema j ↔ Valid schema (objectSchema
      (sections.map fun part =>
        (part.name, refSchema part.record.name (part.record.json part.record.default)))
      [("$schema", .str "http://json-schema.org/draft-07/schema#"),
        ("definitions", .obj (sections.map fun part => (part.record.name, part.record.schema))),
        ("title", .str "keel.toml"), ("examples", .arr [exampleJson])]) j := Iff.rfl
  show Valid schema schema j ↔ Admits j
  rw [hkeywords]
  exact valid_objectSchema_map_iff ⟨rfl, rfl⟩ nodup_section_names
    (fun part j => part.record.Admits j) fun _ hpart _ => valid_section_iff hpart

/-! ## Loader and schema -/

section

variable {ε : Type} {parse : String → Option Table} {load : String → Except ε Settings}
  {valid : (schema v : Json) → Prop} {generated : Json} {text : String} {loaded : Settings}
  {document : Table}

/-- **Where a loader and a schema agree**: a text that is taken is valid against the schema just
when its sections are tables and its capacity is not 0. -/
theorem valid_iff_of_loaded (hload : LoadsAsDeclared parse load)
    (hschema : DescribesAsDeclared valid generated) (h : load text = .ok loaded) :
    ∃ document, parse text = some document ∧
      ((∃ j, (Value.table document).json? = some j ∧ valid (publish generated) j) ↔
        SectionsAreTables document ∧ CapacityNotZero document) := by
  obtain ⟨document, hparse, htakes⟩ := (hload text).1 ⟨loaded, h⟩
  refine ⟨document, hparse, ?_⟩
  rw [← admits_iff_of_takes htakes]
  exact exists_congr fun j => and_congr_right fun _ => hschema j

/-- Both sections are tables, and the capacity is the least that is valid. -/
theorem valid_iff_of_loaded_sections :
    ∃ document, Toml.ofText? "logging.level = \"debug\"\n[resolution]\ncache_capacity = 1" =
        some document ∧
      ∃ j, (Value.table document).json? = some j ∧ Valid schema schema j := by
  have hload : ofText "logging.level = \"debug\"\n[resolution]\ncache_capacity = 1" =
      .ok ⟨⟨"debug", false, true⟩, ⟨true, true, some 1⟩⟩ := by cbv
  have hdocument : Toml.ofText? "logging.level = \"debug\"\n[resolution]\ncache_capacity = 1" =
      some [("logging", .table [("level", .str "debug")]),
        ("resolution", .table [("cache_capacity", .int 1)])] := by cbv
  obtain ⟨document, hparse, hiff⟩ :=
    valid_iff_of_loaded ofText_loadsAsDeclared exported_describesAsDeclared hload
  cases hparse.symm.trans hdocument
  refine ⟨_, hparse, hiff.2 ⟨?_, ?_⟩⟩
  · simp [SectionsAreTables]
  · simp [CapacityNotZero]

/-- A loader takes the text, and its document is not valid against the schema. -/
def OutsideSchema (parse : String → Option Table) (load : String → Except ε Settings)
    (valid : (schema v : Json) → Prop) (generated : Json) (text : String) : Prop :=
  ∃ loaded document, load text = .ok loaded ∧ parse text = some document ∧
    ¬ ∃ j, (Value.table document).json? = some j ∧ valid (publish generated) j

/-- Documents that the fields take are loaded, and not all of them are valid. -/
theorem outsideSchema_of_takes (hload : LoadsAsDeclared parse load)
    (hschema : DescribesAsDeclared valid generated) (hparse : parse text = some document)
    (htakes : Takes document) (h : ¬ (SectionsAreTables document ∧ CapacityNotZero document)) :
    OutsideSchema parse load valid generated text := by
  obtain ⟨loaded, hloaded⟩ := (hload text).2 ⟨document, hparse, htakes⟩
  refine ⟨loaded, document, hloaded, hparse, ?_⟩
  rintro ⟨j, hj, hv⟩
  exact h ((admits_iff_of_takes htakes).1 ⟨j, hj, (hschema j).1 hv⟩)

/-- A document that sets the capacity, to whatever count. -/
theorem takes_capacity (n : Nat) :
    Takes [("resolution", .table [("cache_capacity", .int n)])] := by
  intro e he
  rw [List.mem_singleton] at he
  subst he
  refine ⟨resolutionSection, resolutionSection_mem, rfl, .table fun e he => ?_⟩
  rw [List.mem_singleton] at he
  subst he
  exact ⟨capacityField, capacityField_mem, rfl, .count n⟩

/-- A document that lists the values of the fields of a section. -/
theorem takes_items (level : String) : Takes [("logging", .array [.str level])] := by
  intro e he
  rw [List.mem_singleton] at he
  subst he
  refine ⟨loggingSection, by simp [sections], rfl, .array fun pair hpair => ?_⟩
  -- the first field is the one that there is an item for
  obtain rfl := List.mem_singleton.1 hpair
  exact .text level

/-- A capacity of 0 is taken, and so is a section that lists the values of its fields. -/
theorem outsideSchema_zero_and_array :
    OutsideSchema Toml.ofText? ofText (fun schema => Valid schema schema) exported
        "[resolution]\ncache_capacity = 0" ∧
      OutsideSchema Toml.ofText? ofText (fun schema => Valid schema schema) exported
        "logging = [\"debug\"]" := by
  constructor
  · have hparse : Toml.ofText? "[resolution]\ncache_capacity = 0" =
        some [("resolution", .table [("cache_capacity", .int 0)])] := by cbv
    refine outsideSchema_of_takes ofText_loadsAsDeclared exported_describesAsDeclared hparse
      (takes_capacity 0) ?_
    rintro ⟨-, hcapacity⟩
    exact hcapacity _ List.mem_cons_self List.mem_cons_self
  · have hparse : Toml.ofText? "logging = [\"debug\"]" =
        some [("logging", .array [.str "debug"])] := by cbv
    refine outsideSchema_of_takes ofText_loadsAsDeclared exported_describesAsDeclared hparse
      (takes_items "debug") ?_
    rintro ⟨htables, -⟩
    exact htables _ List.mem_cons_self _ rfl

end

end Wiring.Settings
