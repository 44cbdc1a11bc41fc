import Mathlib.Data.List.Nodup
import Wiring.Proofs.Json.Documents
import Wiring.Settings.Schema
/-!
# What the declared fields ask of a document

The fields of the settings are declared once, for two readers. A loader takes the documents whose
values are of the declared types (`Takes`), and a schema admits the JSON objects whose values are of
the declared types and not below the declared minima (`Admits`). How a loader is derived from the
declarations, and how a schema is generated from them and read, is not the business of this library:
loader, generator and reading are parameters, of which is assumed what their documentation says
(`LoadsAsDeclared`, `DescribesAsDeclared`).

The two ask for different things in two places only (`admits_iff`): a section may be written as an
array, and a count may be below its minimum.
-/

namespace Wiring.Settings

open Toml (Value Table)

variable {σ : Type} {type : FieldType} {r : Record σ} {part : Section} {entries document : Table}
  {v : Value}

/-! ## Documents -/

/-- The value may be written for a field of the type. -/
inductive FieldType.Takes : FieldType → Value → Prop where
  | text (s : String) : Takes .text (.str s)
  | flag (b : Bool) : Takes .flag (.bool b)
  | count (n : Nat) : Takes .count (.int n)

/-- The value may be written for the record: a table, each of whose keys is a field that takes its
value, or an array, whose items the fields take in their order. Fields may be absent from either,
and items without a field count for nothing. -/
inductive Record.Takes (r : Record σ) : Value → Prop where
  | table {entries : Table} :
      (∀ e ∈ entries, ∃ field ∈ r.fields, field.name = e.1 ∧ field.type.Takes e.2) →
      Takes r (.table entries)
  | array {items : List Value} :
      (∀ pair ∈ r.fields.zip items, pair.1.type.Takes pair.2) → Takes r (.array items)

/-- Each key of the document is a section that takes its value. -/
def Takes (document : Table) : Prop :=
  ∀ e ∈ document, ∃ part ∈ sections, part.name = e.1 ∧ part.record.Takes e.2

/-! ## JSON values -/

/-- The JSON value is one of the type, and no number below the minimum. -/
inductive FieldType.Admits (minimum : Nat) : FieldType → Json → Prop where
  | text (s : String) : Admits minimum .text (.str s)
  | flag (b : Bool) : Admits minimum .flag (.bool b)
  | absent : Admits minimum .count .null
  | count {mantissa n : Int} {places : Nat} : mantissa = Nat.pow 10 places * n → minimum ≤ n →
      Admits minimum .count (.num mantissa places)

/-- The JSON value is an object, each of whose keys is a field that admits its value. -/
def Record.Admits (r : Record σ) (j : Json) : Prop :=
  ∃ fields, j = .obj fields ∧
    ∀ e ∈ fields, ∃ field ∈ r.fields, field.name = e.1 ∧ field.type.Admits field.minimum e.2

/-- The JSON value is an object, each of whose keys is a section that admits its value. -/
def Admits (j : Json) : Prop :=
  ∃ fields, j = .obj fields ∧
    ∀ e ∈ fields, ∃ part ∈ sections, part.name = e.1 ∧ part.record.Admits e.2

/-! ## What is assumed of loaders and schemas -/

/-- A loader goes by the declared fields: it takes a text just when this is a document with known
keys only and with values of the declared types. No key is required, since every field has a
default. -/
def LoadsAsDeclared {ε : Type} (parse : String → Option Table)
    (load : String → Except ε Settings) : Prop :=
  ∀ text, (∃ loaded, load text = .ok loaded) ↔
    ∃ document, parse text = some document ∧ Takes document

/-- A generated schema goes by the declared fields too: published, it admits the objects with known
keys only, with values of the declared types, and with counts that are not below the declared
minima. Its title and its example admit everything. -/
def DescribesAsDeclared (valid : (schema v : Json) → Prop) (generated : Json) : Prop :=
  ∀ j, valid (publish generated) j ↔ Admits j

/-! ## Where the two part -/

/-- No count is below its minimum. -/
def Record.InRange (r : Record σ) (entries : Table) : Prop :=
  ∀ field ∈ r.fields, ∀ n : Int, (field.name, .int n) ∈ entries → field.minimum ≤ n

/-- A table whose keys are declared is admitted as an object if each value is admitted by the
declaration of its key. There is only one, since no two declarations share a name. -/
theorem exists_object_iff_of_declared {α : Type*} {decls : List α} {nameOf : α → String}
    (hnames : (decls.map nameOf).Nodup) (admits : α → Json → Prop) (fits : α → Value → Prop)
    (h : ∀ e ∈ entries, ∃ a ∈ decls, nameOf a = e.1 ∧
      ((∃ j, e.2.json? = some j ∧ admits a j) ↔ fits a e.2)) :
    (∃ j, (Value.table entries).json? = some j ∧ ∃ fields, j = .obj fields ∧
      ∀ e ∈ fields, ∃ a ∈ decls, nameOf a = e.1 ∧ admits a e.2) ↔
      ∀ e ∈ entries, ∀ a ∈ decls, nameOf a = e.1 → fits a e.2 := by
  rw [Value.exists_object_iff (P := fun name j => ∃ a ∈ decls, nameOf a = name ∧ admits a j)]
  refine forall₂_congr fun e he => ?_
  obtain ⟨a, ha, hname, hiff⟩ := h e he
  have hunique {b : α} (hb : b ∈ decls) (hb' : nameOf b = e.1) : b = a :=
    List.inj_on_of_nodup_map hnames hb ha (hb'.trans hname.symm)
  constructor
  · rintro ⟨j, hj, b, hb, hb', hadmits⟩ c hc hc'
    rw [hunique hb hb'] at hadmits
    rw [hunique hc hc']
    exact hiff.1 ⟨j, hj, hadmits⟩
  · intro hfits
    obtain ⟨j, hj, hadmits⟩ := hiff.2 (hfits a ha hname)
    exact ⟨j, hj, a, ha, hname, hadmits⟩

/-- The section of a key takes the value of the key. -/
theorem Takes.of_mem (h : Takes document) (hpart : part ∈ sections)
    (hv : (part.name, v) ∈ document) : part.record.Takes v := by
  obtain ⟨part', hpart', hname, htakes⟩ := h _ hv
  rwa [List.inj_on_of_nodup_map nodup_section_names hpart hpart' hname.symm]

theorem FieldType.Takes.exists_nat {m : Int} (h : type.Takes (.int m)) : ∃ n : Nat, m = n := by
  cases h with
  | count n => exact ⟨n, rfl⟩

/-- What a field takes is JSON that it admits, unless that is a number below the minimum. -/
theorem FieldType.Takes.admits_iff (h : type.Takes v) (minimum : Nat) :
    (∃ j, v.json? = some j ∧ type.Admits minimum j) ↔ ∀ n : Int, v = .int n → minimum ≤ n := by
  cases h with
  | text s => exact iff_of_true ⟨_, rfl, .text s⟩ (by simp)
  | flag b => exact iff_of_true ⟨_, rfl, .flag b⟩ (by simp)
  | count n =>
    constructor
    · rintro ⟨_, ⟨⟩, hadmits⟩ m hm
      cases hm
      generalize hj : Json.int n = j at hadmits
      cases hadmits with
      | absent => cases hj
      | count hmantissa hle =>
        cases hj
        rwa [hmantissa, show (Nat.pow 10 0 : Int) = 1 from rfl, Int.one_mul]
    · exact fun h => ⟨_, rfl, .count (Int.one_mul n).symm (h n rfl)⟩

/-- What a record takes is JSON that it admits, unless it is an array or a count is out of range. -/
theorem Record.Takes.admits_iff (h : r.Takes v) :
    (∃ j, v.json? = some j ∧ r.Admits j) ↔ ∃ entries, v = .table entries ∧ r.InRange entries := by
  cases h with
  | array h =>
    refine iff_of_false ?_ nofun
    rintro ⟨j, hj, fields, rfl, -⟩
    obtain ⟨js, hjs⟩ := Value.json?_array hj
    cases hjs
  | @table entries h =>
    have hfields := exists_object_iff_of_declared r.nodup_names
      (fun field j => field.type.Admits field.minimum j)
      (fun field v => ∀ n : Int, v = .int n → field.minimum ≤ n)
      fun e he => by
        obtain ⟨field, hfield, hname, htakes⟩ := h e he
        exact ⟨field, hfield, hname, htakes.admits_iff field.minimum⟩
    refine Iff.trans hfields ?_
    constructor
    · intro hall
      exact ⟨entries, rfl, fun field hfield n hmem => hall _ hmem field hfield rfl n rfl⟩
    · rintro ⟨_, ⟨⟩, hrange⟩ ⟨_, v⟩ he field hfield rfl n rfl
      exact hrange field hfield n he

/-- **Where loaders and schemas part**: a document that is taken is also admitted just when its
sections are tables and its counts are in range. -/
theorem admits_iff (h : Takes document) :
    (∃ j, (Value.table document).json? = some j ∧ Admits j) ↔
      ∀ e ∈ document, ∀ part ∈ sections, part.name = e.1 →
        ∃ entries, e.2 = .table entries ∧ part.record.InRange entries := by
  apply exists_object_iff_of_declared nodup_section_names (fun part j => part.record.Admits j)
    (fun part v => ∃ entries, v = .table entries ∧ part.record.InRange entries)
  intro e he
  obtain ⟨part, hpart, hname, htakes⟩ := h e he
  exact ⟨part, hpart, hname, htakes.admits_iff⟩

/-! ## The settings -/

/-- No section is written as an array. -/
def SectionsAreTables (document : Table) : Prop := ∀ e ∈ document, ∀ items, e.2 ≠ .array items

/-- The section of the resolver does not set its capacity to 0. -/
def CapacityNotZero (document : Table) : Prop :=
  ∀ entries, ("resolution", .table entries) ∈ document → ("cache_capacity", .int 0) ∉ entries

/-- A count that is taken is out of range only if a field of its name has a larger minimum. -/
theorem Record.Takes.inRange_iff (h : r.Takes (.table entries)) :
    r.InRange entries ↔
      ∀ field ∈ r.fields, ∀ n : Nat, n < field.minimum → (field.name, .int n) ∉ entries := by
  cases h with
  | table h =>
  constructor
  · intro hrange field hfield n hlt hmem
    have hle := hrange field hfield n hmem
    omega
  · intro hall field hfield m hmem
    obtain ⟨field', -, -, htakes⟩ := h _ hmem
    obtain ⟨n, rfl⟩ := htakes.exists_nat
    by_contra hlt
    exact hall field hfield n (by omega) hmem

/-- Of the settings only the capacity has a minimum. -/
theorem inRange_logging (h : loggingRecord.Takes (.table entries)) :
    loggingRecord.InRange entries := by
  rw [h.inRange_iff]
  intro field hfield n hlt
  simp only [loggingRecord, List.mem_cons, List.not_mem_nil, or_false] at hfield
  rcases hfield with rfl | rfl | rfl <;> cases hlt

theorem capacityField_mem : capacityField ∈ resolutionRecord.fields := by simp [resolutionRecord]

theorem inRange_resolution_iff (h : resolutionRecord.Takes (.table entries)) :
    resolutionRecord.InRange entries ↔ ("cache_capacity", .int 0) ∉ entries := by
  rw [h.inRange_iff]
  constructor
  · intro hall
    exact hall capacityField capacityField_mem 0 Nat.one_pos
  · intro hzero field hfield n hlt
    simp only [resolutionRecord, List.mem_cons, List.not_mem_nil, or_false] at hfield
    rcases hfield with rfl | rfl | rfl
    · cases hlt
    · cases hlt
    · obtain rfl : n = 0 := Nat.lt_one_iff.1 hlt
      exact hzero

theorem resolutionSection_mem : resolutionSection ∈ sections := by simp [sections]

/-- **A document of settings that is taken is also admitted** just when its sections are tables and
its capacity is not 0. -/
theorem admits_iff_of_takes (h : Takes document) :
    (∃ j, (Value.table document).json? = some j ∧ Admits j) ↔
      SectionsAreTables document ∧ CapacityNotZero document := by
  rw [admits_iff h]
  constructor
  · intro hall
    constructor
    · intro e he items hitems
      obtain ⟨part, hpart, hname, -⟩ := h e he
      obtain ⟨entries, hentries, -⟩ := hall e he part hpart hname
      rw [hitems] at hentries
      cases hentries
    · intro entries he
      obtain ⟨_, ⟨⟩, hrange⟩ := hall _ he resolutionSection resolutionSection_mem rfl
      have htakes : resolutionRecord.Takes (.table entries) := h.of_mem resolutionSection_mem he
      exact (inRange_resolution_iff htakes).1 hrange
  · rintro ⟨htables, hcapacity⟩ ⟨name, v⟩ he part hpart rfl
    have htakes := h.of_mem hpart he
    obtain ⟨entries, rfl⟩ : ∃ entries, v = .table entries := by
      cases htakes with
      | table _ => exact ⟨_, rfl⟩
      | array _ => exact absurd rfl (htables _ he _)
    refine ⟨entries, rfl, ?_⟩
    simp only [sections, List.mem_cons, List.not_mem_nil, or_false] at hpart
    rcases hpart with rfl | rfl
    · exact inRange_logging htakes
    · exact (inRange_resolution_iff htakes).2 (hcapacity entries he)

end Wiring.Settings
