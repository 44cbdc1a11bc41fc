import Mathlib.Data.List.Nodup
import Wiring.Proofs.Settings.Declared
import Wiring.Settings.Load
/-!
# The loader goes by the declared fields

The loader of this library takes a text just when it is a document that the declared fields take
(`ofText_loadsAsDeclared`). Whether it takes a value does not depend on what was read before
(`exists_putAll_iff`), and no two fields share a name, so that the one it finds by a key is the one
that is declared (`exists_readEntry_iff`).
-/

namespace Wiring.Settings

open Toml (Value Table)

variable {σ : Type} {type : FieldType} {r : Record σ} {v : Value} {e : String × Value}

theorem exists_return_iff {α β : Type} {x : Except Misfit α} {f : α → β} :
    (∃ b, (do return f (← x)) = Except.ok b) ↔ ∃ a, x = .ok a := by
  cases x with
  | error m => simp [bind, Except.bind]
  | ok a => simp [bind, Except.bind, pure, Except.pure]

/-- A value is read for a field if the field takes it. -/
theorem FieldType.exists_read_iff : (∃ a, type.read v = .ok a) ↔ type.Takes v := by
  cases type with
  | text =>
    cases v with
    | str s => exact iff_of_true ⟨s, rfl⟩ (.text s)
    | _ => exact iff_of_false nofun nofun
  | flag =>
    cases v with
    | bool b => exact iff_of_true ⟨b, rfl⟩ (.flag b)
    | _ => exact iff_of_false nofun nofun
  | count =>
    cases v with
    | int n =>
      have hread : FieldType.count.read (.int n) = some <$> countOf (.int n) := rfl
      rw [hread]
      by_cases hn : n < 0
      · have hcount : countOf (.int n) = .error (.negative n) := if_pos hn
        refine iff_of_false ?_ fun htakes => ?_
        · rw [hcount]
          exact nofun
        · obtain ⟨m, rfl⟩ := htakes.exists_nat
          omega
      · have hcount : countOf (.int n) = .ok n.toNat := if_neg hn
        rw [hcount]
        refine iff_of_true ⟨some n.toNat, rfl⟩ ?_
        rw [← Int.toNat_of_nonneg (Int.not_lt.1 hn)]
        exact .count n.toNat
    | _ => exact iff_of_false nofun nofun

/-- Changes are made if none of them is an offence. -/
theorem exists_putAll_iff {changes : List (Except Misfit (σ → σ))} {s : σ} :
    (∃ s', putAll changes s = .ok s') ↔ ∀ change ∈ changes, ∃ f, change = .ok f := by
  induction changes generalizing s with
  | nil => simp [putAll, pure, Except.pure]
  | cons change changes ih =>
    rw [List.forall_mem_cons]
    cases change with
    | error m => simp [putAll, bind, Except.bind]
    | ok f =>
      rw [← ih (s := f s)]
      simp [putAll, bind, Except.bind, pure, Except.pure]

/-- An entry is read by the slot of its name. -/
theorem exists_readEntry_iff {slots : List (Slot σ)} (hslots : (slots.map Slot.name).Nodup) :
    (∃ f, readEntry slots e = .ok f) ↔
      ∃ slot ∈ slots, slot.name = e.1 ∧ ∃ f, slot.read e.2 = .ok f := by
  unfold readEntry
  cases hfind : slots.find? (·.name = e.1) with
  | none =>
    refine iff_of_false nofun ?_
    rintro ⟨slot, hslot, hname, -⟩
    simpa [hname] using List.find?_eq_none.1 hfind slot hslot
  | some slot =>
    have hslot := List.mem_of_find?_eq_some hfind
    have hname : slot.name = e.1 := by simpa using List.find?_some hfind
    constructor
    · exact fun h => ⟨slot, hslot, hname, h⟩
    · rintro ⟨slot', hslot', hname', h⟩
      rwa [List.inj_on_of_nodup_map hslots hslot hslot' (hname.trans hname'.symm)]

theorem Field.exists_slot_read_iff {field : Field σ} :
    (∃ f, field.slot.read v = .ok f) ↔ field.type.Takes v :=
  exists_return_iff.trans FieldType.exists_read_iff

theorem Record.nodup_slot_names (r : Record σ) :
    ((r.fields.map Field.slot).map Slot.name).Nodup := by
  rw [List.map_map]
  exact r.nodup_names

/-- A value is read for a record if the record takes it. A date and time is a table whose one key is
no field. -/
theorem Record.exists_read_iff (hkey : ∀ field ∈ r.fields, field.name ≠ dateTimeKey) :
    (∃ s, r.read v = .ok s) ↔ r.Takes v := by
  have hentry (e : String × Value) : (∃ f, readEntry (r.fields.map Field.slot) e = .ok f) ↔
      ∃ field ∈ r.fields, field.name = e.1 ∧ field.type.Takes e.2 := by
    rw [exists_readEntry_iff r.nodup_slot_names]
    simp only [List.mem_map, exists_exists_and_eq_and, Field.exists_slot_read_iff]
    rfl
  cases v with
  | table entries =>
    rw [Record.read, putTable, exists_putAll_iff, List.forall_mem_map]
    simp only [hentry]
    exact ⟨.table, fun h => by cases h; assumption⟩
  | array items =>
    rw [Record.read, putItems, exists_putAll_iff, List.forall_mem_map, List.zip_map_left,
      List.forall_mem_map]
    simp only [Prod.map_fst, Prod.map_snd, id_eq, Field.exists_slot_read_iff]
    exact ⟨.array, fun h => by cases h; assumption⟩
  | dateTime written =>
    refine iff_of_false ?_ nofun
    rw [Record.read, putTable, exists_putAll_iff, List.map_singleton, List.forall_mem_singleton,
      hentry]
    rintro ⟨field, hfield, hname, -⟩
    exact hkey field hfield hname
  | _ => exact iff_of_false nofun nofun

theorem exists_section_read_iff {part : Section} (hpart : part ∈ sections) :
    (∃ f, part.slot.read v = .ok f) ↔ part.record.Takes v := by
  have hkey : ∀ part ∈ sections, ∀ field ∈ part.record.fields, field.name ≠ dateTimeKey := by
    decide
  exact exists_return_iff.trans (Record.exists_read_iff (hkey part hpart))

/-- A table is read as settings if the declared fields take it. -/
theorem exists_ofTable_iff {document : Table} :
    (∃ s, ofTable document = .ok s) ↔ Takes document := by
  have hnodup : ((sections.map Section.slot).map Slot.name).Nodup := by
    rw [List.map_map]
    exact nodup_section_names
  rw [ofTable, putTable, exists_putAll_iff, List.forall_mem_map]
  refine forall₂_congr fun e _ => ?_
  rw [exists_readEntry_iff hnodup]
  simp only [List.mem_map, exists_exists_and_eq_and]
  refine exists_congr fun part => and_congr_right fun hpart => and_congr_right fun _ => ?_
  exact exists_section_read_iff hpart

/-- **The loader goes by the declared fields.** -/
theorem ofText_loadsAsDeclared : LoadsAsDeclared Toml.ofText? ofText := by
  intro text
  unfold ofText
  cases Toml.ofText? text with
  | none => simp
  | some document =>
    simp only [Option.some.injEq, exists_eq_left', ← exists_ofTable_iff]
    cases ofTable document <;> simp [Except.mapError]

end Wiring.Settings
