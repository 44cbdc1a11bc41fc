import Wiring.Decimal.Shortest
import Wiring.Json
import Wiring.Toml.Value
/-!
# Documents as JSON

A TOML document read as a JSON object: tables are objects, dates and times are texts, and a number
that is not finite has no place there (`Toml.Value.json?`). The fields of the object are the entries
of the table (`mem_entriesJson?_iff`, `exists_object_iff`).
-/

namespace Wiring

/-- The number with its shortest digits. What is not finite has no place in JSON. -/
def Binary64.json? : Binary64 → Option Json
  | .finite negative m e =>
    let f := Decimal.Target.shortest m e
    let sign : Int := if negative then -1 else 1
    some (if f.exponent < 0 then .num (sign * f.digits) (-f.exponent).toNat
      else .num (sign * (f.digits * Nat.pow 10 (f.exponent + 1).toNat)) 1)
  | _ => none

namespace Toml.Value

mutual

/-- A value of a document as a JSON value; dates and times are texts there. -/
def json? : Value → Option Json
  | .str s => some (.str s)
  | .int n => some (.int n)
  | .float x => x.json?
  | .bool b => some (.bool b)
  | .dateTime written => some (.str written)
  | .array items => .arr <$> itemsJson? items
  | .table entries => .obj <$> entriesJson? entries

def itemsJson? : List Value → Option (List Json)
  | [] => some []
  | v :: vs => do return (← v.json?) :: (← itemsJson? vs)

def entriesJson? : List (String × Value) → Option (List (String × Json))
  | [] => some []
  | (name, v) :: entries => do return (name, ← v.json?) :: (← entriesJson? entries)

end

variable {entries : List (String × Value)} {fields : List (String × Json)}

/-- A table has a JSON value if its entries have. -/
theorem exists_entriesJson?_iff :
    (∃ fields, entriesJson? entries = some fields) ↔ ∀ e ∈ entries, ∃ j, e.2.json? = some j := by
  induction entries with
  | nil => simp [entriesJson?]
  | cons e entries ih =>
    rw [List.forall_mem_cons, ← ih, entriesJson?]
    cases e.2.json? <;> cases entriesJson? entries <;> simp

theorem mem_entriesJson?_iff {name : String} {j : Json} (h : entriesJson? entries = some fields) :
    (name, j) ∈ fields ↔ ∃ v, (name, v) ∈ entries ∧ v.json? = some j := by
  induction entries generalizing fields with
  | nil =>
    cases h
    simp
  | cons e entries ih =>
    rw [entriesJson?] at h
    obtain ⟨j', hj', h⟩ := Option.bind_eq_some_iff.1 h
    obtain ⟨rest, hrest, h⟩ := Option.bind_eq_some_iff.1 h
    cases h
    rw [List.mem_cons, ih hrest]
    constructor
    · rintro (heq | ⟨v, hv, hj⟩)
      · cases heq
        exact ⟨e.2, List.mem_cons_self, hj'⟩
      · exact ⟨v, List.mem_cons_of_mem _ hv, hj⟩
    · rintro ⟨v, hv, hj⟩
      rcases List.mem_cons.1 hv with rfl | hv
      · exact .inl (congrArg _ (Option.some.inj (hj.symm.trans hj')))
      · exact .inr ⟨v, hv, hj⟩

theorem json?_array {items : List Value} {j : Json} (h : (array items).json? = some j) :
    ∃ js, j = .arr js := by
  obtain ⟨js, -, rfl⟩ := Option.map_eq_some_iff.1 h
  exact ⟨js, rfl⟩

/-- **A table is an object with fields of a kind**, if its entries have JSON values of that kind. -/
theorem exists_object_iff {P : String → Json → Prop} :
    (∃ j, (table entries).json? = some j ∧ ∃ fields, j = .obj fields ∧ ∀ e ∈ fields, P e.1 e.2) ↔
      ∀ e ∈ entries, ∃ j, e.2.json? = some j ∧ P e.1 j := by
  constructor
  · rintro ⟨_, hj, fields, rfl, hfields⟩ ⟨name, v⟩ he
    obtain ⟨fields', hentries, ⟨⟩⟩ := Option.map_eq_some_iff.1 hj
    obtain ⟨j, hj⟩ := exists_entriesJson?_iff.1 ⟨_, hentries⟩ _ he
    exact ⟨j, hj, hfields _ ((mem_entriesJson?_iff hentries).2 ⟨v, he, hj⟩)⟩
  · intro h
    obtain ⟨fields, hfields⟩ := exists_entriesJson?_iff.2 fun e he => by
      obtain ⟨j, hj, -⟩ := h e he
      exact ⟨j, hj⟩
    refine ⟨.obj fields, by simp [json?, hfields], fields, rfl, fun ⟨name, j⟩ hmem => ?_⟩
    obtain ⟨v, hv, hj⟩ := (mem_entriesJson?_iff hfields).1 hmem
    obtain ⟨j', hj', hP⟩ := h _ hv
    cases hj.symm.trans hj'
    exact hP

end Toml.Value

end Wiring
