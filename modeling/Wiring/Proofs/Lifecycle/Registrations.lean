import Mathlib.Data.Finset.Card
import Mathlib.Data.List.Perm.Basic
import Wiring.Lifecycle.Closing
/-!
# Registrations

A registration is a resource together with the registry it was registered in; a resource that is
registered again makes another one. A book lists the registrations made so far. An open registry
holds what the book lists for it (`World.Holds`), so a book and a world tell which resources still
wait for a close (`World.waiting`) and which are due to have been closed (`World.settled`).
-/

namespace Wiring.Lifecycle

/-- A resource with the registry it was registered in. -/
abbrev Registration := RegistryId × Resource

/-- Closing the resource makes no calls of its own: a callback has no script. -/
def Resource.Quiet : Resource → Prop
  | .callback c => c.script = []
  | .registry _ => True

/-- What the log shows once every callback among the resources was invoked. -/
def closings (rs : List Resource) : List Event :=
  rs.filterMap fun
    | .callback c => some (.closing c.name)
    | .registry _ => none

@[simp] theorem closings_append (rs more : List Resource) :
    closings (rs ++ more) = closings rs ++ closings more :=
  List.filterMap_append

@[simp] theorem closings_registry (id : RegistryId) : closings [.registry id] = [] := rfl

theorem closings_perm {rs more : List Resource} (h : rs.Perm more) :
    (closings rs).Perm (closings more) :=
  h.filterMap _

/-- A registry that is started at, or that is booked for one reached before. -/
inductive Reached (book : List Registration) (start : RegistryId → Prop) : RegistryId → Prop
  | start {id : RegistryId} (h : start id) : Reached book start id
  | through {parent id : RegistryId} (hbook : (parent, Resource.registry id) ∈ book)
      (hparent : Reached book start parent) : Reached book start id

namespace Reached

variable {book more : List Registration} {start other : RegistryId → Prop} {id : RegistryId}

/-- What is reached from starts that are reached themselves is reached. -/
theorem trans (h : Reached book start id) (hsub : book ⊆ more)
    (hstart : ∀ j, start j → Reached more other j) : Reached more other id := by
  induction h with
  | start h => exact hstart _ h
  | through hbook _ ih => exact .through (hsub hbook) ih

theorem mono (h : Reached book start id) (hsub : book ⊆ more) (hstart : ∀ j, start j → other j) :
    Reached more other id :=
  h.trans hsub fun j hj => .start (hstart j hj)

end Reached

namespace World

variable {w w' : World} {id j : RegistryId} {rs : List Resource} {book : List Registration}

@[simp] theorem open?_record (w : World) (e : Event) : (w.record e).open? = w.open? := rfl

theorem lt_length_of_open? (h : w.open? id = some rs) : id < w.registries.length := by
  obtain ⟨r, hr, -⟩ := Option.bind_eq_some_iff.1 h
  exact (List.getElem?_eq_some_iff.1 hr).1

@[simp] theorem length_setResources (w : World) (id : RegistryId)
    (resources : Option (List Resource)) :
    (w.setResources id resources).registries.length = w.registries.length := by
  simp [setResources]

@[simp] theorem length_create (w : World) (as name : String) :
    (w.create as name).registries.length = w.registries.length + 1 := by
  simp [create]

theorem open?_setResources (h : w.open? id = some rs) (resources : Option (List Resource)) :
    (w.setResources id resources).open? j = if j = id then resources else w.open? j := by
  simp only [open?, setResources, List.getElem?_modify]
  by_cases hj : j = id
  · subst hj
    simp [List.getElem?_eq_getElem (lt_length_of_open? h)]
  · have hne : id ≠ j := Ne.symm hj
    simp [hj, hne]

theorem open?_create (w : World) (as name : String) :
    (w.create as name).open? j = if j = w.registries.length then some [] else w.open? j := by
  simp only [open?, create]
  obtain hlt | rfl | hgt := Nat.lt_trichotomy j w.registries.length
  · simp [List.getElem?_append_left hlt, Nat.ne_of_lt hlt]
  · simp
  · have hlong : (w.registries ++ [(⟨name, some []⟩ : Registry)]).length ≤ j := by
      rw [List.length_append]
      exact hgt
    have hold : w.registries.length ≤ j := Nat.le_of_lt hgt
    simp only [List.getElem?_eq_none hlong, List.getElem?_eq_none hold, if_neg (Nat.ne_of_gt hgt)]

/-! ## What a book says -/

/-- Open registries hold what was registered in them, in order. -/
def Holds (book : List Registration) (w : World) : Prop :=
  ∀ id rs, w.open? id = some rs → (book.filter fun p => p.1 = id).map (·.2) = rs

/-- The resources booked for registries that are open. -/
def waiting (w : World) (book : List Registration) : List Resource :=
  (book.filter fun p => (w.open? p.1).isSome).map (·.2)

/-- The resources booked for registries that are closed. -/
def settled (w : World) (book : List Registration) : List Resource :=
  (book.filter fun p => (w.open? p.1).isNone).map (·.2)

theorem settled_append_waiting (w : World) (book : List Registration) :
    (w.settled book ++ w.waiting book).Perm (book.map (·.2)) := by
  rw [settled, waiting, ← List.map_append]
  have h := List.filter_append_perm (fun p : Registration => (w.open? p.1).isNone) book
  exact List.Perm.map _ (by simpa using h)

theorem waiting_append (w : World) (book more : List Registration) :
    w.waiting (book ++ more) = w.waiting book ++ w.waiting more := by
  simp [waiting]

theorem Holds.mem (hw : w.Holds book) (h : w.open? id = some rs) {r : Resource} :
    r ∈ rs ↔ (id, r) ∈ book := by
  simp [← hw id rs h]

/-- A registry that is closed leaves behind what it held. -/
theorem Holds.waiting_setResources (hw : w.Holds book) (h : w.open? id = some rs) :
    (w.waiting book).Perm (rs ++ (w.setResources id none).waiting book) := by
  rw [waiting, waiting, ← hw id rs h, ← List.map_append]
  refine List.Perm.map _ ?_
  have hsplit := List.filter_append_perm (fun p : Registration => decide (p.1 = id))
    (book.filter fun p => (w.open? p.1).isSome)
  rw [List.filter_filter, List.filter_filter] at hsplit
  refine hsplit.symm.trans (List.Perm.of_eq ?_)
  congr 1
  · refine List.filter_congr fun p _ => ?_
    by_cases hp : p.1 = id
    · simp [hp, h]
    · simp [hp]
  · refine List.filter_congr fun p _ => ?_
    rw [open?_setResources h]
    by_cases hp : p.1 = id <;> simp [hp]

/-! ## How many registries are open -/

/-- The registries that are open. -/
def openIds (w : World) : Finset RegistryId :=
  (Finset.range w.registries.length).filter fun id => (w.open? id).isSome

theorem mem_openIds : id ∈ w.openIds ↔ (w.open? id).isSome := by
  simp only [openIds, Finset.mem_filter, Finset.mem_range, and_iff_right_iff_imp]
  intro h
  obtain ⟨rs, hrs⟩ := Option.isSome_iff_exists.1 h
  exact lt_length_of_open? hrs

theorem card_openIds_le (w : World) : w.openIds.card ≤ w.registries.length :=
  (Finset.card_le_card (Finset.filter_subset _ _)).trans_eq (Finset.card_range _)

theorem card_openIds_setResources (h : w.open? id = some rs) :
    (w.setResources id none).openIds.card < w.openIds.card := by
  have herase : (w.setResources id none).openIds = w.openIds.erase id := by
    ext j
    rw [Finset.mem_erase, mem_openIds, mem_openIds, open?_setResources h]
    by_cases hj : j = id <;> simp [hj]
  rw [herase]
  exact Finset.card_erase_lt_of_mem (mem_openIds.2 (by simp [h]))

end World

end Wiring.Lifecycle
