import Wiring.Proofs.Lifecycle.Closes
/-!
# The ledger of a run

A ledger is kept beside a run: the registrations made and the registries that were told to close.
The registries that are closed are those reached from such calls along the registrations
(`Records.closed`), and the log shows each callback booked for one of them, once for each
registration (`Records.log`). Making a registry, keeping a callback, registering in an open
registry and closing (`Records.of_closes`) all keep the ledger right.
-/

namespace Wiring.Lifecycle

/-- The step gives callbacks no script. -/
def Step.Quiet : Step → Prop
  | .register _ _ script _ _ => script = []
  | _ => True

/-- The registrations made and the registries on which `close` was called. -/
structure Ledger where
  book : List Registration
  calls : List RegistryId

/-- What a step has registered, in the world before it. -/
def World.booking? (w : World) : Step → Option Registration
  | .child parent _ _ => (w.handles.get? parent).map (·, .registry w.registries.length)
  | .register into name script error _ =>
    (w.handles.get? into).map (·, .callback ⟨name, script, error⟩)
  | .again into kept =>
    (w.kept.get? kept).bind fun c => (w.handles.get? into).map (·, .callback c)
  | .adopt into registry =>
    (w.handles.get? registry).bind fun id => (w.handles.get? into).map (·, .registry id)
  | .create .. | .close _ | .closeNamed _ => none

/-- The registry that a step tells to close. -/
def World.call? (w : World) : Step → Option RegistryId
  | .close registry | .closeNamed registry => w.handles.get? registry
  | _ => none

namespace Ledger

/-- The ledger after a step. -/
def note (l : Ledger) (w : World) (s : Step) : Ledger :=
  ⟨l.book ++ (w.booking? s).toList, l.calls ++ (w.call? s).toList⟩

/-- Some call to close led to the registry. -/
def Closed (l : Ledger) (id : RegistryId) : Prop := Reached l.book (· ∈ l.calls) id

theorem Closed.append {l : Ledger} {id : RegistryId} (h : l.Closed id) (book : List Registration)
    (calls : List RegistryId) : Ledger.Closed ⟨l.book ++ book, l.calls ++ calls⟩ id :=
  h.mono (List.subset_append_left _ _) fun _ hj => List.mem_append_left _ hj

/-- The ledger tells what is in a world and what was closed there. -/
structure Records (l : Ledger) (w : World) : Prop where
  holds : w.Holds l.book
  quiet : ∀ p ∈ l.book, p.2.Quiet
  kept : ∀ name c, w.kept.get? name = some c → c.script = []
  handles : ∀ name id, w.handles.get? name = some id → id < w.registries.length
  ids : ∀ p ∈ l.book, p.1 < w.registries.length
  children : ∀ parent id, (parent, .registry id) ∈ l.book → id < w.registries.length
  calls : ∀ id ∈ l.calls, id < w.registries.length
  log : w.log.Perm (closings (w.settled l.book))
  closed : ∀ id < w.registries.length, w.open? id = none ↔ l.Closed id

variable {l : Ledger} {w w' : World} {id : RegistryId} {fuel : Nat}

theorem records_empty : Records ⟨[], []⟩ World.empty where
  holds := fun _ _ h => by simp [World.open?, World.empty] at h
  quiet := fun _ h => by cases h
  kept := fun _ _ h => by simp [World.empty, SortedMap.get?] at h
  handles := fun _ _ h => by simp [World.empty, SortedMap.get?] at h
  ids := fun _ h => by cases h
  children := fun _ _ h => by cases h
  calls := fun _ h => by cases h
  log := .rfl
  closed := fun _ h => absurd h (Nat.not_lt_zero _)

namespace Records

theorem lt_of_closed (h : l.Records w) (hid : l.Closed id) : id < w.registries.length := by
  cases hid with
  | start hcall => exact h.calls _ hcall
  | through hbook _ => exact h.children _ _ hbook

theorem open?_of_closed (h : l.Records w) (hid : l.Closed id) : w.open? id = none :=
  (h.closed id (h.lt_of_closed hid)).2 hid

/-- A world in which the same registries of the book are open has the same resources settled. -/
theorem settled_congr (h : l.Records w)
    (hopen : ∀ j < w.registries.length, (w'.open? j).isNone = (w.open? j).isNone) :
    w'.settled l.book = w.settled l.book := by
  rw [World.settled, World.settled]
  congr 1
  exact List.filter_congr fun p hp => hopen p.1 (h.ids p hp)

/-! ## What each part of a step keeps -/

theorem create (h : l.Records w) (as name : String) : l.Records (w.create as name) := by
  have hopen (j : RegistryId) := World.open?_create (j := j) w as name
  have hold {j : RegistryId} (hj : j < w.registries.length) :
      (w.create as name).open? j = w.open? j := by
    rw [hopen, if_neg (Nat.ne_of_lt hj)]
  have hlt {j : RegistryId} (hj : j < w.registries.length) :
      j < (w.create as name).registries.length := by
    rw [World.length_create]
    exact Nat.lt_succ_of_lt hj
  constructor
  case holds =>
    intro id rs hid
    rw [hopen] at hid
    split at hid
    · rename_i hnew
      obtain rfl : [] = rs := by simpa using hid
      have hnone : l.book.filter (fun p => p.1 = id) = [] :=
        List.filter_eq_nil_iff.2 fun p hp => by
          simpa [hnew] using Nat.ne_of_lt (h.ids p hp)
      rw [hnone, List.map_nil]
    · exact h.holds id rs hid
  case quiet => exact h.quiet
  case kept => exact h.kept
  case handles =>
    intro handle id hid
    rw [World.create, SortedMap.get?_insert] at hid
    split at hid
    · cases hid
      simp
    · exact hlt (h.handles handle id hid)
  case ids => exact fun p hp => hlt (h.ids p hp)
  case children => exact fun parent id hp => hlt (h.children parent id hp)
  case calls => exact fun id hid => hlt (h.calls id hid)
  case log =>
    rw [h.settled_congr fun j hj => by rw [hold hj]]
    exact h.log
  case closed =>
    intro id hid
    rw [World.length_create] at hid
    rcases Nat.lt_succ_iff_lt_or_eq.1 hid with hlt | rfl
    · rw [hold hlt]
      exact h.closed id hlt
    · rw [hopen, if_pos rfl]
      have hnew : ¬ l.Closed w.registries.length := fun hc => Nat.lt_irrefl _ (h.lt_of_closed hc)
      simp [hnew]

theorem keep (h : l.Records w) (name : String) {c : Callback} (hc : c.script = []) :
    l.Records (w.keep name c) where
  holds := h.holds
  quiet := h.quiet
  kept := fun key c' hkey => by
    rw [World.keep, SortedMap.get?_insert] at hkey
    split at hkey
    · cases hkey
      exact hc
    · exact h.kept key c' hkey
  handles := h.handles
  ids := h.ids
  children := h.children
  calls := h.calls
  log := h.log
  closed := h.closed

/-- The registration names registries of the world and a callback without a script. -/
structure Fits (w : World) (p : Registration) : Prop where
  quiet : p.2.Quiet
  id : p.1 < w.registries.length
  child : ∀ j, p.2 = .registry j → j < w.registries.length

/-- A close is due for what is newly called for or registered too late. -/
structure Accounts (w : World) (due : List Resource) (new : List Registration)
    (called : List RegistryId) : Prop where
  fits : ∀ p ∈ new, Fits w p
  late : ∀ p ∈ new, w.open? p.1 = none
  inRange : ∀ id ∈ called, id < w.registries.length
  callbacks : closings due = closings (new.map (·.2))
  registries : ∀ j, .registry j ∈ due ↔ j ∈ called ∨ ∃ parent, (parent, .registry j) ∈ new

section Closes

variable {due : List Resource} {new : List Registration} {called : List RegistryId}

/-- The log gains what is newly settled. -/
theorem log_of_closes (h : l.Records w) (hc : Closes l.book due w w')
    (ha : Accounts w due new called) :
    w'.log.Perm (closings (w'.settled (l.book ++ new))) := by
  have hnone : w'.waiting new = [] := by
    rw [World.waiting, List.map_eq_nil_iff, List.filter_eq_nil_iff]
    exact fun p hp => by simp [hc.closed_of_closed (ha.late p hp)]
  have hbefore := h.log.append_right (closings (w.waiting l.book))
  rw [← closings_append] at hbefore
  have hafter := w'.settled_append_waiting (l.book ++ new)
  rw [World.waiting_append, hnone, List.append_nil, List.map_append] at hafter
  obtain ⟨events, hlog, hperm⟩ := hc.log
  -- both sides are completed by what still waits, so that everything booked is on each of them
  refine (List.perm_append_right_iff (closings (w'.waiting l.book))).1 ?_
  calc w'.log ++ closings (w'.waiting l.book)
      = w.log ++ (events ++ closings (w'.waiting l.book)) := by rw [hlog, List.append_assoc]
    List.Perm _ (w.log ++ (closings due ++ closings (w.waiting l.book))) := hperm.append_left _
    List.Perm _ ((w.log ++ closings (w.waiting l.book)) ++ closings due) := by
      rw [List.append_assoc]
      exact List.perm_append_comm.append_left _
    List.Perm _ (closings (l.book.map (·.2)) ++ closings (new.map (·.2))) := by
      rw [ha.callbacks]
      exact (hbefore.trans (closings_perm (w.settled_append_waiting l.book))).append_right _
    List.Perm _ (closings (w'.settled (l.book ++ new)) ++ closings (w'.waiting l.book)) := by
      rw [← closings_append, ← closings_append]
      exact (closings_perm hafter).symm

theorem closed_of_open?_closes (h : l.Records w) (hc : Closes l.book due w w')
    (ha : Accounts w due new called) (hid : id < w.registries.length)
    (hclosed : w'.open? id = none) : Ledger.Closed ⟨l.book ++ new, l.calls ++ called⟩ id := by
  cases hbefore : w.open? id with
  | none => exact ((h.closed id hid).1 hbefore).append _ _
  | some rs =>
    have hreached := hc.reached (by simp [hbefore]) hclosed
    refine hreached.trans (List.subset_append_left _ _) fun j hj => ?_
    rcases (ha.registries j).1 hj with hcall | ⟨parent, hp⟩
    · exact .start (List.mem_append_right _ hcall)
    · have hparent := (h.closed parent (ha.fits _ hp).id).1 (ha.late _ hp)
      exact .through (List.mem_append_right _ hp) (hparent.append _ _)

theorem open?_closes_of_closed (h : l.Records w) (hc : Closes l.book due w w')
    (ha : Accounts w due new called)
    (hreached : Ledger.Closed ⟨l.book ++ new, l.calls ++ called⟩ id) : w'.open? id = none := by
  induction hreached with
  | start hcall =>
    rcases List.mem_append.1 hcall with hcall | hcall
    · exact hc.closed_of_closed (h.open?_of_closed (.start hcall))
    · exact hc.marks ((ha.registries _).2 (.inl hcall))
  | @through parent id hbook _ ih =>
    rcases List.mem_append.1 hbook with hbook | hbook
    · cases hbefore : w.open? parent with
      | none =>
        have hparent := (h.closed parent (h.ids _ hbook)).1 hbefore
        exact hc.closed_of_closed (h.open?_of_closed (.through hbook hparent))
      | some rs => exact hc.passes hbook (by simp [hbefore]) ih
    · exact hc.marks ((ha.registries _).2 (.inr ⟨parent, hbook⟩))

/-- Closing what was called for, or registered too late, keeps the ledger. -/
theorem of_closes (h : l.Records w) (hc : Closes l.book due w w') (ha : Accounts w due new called) :
    Records ⟨l.book ++ new, l.calls ++ called⟩ w' where
  holds := fun id rs hopen => by
    have hnew : new.filter (fun p => p.1 = id) = [] :=
      List.filter_eq_nil_iff.2 fun p hp hid => by
        obtain rfl : p.1 = id := by simpa using hid
        simp [hc.closed_of_closed (ha.late p hp)] at hopen
    rw [List.filter_append, hnew, List.append_nil]
    exact hc.holds h.holds id rs hopen
  quiet := fun p hp => (List.mem_append.1 hp).elim (h.quiet p) fun hp => (ha.fits p hp).quiet
  kept := by rw [hc.kept]; exact h.kept
  handles := by rw [hc.handles, hc.length]; exact h.handles
  ids := by
    rw [hc.length]
    exact fun p hp => (List.mem_append.1 hp).elim (h.ids p) fun hp => (ha.fits p hp).id
  children := by
    rw [hc.length]
    exact fun parent id hp => (List.mem_append.1 hp).elim (h.children parent id)
      fun hp => (ha.fits _ hp).child id rfl
  calls := by
    rw [hc.length]
    exact fun id hid => (List.mem_append.1 hid).elim (h.calls id) (ha.inRange id)
  log := h.log_of_closes hc ha
  closed := fun id hid =>
    ⟨h.closed_of_open?_closes hc ha (hc.length ▸ hid), h.open?_closes_of_closed hc ha⟩

end Closes

/-- Registering in an open registry keeps the ledger. -/
theorem of_open (h : l.Records w) {rs : List Resource} {r : Resource}
    (hopen : w.open? id = some rs) (hfits : Fits w (id, r)) :
    Records ⟨l.book ++ [(id, r)], l.calls⟩ (w.setResources id (some (rs ++ [r]))) := by
  have hset (j : RegistryId) := World.open?_setResources (j := j) hopen (some (rs ++ [r]))
  have hsame (j : RegistryId) :
      ((w.setResources id (some (rs ++ [r]))).open? j).isNone = (w.open? j).isNone := by
    rw [hset]
    by_cases hj : j = id <;> simp [hj, hopen]
  constructor
  case holds =>
    intro j rs' hj
    rw [hset] at hj
    rw [List.filter_append, List.map_append]
    split at hj
    · rename_i hji
      subst hji
      cases hj
      rw [h.holds j rs hopen]
      simp
    · rename_i hji
      rw [h.holds j rs' hj]
      simp [Ne.symm hji]
  case quiet =>
    exact fun p hp => (List.mem_append.1 hp).elim (h.quiet p) fun hp =>
      List.mem_singleton.1 hp ▸ hfits.quiet
  case kept => exact h.kept
  case handles => rw [World.length_setResources]; exact h.handles
  case ids =>
    rw [World.length_setResources]
    exact fun p hp => (List.mem_append.1 hp).elim (h.ids p) fun hp =>
      List.mem_singleton.1 hp ▸ hfits.id
  case children =>
    rw [World.length_setResources]
    intro parent j hp
    rcases List.mem_append.1 hp with hp | hp
    · exact h.children parent j hp
    · cases List.mem_singleton.1 hp
      exact hfits.child j rfl
  case calls => rw [World.length_setResources]; exact h.calls
  case log =>
    have hsettled : (w.setResources id (some (rs ++ [r]))).settled (l.book ++ [(id, r)]) =
        w.settled l.book := by
      rw [← h.settled_congr fun j _ => hsame j, World.settled, World.settled]
      simp [hset]
    rw [hsettled]
    exact h.log
  case closed =>
    intro j hj
    rw [World.length_setResources] at hj
    have hiff : (w.setResources id (some (rs ++ [r]))).open? j = none ↔ w.open? j = none := by
      rw [← Option.isNone_iff_eq_none, hsame, Option.isNone_iff_eq_none]
    rw [hiff, h.closed j hj]
    refine ⟨fun hc => hc.mono (List.subset_append_left _ _) fun _ h => h, fun hc => ?_⟩
    clear hj hiff
    induction hc with
    | start hcall => exact .start hcall
    | through hbook _ ih =>
      rcases List.mem_append.1 hbook with hbook | hbook
      · exact .through hbook ih
      · -- the new registration is of no use as long as its registry is open
        cases List.mem_singleton.1 hbook
        exact absurd ((h.open?_of_closed ih).symm.trans hopen) (by simp)

end Records

end Ledger

end Wiring.Lifecycle
