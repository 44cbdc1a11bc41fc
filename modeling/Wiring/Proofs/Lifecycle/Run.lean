import Wiring.Proofs.Lifecycle.Ledger
/-!
# Runs

Every step ends and keeps the ledger (`Ledger.Records.step`), so a run from an empty world does
(`Ledger.Records.run`). Then the log shows each callback booked for a closed registry, once for
each registration, and the next step adds those of the registries it closes, and one that it
registers too late itself (`World.run_exactly_once`).
-/

namespace Wiring.Lifecycle

namespace World

/-- Runs steps one after the other and keeps the ledger beside the world. -/
def run (fuel : Nat) : List Step → Ledger → World → Option (Ledger × World)
  | [], l, w => some (l, w)
  | s :: steps, l, w => do
    let (_, w') ← w.step fuel s
    run fuel steps (l.note w s) w'

/-- The resources booked for the registries that are open in `w` and closed in `w'`. -/
def released (w w' : World) (book : List Registration) : List Resource :=
  (book.filter fun p => (w.open? p.1).isSome && (w'.open? p.1).isNone).map (·.2)

/-- A later world, with `new` registered since. -/
structure Later (w : World) (new : List Registration) (w' : World) : Prop where
  length : w.registries.length ≤ w'.registries.length
  log : ∃ events, w'.log = w.log ++ events
  /-- What is closed stays closed. -/
  stays : ∀ id < w.registries.length, w.open? id = none → w'.open? id = none
  /-- A registration does not close the registry it goes to. -/
  late : ∀ p ∈ new, w'.open? p.1 = none → w.open? p.1 = none

variable {w w' w'' : World} {new : List Registration} {book : List Registration}

theorem Later.refl : Later w [] w :=
  ⟨Nat.le_refl _, ⟨[], by simp⟩, fun _ _ h => h, by simp⟩

/-- Registering comes last in a step that does more. -/
theorem Later.trans (h : Later w [] w') (h' : Later w' new w'')
    (hlate : ∀ p ∈ new, w'.open? p.1 = none → w.open? p.1 = none) : Later w new w'' where
  length := h.length.trans h'.length
  log := by
    obtain ⟨events, hlog⟩ := h.log
    obtain ⟨events', hlog'⟩ := h'.log
    exact ⟨events ++ events', by rw [hlog', hlog, List.append_assoc]⟩
  stays := fun id hid hclosed => h'.stays id (hid.trans_le h.length) (h.stays id hid hclosed)
  late := fun p hp hclosed => hlate p hp (h'.late p hp hclosed)

theorem Later.create (w : World) (as name : String) : Later w [] (w.create as name) where
  length := by simp
  log := ⟨[], by simp [World.create]⟩
  stays := fun id hid hclosed => by rw [open?_create, if_neg (Nat.ne_of_lt hid), hclosed]
  late := by simp

theorem Later.keep (w : World) (name : String) (c : Callback) : Later w [] (w.keep name c) :=
  ⟨Nat.le_refl _, ⟨[], by simp [World.keep]⟩, fun _ _ h => h, by simp⟩

theorem Later.of_closes {due : List Resource} (h : Closes book due w w')
    (hlate : ∀ p ∈ new, w.open? p.1 = none) : Later w new w' where
  length := h.length.ge
  log := h.log.imp fun _ hlog => hlog.1
  stays := fun _ _ hclosed => h.closed_of_closed hclosed
  late := fun p hp _ => hlate p hp

/-- What is settled later is what was settled, what was released and what came too late. -/
theorem Later.settled (h : Later w new w') (hids : ∀ p ∈ book, p.1 < w.registries.length)
    (hnew : ∀ p ∈ new, p.1 < w.registries.length) :
    (w'.settled (book ++ new)).Perm
      (w.settled book ++ (w.released w' book ++ w.settled new)) := by
  have hold : (w'.settled book).Perm (w.settled book ++ w.released w' book) := by
    have hsplit := List.filter_append_perm (fun p : Registration => (w.open? p.1).isNone)
      (book.filter fun p => (w'.open? p.1).isNone)
    rw [List.filter_filter, List.filter_filter] at hsplit
    rw [World.settled, World.settled, released, ← List.map_append]
    refine List.Perm.map _ (hsplit.symm.trans (List.Perm.of_eq ?_))
    congr 1
    · refine List.filter_congr fun p hp => ?_
      cases hp' : w.open? p.1 with
      | none => simp [h.stays p.1 (hids p hp) hp']
      | some rs => simp
    · exact List.filter_congr fun p _ => by simp
  have hlate : w'.settled new = w.settled new := by
    rw [World.settled, World.settled]
    congr 1
    refine List.filter_congr fun p hp => ?_
    rw [Bool.eq_iff_iff, Option.isNone_iff_eq_none, Option.isNone_iff_eq_none]
    exact ⟨h.late p hp, h.stays p.1 (hnew p hp)⟩
  have happend : w'.settled (book ++ new) = w'.settled book ++ w'.settled new := by
    simp [World.settled]
  rw [happend, hlate, ← List.append_assoc]
  exact hold.append_right _

end World

namespace Ledger

open World

variable {l : Ledger} {w w' : World} {new : List Registration} {called : List RegistryId}
  {n m : Nat} {id : RegistryId} {r : Resource} {fuel : Nat}

/-- The part `x` of a step ends with at most `n` registries, and the ledger is kept with what was
registered and told to close. -/
def Keeps {α : Type} (l : Ledger) (w : World) (new : List Registration)
    (called : List RegistryId) (n : Nat) (x : Option (α × World)) : Prop :=
  ∃ o w', x = some (o, w') ∧ Records ⟨l.book ++ new, l.calls ++ called⟩ w' ∧ Later w new w' ∧
    w'.registries.length ≤ n

namespace Keeps

variable {α β : Type} {x : Option (α × World)}

theorem same (h : l.Records w) (o : α) : Keeps l w [] [] w.registries.length (some (o, w)) :=
  ⟨o, w, rfl, by simpa using h, .refl, Nat.le_refl _⟩

theorem map (h : Keeps l w new called n x) (f : α → β) :
    Keeps l w new called n (do let (o, w) ← x; return (f o, w)) := by
  obtain ⟨o, w', rfl, hkeeps⟩ := h
  exact ⟨f o, w', rfl, hkeeps⟩

theorem mono (h : Keeps l w new called n x) (hle : n ≤ m) : Keeps l w new called m x := by
  obtain ⟨o, w', hx, hrecords, hlater, hlength⟩ := h
  exact ⟨o, w', hx, hrecords, hlater, hlength.trans hle⟩

theorem after (h : Keeps l w' new called n x) (hlater : Later w [] w')
    (hlate : ∀ p ∈ new, w'.open? p.1 = none → w.open? p.1 = none) :
    Keeps l w new called n x := by
  obtain ⟨o, w'', hx, hrecords, hlater', hlength⟩ := h
  exact ⟨o, w'', hx, hrecords, hlater.trans hlater' hlate, hlength⟩

end Keeps

namespace Records

/-- What a step adds to the log. -/
theorem events {events : List Event}
    (h : l.Records w) (h' : Records ⟨l.book ++ new, l.calls ++ called⟩ w')
    (hlater : Later w new w') (hnew : ∀ p ∈ new, p.1 < w.registries.length)
    (hlog : w'.log = w.log ++ events) :
    events.Perm (closings (w.released w' l.book ++ w.settled new)) := by
  have hafter := h'.log.trans (closings_perm (hlater.settled h.ids hnew))
  rw [hlog, closings_append] at hafter
  exact (List.perm_append_left_iff _).1 (hafter.trans (h.log.symm.append_right _))

/-! ## Steps -/

theorem register (h : l.Records w) (hfits : Fits w (id, r)) (hfuel : w.registries.length < fuel) :
    Keeps l w [(id, r)] [] w.registries.length
      (Lifecycle.register (closeResource fuel) id r w) := by
  cases hopen : w.open? id with
  | some rs =>
    have hset (j : RegistryId) := open?_setResources (j := j) hopen (some (rs ++ [r]))
    have hrecords := h.of_open hopen hfits
    rw [Lifecycle.register, hopen]
    refine ⟨_, _, rfl, by simpa using hrecords, ?_, by simp⟩
    constructor
    case length => simp
    case log => exact ⟨[], by simp [setResources]⟩
    case stays =>
      intro j _ hclosed
      have hj : j ≠ id := by
        rintro rfl
        simp [hopen] at hclosed
      rw [hset, if_neg hj, hclosed]
    case late =>
      intro p hp hclosed
      cases List.mem_singleton.1 hp
      simp [hset] at hclosed
  | none =>
    obtain ⟨o, w', hrun, hcloses⟩ := closeResource_closes h.quiet fuel r w hfits.quiet h.holds
      (w.card_openIds_le.trans_lt hfuel)
    have hlate : ∀ p ∈ [(id, r)], w.open? p.1 = none := fun p hp =>
      List.mem_singleton.1 hp ▸ hopen
    have hrecords : Records ⟨l.book ++ [(id, r)], l.calls ++ []⟩ w' :=
      h.of_closes hcloses
        { fits := fun p hp => List.mem_singleton.1 hp ▸ hfits
          late := hlate
          inRange := by simp
          callbacks := rfl
          registries := by simp [eq_comm] }
    rw [Lifecycle.register, hopen]
    exact ⟨o, w', hrun, hrecords, .of_closes hcloses hlate, hcloses.length.le⟩

theorem registerIn (h : l.Records w) (into : String) (hquiet : r.Quiet)
    (hchild : ∀ j, r = .registry j → j < w.registries.length)
    (hfuel : w.registries.length < fuel) :
    Keeps l w ((w.handles.get? into).map (·, r)).toList [] w.registries.length
      (Lifecycle.registerIn (closeResource fuel) into r w) := by
  rw [Lifecycle.registerIn]
  cases hinto : w.handles.get? into with
  | none => exact .same h _
  | some id => exact (h.register ⟨hquiet, h.handles into id hinto, hchild⟩ hfuel).map _

theorem closeRegistry (h : l.Records w) (hid : id < w.registries.length)
    (hfuel : w.registries.length < fuel) :
    Keeps l w [] [id] w.registries.length
      (Lifecycle.closeRegistry (closeResource fuel) id w) := by
  have hcard := w.card_openIds_le.trans_lt hfuel
  obtain ⟨o, w', hrun, hcloses⟩ := closeRegistry_closes (closeResource_closes h.quiet fuel) h.quiet
    h.holds (Nat.lt_succ_of_lt hcard) id
  have hrecords : Records ⟨l.book ++ [], l.calls ++ [id]⟩ w' :=
    h.of_closes hcloses
      { fits := by simp
        late := by simp
        inRange := fun j hj => List.mem_singleton.1 hj ▸ hid
        callbacks := rfl
        registries := by simp }
  exact ⟨o, w', hrun, hrecords, .of_closes hcloses (by simp), hcloses.length.le⟩

/-- **A step ends and keeps the ledger.** -/
theorem step (h : l.Records w) {s : Step} (hs : s.Quiet) (hfuel : w.registries.length + 1 < fuel) :
    Keeps l w (w.booking? s).toList (w.call? s).toList (w.registries.length + 1)
      (w.step fuel s) := by
  have hless : w.registries.length < fuel := Nat.lt_of_succ_lt hfuel
  have hle : w.registries.length ≤ w.registries.length + 1 := Nat.le_succ _
  cases s with
  | create as name =>
    exact ⟨_, _, rfl, by simpa [booking?, call?] using h.create as name, .create w as name,
      by simp⟩
  | child parent as name =>
    rw [World.step, runStep, booking?]
    cases hparent : w.handles.get? parent with
    | none => exact (Keeps.same h _).mono hle
    | some id =>
      have hid := h.handles parent id hparent
      have hfits : Fits (w.create as name) (id, .registry w.registries.length) :=
        ⟨trivial, by simpa using Nat.lt_succ_of_lt hid, fun j hj => by cases hj; simp⟩
      have hregister := (h.create as name).register hfits (by simpa using hfuel)
      rw [length_create] at hregister
      refine (hregister.map _).after (.create w as name) fun p hp hclosed => ?_
      cases List.mem_singleton.1 hp
      rwa [open?_create, if_neg (Nat.ne_of_lt hid)] at hclosed
  | register into name script error keepAs =>
    obtain rfl : script = [] := hs
    cases keepAs with
    | none => exact (h.registerIn into (r := .callback ⟨name, [], error⟩) rfl nofun hless).mono hle
    | some k =>
      have hkeep := h.keep k (c := ⟨name, [], error⟩) rfl
      have hregister := hkeep.registerIn into (r := .callback ⟨name, [], error⟩) rfl nofun hless
      exact (hregister.after (.keep w k _) fun _ _ h => h).mono hle
  | again into kept =>
    rw [World.step, runStep, booking?]
    cases hkept : w.kept.get? kept with
    | none => exact (Keeps.same h _).mono hle
    | some c =>
      exact (h.registerIn into (r := .callback c) (h.kept kept c hkept) nofun hless).mono hle
  | adopt into registry =>
    rw [World.step, runStep, booking?]
    cases hregistry : w.handles.get? registry with
    | none => exact (Keeps.same h _).mono hle
    | some id =>
      have hchild (j : RegistryId) (hj : Resource.registry id = .registry j) :
          j < w.registries.length := by
        cases hj
        exact h.handles registry id hregistry
      exact (h.registerIn into (r := .registry id) trivial hchild hless).mono hle
  | close registry =>
    rw [World.step, runStep, call?]
    cases hregistry : w.handles.get? registry with
    | none => exact (Keeps.same h _).mono hle
    | some id =>
      exact ((h.closeRegistry (h.handles registry id hregistry) hless).map _).mono hle
  | closeNamed registry =>
    rw [World.step, runStep, call?]
    cases hregistry : w.handles.get? registry with
    | none => exact (Keeps.same h _).mono hle
    | some id =>
      exact ((h.closeRegistry (h.handles registry id hregistry) hless).map _).mono hle

theorem booking?_lt (h : l.Records w) {s : Step} {p : Registration}
    (hp : w.booking? s = some p) : p.1 < w.registries.length := by
  have hmap {into : String} {r : Resource}
      (hp : (w.handles.get? into).map (·, r) = some p) : p.1 < w.registries.length := by
    obtain ⟨id, hid, rfl⟩ := Option.map_eq_some_iff.1 hp
    exact h.handles into id hid
  cases s with
  | child | register => exact hmap hp
  | again | adopt =>
    obtain ⟨_, -, hp⟩ := Option.bind_eq_some_iff.1 hp
    exact hmap hp
  | create | close | closeNamed => cases hp

theorem run (h : l.Records w) {steps : List Step} (hquiet : ∀ s ∈ steps, s.Quiet)
    (hfuel : w.registries.length + steps.length < fuel) :
    ∃ l' w', World.run fuel steps l w = some (l', w') ∧ l'.Records w' ∧
      w'.registries.length ≤ w.registries.length + steps.length := by
  induction steps generalizing l w with
  | nil => exact ⟨l, w, rfl, h, by simp⟩
  | cons s steps ih =>
    rw [List.length_cons] at hfuel
    have hless : w.registries.length + 1 < fuel := by omega
    obtain ⟨res, w₁, hstep, h₁, -, hlength⟩ := h.step (hquiet s List.mem_cons_self) hless
    obtain ⟨l', w', hrun, h', hlength'⟩ :=
      ih h₁ (fun s hs => hquiet s (List.mem_cons_of_mem _ hs)) (by omega)
    refine ⟨l', w', by simp only [World.run, hstep]; exact hrun, h', ?_⟩
    rw [List.length_cons]
    omega

end Records

end Ledger

/-- The outcome of a step that closes or registers something. -/
def Result.outcome? : Result → Option CloseOutcome
  | .outcome o | .named _ o => some o
  | .unknown _ => none

namespace World

variable {w : World} {s : Step} {id : RegistryId} {fuel : Nat}

/-- To close a registry again does nothing and succeeds. -/
theorem step_of_closed (hcall : w.call? s = some id) (hclosed : w.open? id = none) :
    ∃ res, w.step fuel s = some (res, w) ∧ res.outcome? = some (.ok ()) := by
  have hagain : closeRegistry (closeResource fuel) id w = some (.ok (), w) :=
    closeRegistry_closed hclosed
  cases s with
  | close registry =>
    have hget : w.handles.get? registry = some id := hcall
    exact ⟨.outcome (.ok ()), by simp [World.step, runStep, hget, hagain], rfl⟩
  | closeNamed registry =>
    have hget : w.handles.get? registry = some id := hcall
    exact ⟨.named _ (.ok ()), by simp only [World.step, runStep, hget, hagain]; rfl, rfl⟩
  | _ => cases hcall

/-- **Each registration is closed exactly once.** However registries are registered in one
another, a run of steps ends with each callback in the log as often as it was registered in
registries that are closed, and those are the registries that some call to close led to. Every
further step ends too: it invokes what is booked for the registries that it closes and what it
registers in a closed one. To close a closed registry again does nothing and succeeds, in a step
as within another close. -/
theorem run_exactly_once (steps : List Step) (hquiet : ∀ s ∈ steps, s.Quiet) (fuel : Nat)
    (hfuel : steps.length + 1 < fuel) :
    (∃ l w, run fuel steps ⟨[], []⟩ empty = some (l, w) ∧
      w.log.Perm (closings (w.settled l.book)) ∧
      (∀ id < w.registries.length, w.open? id = none ↔ l.Closed id) ∧
      ∀ s : Step, s.Quiet → ∃ res w', w.step fuel s = some (res, w') ∧
        (∃ events, w'.log = w.log ++ events ∧
          events.Perm (closings (w.released w' l.book ++ w.settled (w.booking? s).toList))) ∧
        ∀ id, w.call? s = some id → w'.open? id = none ∧
          (w.open? id = none → w' = w ∧ res.outcome? = some (.ok ()))) ∧
      ∀ (depth : Nat) (id : RegistryId) (w : World), w.open? id = none →
        closeResource (depth + 1) (.registry id) w = some (.ok (), w) := by
  refine ⟨?_, fun depth id w hclosed => closeRegistry_closed hclosed⟩
  obtain ⟨l, w, hrun, h, hlength⟩ :=
    Ledger.records_empty.run hquiet (Nat.lt_of_succ_lt (by simpa [empty] using hfuel))
  refine ⟨l, w, hrun, h.log, h.closed, fun s hs => ?_⟩
  have hless : w.registries.length + 1 < fuel := by
    simp only [empty, List.length_nil] at hlength
    omega
  obtain ⟨res, w', hstep, h', hlater, -⟩ := h.step hs hless
  refine ⟨res, w', hstep, ?_, fun id hcall => ⟨?_, fun hclosed => ?_⟩⟩
  · obtain ⟨events, hlog⟩ := hlater.log
    refine ⟨events, hlog, h.events h' hlater (fun p hp => ?_) hlog⟩
    exact h.booking?_lt (Option.mem_toList.1 hp)
  · exact h'.open?_of_closed (.start (by simp [hcall]))
  · have hagain : ∃ res, w.step fuel s = some (res, w) ∧ res.outcome? = some (.ok ()) :=
      step_of_closed hcall hclosed
    rw [hstep] at hagain
    obtain ⟨res', heq, hok⟩ := hagain
    cases heq
    exact ⟨rfl, hok⟩

/-- Two registries that hold each other, one of them itself too, and a callback that is registered
in both and once more when they are closed. -/
def knot : List Step :=
  [.create "a" "A", .child "a" "b" "B", .adopt "b" "a", .adopt "a" "a",
    .register "b" "leaf" [] (some (.failed "leaf" "boom")) (some "kept"), .again "a" "kept",
    .close "b", .again "b" "kept"]

theorem run_exactly_once_knot : (∀ s ∈ knot, s.Quiet) ∧ knot.length + 1 < 10 ∧
    ∃ l w, run 10 knot ⟨[], []⟩ empty = some (l, w) ∧
      w.log = [.closing "leaf", .closing "leaf", .closing "leaf"] ∧
      w.log.Perm (closings (w.settled l.book)) ∧ l.Closed 0 := by
  have hquiet : ∀ s ∈ knot, s.Quiet := by simp [knot, Step.Quiet]
  have hfuel : knot.length + 1 < 10 := by decide
  obtain ⟨⟨l, w, hrun, hlog, hclosed, -⟩, -⟩ := run_exactly_once knot hquiet 10 hfuel
  have hleaf : (run 10 knot ⟨[], []⟩ empty).map (fun r => (r.2.log, r.2.open? 0)) =
      some ([.closing "leaf", .closing "leaf", .closing "leaf"], none) := by rfl
  have hlength : (run 10 knot ⟨[], []⟩ empty).map (·.2.registries.length) = some 2 := by decide
  rw [hrun] at hleaf hlength
  obtain ⟨hleaves, hopen⟩ := Prod.mk.inj (Option.some.inj hleaf)
  have hzero : 0 < w.registries.length := by simp [Option.some.inj hlength]
  exact ⟨hquiet, hfuel, l, w, hrun, hleaves, hlog, (hclosed 0 hzero).1 hopen⟩

end World

end Wiring.Lifecycle
