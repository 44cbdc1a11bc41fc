import Wiring.Proofs.Lifecycle.Registrations
/-!
# What closing does

Closes of callbacks that make no calls change a world in one way only: open registries become
closed. `Closes` says which do and what the log gains for it. A registry is closed before the
resources in it are, so that every nested close leaves fewer registries open, and a depth of as
many closes as there are open registries is enough, cycles or not.
-/

namespace Wiring.Lifecycle

/-- Closing the resources `due` takes the world `w` to `w'`. -/
structure Closes (book : List Registration) (due : List Resource) (w w' : World) : Prop where
  handles : w'.handles = w.handles
  kept : w'.kept = w.kept
  length : w'.registries.length = w.registries.length
  shrinks : ∀ {id rs}, w'.open? id = some rs → w.open? id = some rs
  /-- The log gains each callback due and each that stopped to wait, once. -/
  log : ∃ events, w'.log = w.log ++ events ∧
    (events ++ closings (w'.waiting book)).Perm (closings due ++ closings (w.waiting book))
  marks : ∀ {id}, .registry id ∈ due → w'.open? id = none
  /-- Registries booked for one that closes are closed too. -/
  passes : ∀ {parent id}, (parent, .registry id) ∈ book → (w.open? parent).isSome →
    w'.open? parent = none → w'.open? id = none
  /-- Nothing else is closed. -/
  reached : ∀ {id}, (w.open? id).isSome → w'.open? id = none →
    Reached book (fun j => .registry j ∈ due) id

namespace Closes

variable {book : List Registration} {due more : List Resource} {w w' w'' : World}
  {id : RegistryId} {rs : List Resource}

theorem closed_of_closed (h : Closes book due w w') (hid : w.open? id = none) :
    w'.open? id = none := by
  cases hopen : w'.open? id with
  | none => rfl
  | some rs => exact absurd ((h.shrinks hopen).symm.trans hid) (by simp)

theorem holds (h : Closes book due w w') (hw : w.Holds book) : w'.Holds book :=
  fun id rs hopen => hw id rs (h.shrinks hopen)

theorem card_le (h : Closes book due w w') : w'.openIds.card ≤ w.openIds.card := by
  refine Finset.card_le_card fun id hid => ?_
  obtain ⟨rs, hrs⟩ := Option.isSome_iff_exists.1 (World.mem_openIds.1 hid)
  exact World.mem_openIds.2 (by simp [h.shrinks hrs])

theorem refl (hclosed : ∀ id, .registry id ∈ due → w.open? id = none)
    (hnone : closings due = []) : Closes book due w w where
  handles := rfl
  kept := rfl
  length := rfl
  shrinks := id
  log := ⟨[], by simp, by simp [hnone]⟩
  marks := hclosed _
  passes := fun _ hopen hclosed => by simp [hclosed] at hopen
  reached := fun hopen hclosed => by simp [hclosed] at hopen

theorem trans (h : Closes book due w w') (h' : Closes book more w' w'') :
    Closes book (due ++ more) w w'' where
  handles := h'.handles.trans h.handles
  kept := h'.kept.trans h.kept
  length := h'.length.trans h.length
  shrinks := fun hopen => h.shrinks (h'.shrinks hopen)
  log := by
    obtain ⟨events, hlog, hperm⟩ := h.log
    obtain ⟨events', hlog', hperm'⟩ := h'.log
    refine ⟨events ++ events', by rw [hlog', hlog, List.append_assoc], ?_⟩
    rw [closings_append, List.append_assoc]
    refine (hperm'.append_left events).trans ?_
    refine List.perm_append_comm_assoc _ _ _ |>.trans ?_
    refine (hperm.append_left (closings more)).trans ?_
    rw [List.append_assoc]
    exact List.perm_append_comm_assoc _ _ _
  marks := fun hid => (List.mem_append.1 hid).elim
    (fun hdue => h'.closed_of_closed (h.marks hdue)) h'.marks
  passes := fun {parent id} hbook hopen hclosed => by
    cases hparent : w'.open? parent with
    | none => exact h'.closed_of_closed (h.passes hbook hopen hparent)
    | some rs => exact h'.passes hbook (by simp [hparent]) hclosed
  reached := fun {id} hopen hclosed => by
    cases hid : w'.open? id with
    | none =>
      exact (h.reached hopen hid).mono (fun _ h => h) fun _ hj => List.mem_append_left _ hj
    | some rs =>
      exact (h'.reached (by simp [hid]) hclosed).mono (fun _ h => h)
        fun _ hj => List.mem_append_right _ hj

/-- A callback without a script only leaves its mark in the log. -/
theorem callback (c : Callback) : Closes book [.callback c] w (w.record (.closing c.name)) where
  handles := rfl
  kept := rfl
  length := rfl
  shrinks := id
  log := ⟨[.closing c.name], rfl, .rfl⟩
  marks := fun h => by simp at h
  passes := fun _ hopen hclosed => absurd hclosed (by simpa using Option.isSome_iff_ne_none.1 hopen)
  reached := fun hopen hclosed => absurd hclosed (by simpa using Option.isSome_iff_ne_none.1 hopen)

/-- What was in a registry is due once the registry itself is marked closed. -/
theorem of_setResources (hw : w.Holds book) (hopen : w.open? id = some rs)
    (h : Closes book rs.reverse (w.setResources id none) w') :
    Closes book [.registry id] w w' := by
  have hset (j : RegistryId) := World.open?_setResources (j := j) hopen none
  have hself : w'.open? id = none := h.closed_of_closed (by simp [hset])
  have hin {j : RegistryId} (hj : (id, .registry j) ∈ book) : .registry j ∈ rs.reverse :=
    List.mem_reverse.2 ((hw.mem hopen).2 hj)
  constructor
  case handles => exact h.handles
  case kept => exact h.kept
  case length => simpa using h.length
  case shrinks =>
    intro j rs' hj
    have hj' := h.shrinks hj
    rw [hset] at hj'
    split at hj'
    · cases hj'
    · exact hj'
  case log =>
    obtain ⟨events, hlog, hperm⟩ := h.log
    refine ⟨events, hlog, hperm.trans ?_⟩
    rw [← closings_append, closings_registry, List.nil_append]
    refine closings_perm (List.Perm.trans ?_ (hw.waiting_setResources hopen).symm)
    exact (List.reverse_perm rs).append_right _
  case marks =>
    intro j hj
    obtain rfl : j = id := by simpa using hj
    exact hself
  case passes =>
    intro parent j hbook hparent hclosed
    by_cases hp : parent = id
    · subst hp
      exact h.marks (hin hbook)
    · exact h.passes hbook (by simpa [hset, hp] using hparent) hclosed
  case reached =>
    intro j hj hclosed
    have hroot : Reached book (fun k => .registry k ∈ [Resource.registry id]) id :=
      .start List.mem_cons_self
    by_cases hji : j = id
    · exact hji ▸ hroot
    · refine (h.reached (by simpa [hset, hji] using hj) hclosed).trans (fun _ h => h) fun k hk => ?_
      exact .through ((hw.mem hopen).1 (List.mem_reverse.1 hk)) hroot

end Closes

/-- A closer that copes with worlds in which fewer than `bound` registries are open. -/
def Closer.Sound (close : Closer) (book : List Registration) (bound : Nat) : Prop :=
  ∀ r w, r.Quiet → w.Holds book → w.openIds.card < bound →
    ∃ o w', close r w = some (o, w') ∧ Closes book [r] w w'

variable {close : Closer} {book : List Registration} {bound : Nat} {w : World}

theorem closeEach_closes (hclose : close.Sound book bound) {rs : List Resource}
    (hquiet : ∀ r ∈ rs, r.Quiet) (hw : w.Holds book) (hcard : w.openIds.card < bound) :
    ∃ errors w', closeEach close rs w = some (errors, w') ∧ Closes book rs w w' := by
  induction rs generalizing w with
  | nil => exact ⟨[], w, rfl, .refl (fun _ h => by cases h) rfl⟩
  | cons r rs ih =>
    obtain ⟨o, w₁, hr, h₁⟩ := hclose r w (hquiet r List.mem_cons_self) hw hcard
    obtain ⟨errors, w₂, hrs, h₂⟩ := ih (fun r hr => hquiet r (List.mem_cons_of_mem _ hr))
      (h₁.holds hw) (h₁.card_le.trans_lt hcard)
    have h := h₁.trans h₂
    cases o with
    | ok => exact ⟨errors, w₂, by simp [closeEach, hr, hrs], h⟩
    | error e => exact ⟨e :: errors, w₂, by simp [closeEach, hr, hrs], h⟩

theorem closeRegistry_closed {id : RegistryId} (h : w.open? id = none) :
    closeRegistry close id w = some (.ok (), w) := by
  simp [closeRegistry, h]

theorem closeRegistry_closes (hclose : close.Sound book bound) (hquiet : ∀ p ∈ book, p.2.Quiet)
    (hw : w.Holds book) (hcard : w.openIds.card < bound + 1) (id : RegistryId) :
    ∃ o w', closeRegistry close id w = some (o, w') ∧ Closes book [.registry id] w w' := by
  cases hopen : w.open? id with
  | none =>
    refine ⟨.ok (), w, closeRegistry_closed hopen, .refl (fun j hj => ?_) rfl⟩
    obtain rfl : j = id := by simpa using hj
    exact hopen
  | some rs =>
    have hless := World.card_openIds_setResources hopen
    have hholds : (w.setResources id none).Holds book := by
      intro j rs' hj
      rw [World.open?_setResources hopen] at hj
      split at hj
      · cases hj
      · exact hw j rs' hj
    have hrs : ∀ r ∈ rs.reverse, r.Quiet := fun r hr =>
      hquiet _ ((hw.mem hopen).1 (List.mem_reverse.1 hr))
    obtain ⟨errors, w', hrun, h⟩ := closeEach_closes hclose hrs hholds (by omega)
    exact ⟨CloseError.outcome errors, w', by simp [closeRegistry, hopen, hrun],
      .of_setResources hw hopen h⟩

/-- **Closing ends.** A resource is closed with a depth greater than the number of registries that
are open, and then only what is reached from it has been closed. -/
theorem closeResource_closes (hquiet : ∀ p ∈ book, p.2.Quiet) (fuel : Nat) :
    Closer.Sound (closeResource fuel) book fuel := by
  induction fuel with
  | zero => exact fun _ _ _ _ hcard => absurd hcard (Nat.not_lt_zero _)
  | succ fuel ih =>
    intro r w hr hw hcard
    cases r with
    | registry id => exact closeRegistry_closes ih hquiet hw hcard id
    | callback c =>
      obtain ⟨name, script, error⟩ := c
      obtain rfl : script = [] := hr
      exact ⟨_, _, rfl, Closes.callback ⟨name, [], error⟩⟩

end Wiring.Lifecycle
