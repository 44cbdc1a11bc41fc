import Wiring.Proofs.Lifecycle.Registrations
/-!
# Closing a tree of registries

Each registry of a tree collects the failures of its parts and hands them up as one, where they are
taken apart and collected again. Collecting loses nothing on the way (`leavesList_collect`), so that
closing the root comes to what collecting the failures of all callbacks at once comes to, in the
order in which they are invoked (`closeRegistry_tree`). `Closed` says what closing several trees has
done; it is put together from what closing each of them does.
-/

namespace Wiring

/-! ## Collecting failures -/

namespace CloseError

variable {e : CloseError} {es fs : List CloseError}

theorem leavesList_append (es fs : List CloseError) :
    leavesList (es ++ fs) = leavesList es ++ leavesList fs := by
  induction es with
  | nil => rfl
  | cons e es ih => rw [List.cons_append, leavesList, leavesList, ih, List.append_assoc]

/-- The failure is a single one. -/
def IsSingle (e : CloseError) : Prop := ∃ name message, e = .failed name message

mutual

theorem isSingle_of_mem_leaves : ∀ (e : CloseError), ∀ f ∈ e.leaves, f.IsSingle
  | .failed name message, _, hf => ⟨name, message, List.mem_singleton.1 hf⟩
  | .aggregate first suppressed, f, hf =>
    (List.mem_append.1 hf).elim (isSingle_of_mem_leaves first f)
      (isSingle_of_mem_leavesList suppressed f)

theorem isSingle_of_mem_leavesList : ∀ (es : List CloseError), ∀ f ∈ leavesList es, f.IsSingle
  | e :: es, f, hf =>
    (List.mem_append.1 hf).elim (isSingle_of_mem_leaves e f) (isSingle_of_mem_leavesList es f)

end

theorem leaves_ne_nil : ∀ e : CloseError, e.leaves ≠ []
  | .failed _ _ => List.cons_ne_nil _ _
  | .aggregate first _ => List.append_ne_nil_of_left_ne_nil (leaves_ne_nil first) _

theorem leavesList_eq_nil_iff : leavesList es = [] ↔ es = [] := by
  cases es with
  | nil => exact ⟨fun _ => rfl, fun _ => rfl⟩
  | cons e es => simp [leavesList, leaves_ne_nil]

/-- Single failures are taken no further apart. -/
theorem leavesList_of_isSingle (h : ∀ e ∈ es, e.IsSingle) : leavesList es = es := by
  induction es with
  | nil => rfl
  | cons e es ih =>
    obtain ⟨⟨name, message, rfl⟩, hes⟩ := List.forall_mem_cons.1 h
    rw [leavesList, ih hes]
    rfl

/-- What is collected shows every single failure. -/
theorem failures_collect (h : collect es = some e) : e.failures = leavesList es := by
  have hsingle := isSingle_of_mem_leavesList es
  unfold collect at h
  split at h
  · cases h
  · rename_i f heq
    obtain ⟨name, message, rfl⟩ := hsingle f (by simp [heq])
    cases h
    exact heq.symm
  · rename_i f fs _ heq
    cases h
    exact heq.symm

/-- Collecting loses no failure, adds none and keeps their order. -/
theorem leavesList_collect (es : List CloseError) :
    leavesList (collect es).toList = leavesList es := by
  have hleaves := leavesList_of_isSingle (isSingle_of_mem_leavesList es)
  unfold collect
  split
  · rename_i heq
    rw [heq]
    rfl
  · rename_i f heq
    rw [heq] at hleaves ⊢
    exact hleaves
  · rename_i f fs _ heq
    rw [heq] at hleaves ⊢
    simpa [leavesList, leaves] using hleaves

/-- The failure a close came to, if there was one. -/
def ofOutcome : CloseOutcome → List CloseError
  | .ok () => []
  | .error e => [e]

theorem ofOutcome_outcome (es : List CloseError) :
    ofOutcome (outcome es) = (collect es).toList := by
  unfold outcome
  cases collect es <;> rfl

theorem outcome_congr (h : leavesList es = leavesList fs) : outcome es = outcome fs := by
  rw [outcome, outcome, collect, collect, h]

theorem outcome_eq_ok_iff : outcome es = .ok () ↔ es = [] := by
  rw [← leavesList_eq_nil_iff, outcome, collect]
  cases leavesList es with
  | nil => simp
  | cons f fs => cases fs <;> simp

theorem failures_of_outcome (h : outcome es = .error e) : e.failures = leavesList es := by
  refine failures_collect ?_
  unfold outcome at h
  split at h
  · cases h
  · rename_i heq
    cases h
    exact heq

end CloseError

namespace Lifecycle

open CloseError (leavesList ofOutcome)

/-! ## Trees -/

/-- A callback that makes no calls, with what it fails with; or a registry with what was registered
in it, the earliest first. -/
inductive Tree where
  | leaf (name : String) (error : Option CloseError)
  | registry (id : RegistryId) (parts : List Tree)

namespace Tree

def resource : Tree → Resource
  | .leaf name error => .callback ⟨name, [], error⟩
  | .registry id _ => .registry id

mutual

/-- The callbacks of the tree, depth first and the latest registration first. -/
def callbacks : Tree → List Callback
  | .leaf name error => [⟨name, [], error⟩]
  | .registry _ parts => callbacksOf parts

def callbacksOf : List Tree → List Callback
  | [] => []
  | t :: ts => callbacksOf ts ++ t.callbacks

end

mutual

/-- The registries of the tree. -/
def ids : Tree → List RegistryId
  | .leaf _ _ => []
  | .registry id parts => id :: idsOf parts

def idsOf : List Tree → List RegistryId
  | [] => []
  | t :: ts => t.ids ++ idsOf ts

end

/-- What the callbacks fail with, in the order in which they are invoked. -/
def errors (t : Tree) : List CloseError := t.callbacks.filterMap (·.error)

theorem callbacks_registry (id : RegistryId) (parts : List Tree) :
    (registry id parts).callbacks = parts.reverse.flatMap callbacks := by
  rw [callbacks]
  induction parts with
  | nil => rfl
  | cons t ts ih => rw [callbacksOf, ih]; simp

theorem errors_registry (id : RegistryId) (parts : List Tree) :
    (registry id parts).errors = parts.reverse.flatMap errors := by
  rw [errors, callbacks_registry, List.filterMap_flatMap]
  rfl

theorem ids_registry (id : RegistryId) (parts : List Tree) :
    (registry id parts).ids = id :: parts.flatMap ids := by
  rw [ids]
  congr 1
  induction parts with
  | nil => rfl
  | cons t ts ih => rw [idsOf, ih, List.flatMap_cons]

/-- The registries of the tree are open and hold just what they hold in the tree. -/
inductive Stands (w : World) : Tree → Prop
  | leaf {name : String} {error : Option CloseError} : Stands w (.leaf name error)
  | registry {id : RegistryId} {parts : List Tree}
      (hopen : w.open? id = some (parts.map resource)) (hparts : ∀ t ∈ parts, Stands w t) :
      Stands w (.registry id parts)

variable {w w' : World} {t : Tree}

/-- Nothing matters to a tree but its own registries. -/
theorem Stands.congr (h : Stands w t) (hsame : ∀ id ∈ t.ids, w'.open? id = w.open? id) :
    Stands w' t := by
  induction h with
  | leaf => exact .leaf
  | @registry id parts hopen _ ih =>
    rw [ids_registry] at hsame
    refine .registry ((hsame id List.mem_cons_self).trans hopen) fun t ht => ih t ht fun j hj => ?_
    exact hsame j (List.mem_cons_of_mem _ (List.mem_flatMap.2 ⟨t, ht, hj⟩))

end Tree

/-! ## What closing trees has done -/

/-- Closing the trees, one after the other, has taken `w` to `w'` and come to `errors`. -/
structure Closed (ts : List Tree) (errors : List CloseError) (w w' : World) : Prop where
  errors : leavesList errors = leavesList (ts.flatMap Tree.errors)
  log : w'.log = w.log ++ (ts.flatMap Tree.callbacks).map fun c => .closing c.name
  opens : ∀ id, w'.open? id = if id ∈ ts.flatMap Tree.ids then none else w.open? id

namespace Closed

variable {ts us : List Tree} {es fs : List CloseError} {w w' w'' : World}

theorem nil (w : World) : Closed [] [] w w := ⟨rfl, by simp, by simp⟩

theorem append (h : Closed ts es w w') (h' : Closed us fs w' w'') :
    Closed (ts ++ us) (es ++ fs) w w'' where
  errors := by
    rw [List.flatMap_append, CloseError.leavesList_append, CloseError.leavesList_append, h.errors,
      h'.errors]
  log := by
    rw [List.flatMap_append, List.map_append, h'.log, h.log, List.append_assoc]
  opens := fun id => by
    rw [List.flatMap_append, h'.opens, h.opens]
    by_cases hts : id ∈ ts.flatMap Tree.ids <;> by_cases hus : id ∈ us.flatMap Tree.ids <;>
      simp [hts, hus]

theorem leaf (name : String) (error : Option CloseError) (w : World) :
    Closed [.leaf name error] error.toList w (w.record (.closing name)) where
  errors := by cases error <;> simp [Tree.errors, Tree.callbacks]
  log := rfl
  opens := fun id => by simp [Tree.ids]

/-- A registry is marked closed and then closes its parts, the latest first; the failures it
collects are those of its parts. -/
theorem registry {id : RegistryId} {parts : List Tree} {rs : List Resource}
    (hopen : w.open? id = some rs) (h : Closed parts.reverse es (w.setResources id none) w') :
    Closed [.registry id parts] (ofOutcome (CloseError.outcome es)) w w' where
  errors := by
    rw [CloseError.ofOutcome_outcome, CloseError.leavesList_collect, h.errors,
      List.flatMap_singleton, Tree.errors_registry]
  log := by
    rw [h.log, List.flatMap_singleton, Tree.callbacks_registry]
    rfl
  opens := fun j => by
    rw [h.opens, World.open?_setResources hopen, List.flatMap_singleton, Tree.ids_registry]
    by_cases hj : j = id <;> simp [hj]

end Closed

/-- The closer copes with standing trees of less than `bound` registries. -/
def Closer.ClosesTrees (close : Closer) (bound : Nat) : Prop :=
  ∀ (t : Tree) (w : World), t.Stands w → t.ids.Nodup → t.ids.length < bound →
    ∃ o w', close t.resource w = some (o, w') ∧ Closed [t] (ofOutcome o) w w'

variable {close : Closer} {bound : Nat}

theorem closeEach_trees (hclose : close.ClosesTrees bound) (ts : List Tree) :
    ∀ w : World, (∀ t ∈ ts, t.Stands w) → (ts.flatMap Tree.ids).Nodup →
      (ts.flatMap Tree.ids).length < bound →
      ∃ es w', closeEach close (ts.map Tree.resource) w = some (es, w') ∧ Closed ts es w w' := by
  induction ts with
  | nil => exact fun w _ _ _ => ⟨[], w, rfl, .nil w⟩
  | cons t ts ih =>
    intro w hstands hids hlength
    obtain ⟨ht, hts⟩ := List.forall_mem_cons.1 hstands
    rw [List.flatMap_cons] at hids hlength
    rw [List.length_append] at hlength
    obtain ⟨hnodup, hnodups, hdisjoint⟩ := List.nodup_append.1 hids
    obtain ⟨o, w₁, hrun, h₁⟩ := hclose t w ht hnodup (by omega)
    -- The trees behind `t` share no registry with it, so they stand as before.
    have hstill : ∀ u ∈ ts, u.Stands w₁ := fun u hu => (hts u hu).congr fun id hid => by
      have hnot : id ∉ t.ids := fun hmem =>
        hdisjoint id hmem id (List.mem_flatMap.2 ⟨u, hu, hid⟩) rfl
      simp [h₁.opens, hnot]
    obtain ⟨es, w₂, hruns, h₂⟩ := ih w₁ hstill hnodups (by omega)
    refine ⟨ofOutcome o ++ es, w₂, ?_, h₁.append h₂⟩
    cases o <;> simp [closeEach, hrun, hruns, ofOutcome]

theorem closeRegistry_closed_tree (hclose : close.ClosesTrees bound) {id : RegistryId}
    {parts : List Tree} {w : World} (hstands : (Tree.registry id parts).Stands w)
    (hids : (Tree.registry id parts).ids.Nodup)
    (hlength : (Tree.registry id parts).ids.length ≤ bound) :
    ∃ es w', closeRegistry close id w = some (CloseError.outcome es, w') ∧
      Closed [.registry id parts] (ofOutcome (CloseError.outcome es)) w w' := by
  cases hstands with
  | registry hopen hparts =>
    rw [Tree.ids_registry] at hids hlength
    obtain ⟨hid, hnodup⟩ := List.nodup_cons.1 hids
    have hstill : ∀ t ∈ parts.reverse, t.Stands (w.setResources id none) := fun t ht => by
      have ht := List.mem_reverse.1 ht
      refine (hparts t ht).congr fun j hj => ?_
      have hne : j ≠ id := by
        rintro rfl
        exact hid (List.mem_flatMap.2 ⟨t, ht, hj⟩)
      rw [World.open?_setResources hopen, if_neg hne]
    have hperm : (parts.reverse.flatMap Tree.ids).Perm (parts.flatMap Tree.ids) :=
      (List.reverse_perm parts).flatMap_right _
    obtain ⟨es, w', hrun, h⟩ := closeEach_trees hclose parts.reverse _ hstill
      (hperm.nodup_iff.2 hnodup) (by rw [hperm.length_eq]; exact hlength)
    refine ⟨es, w', ?_, h.registry hopen⟩
    rw [List.map_reverse] at hrun
    simp [closeRegistry, hopen, hrun]

/-- A depth of more than the registries of a tree is enough to close it. -/
theorem closeResource_trees (fuel : Nat) : (closeResource fuel).ClosesTrees fuel := by
  induction fuel with
  | zero => exact fun _ _ _ _ hlength => absurd hlength (Nat.not_lt_zero _)
  | succ fuel ih =>
    intro t w hstands hids hlength
    cases t with
    | leaf name error =>
      refine ⟨_, _, rfl, ?_⟩
      cases error <;> exact Closed.leaf name _ w
    | registry id parts =>
      obtain ⟨es, w', hrun, h⟩ :=
        closeRegistry_closed_tree ih hstands hids (Nat.lt_succ_iff.1 hlength)
      exact ⟨CloseError.outcome es, w', hrun, h⟩

/-- **Closing a tree.** Let a tree of registries be open, each registered once. Closing its root
ends, invokes all callbacks depth first and the latest registration first, whatever they fail with,
and closes the registries of the tree and no others. It comes to the collected failures of the
callbacks, wherever in the tree these are: to none if there are none, to a single one as it is, and
otherwise to an aggregate, which shows every single failure in the order of the invocations. -/
theorem closeRegistry_tree (w : World) (id : RegistryId) (parts : List Tree)
    (hstands : (Tree.registry id parts).Stands w) (hids : (Tree.registry id parts).ids.Nodup)
    (fuel : Nat) (hfuel : (Tree.registry id parts).ids.length ≤ fuel) :
    let t := Tree.registry id parts
    ∃ o w', closeRegistry (closeResource fuel) id w = some (o, w') ∧
      w'.log = w.log ++ t.callbacks.map (fun c => .closing c.name) ∧
      (∀ j, w'.open? j = if j ∈ t.ids then none else w.open? j) ∧
      o = CloseError.outcome t.errors ∧
      (o = .ok () ↔ t.errors = []) ∧
      (∀ e, leavesList t.errors = [e] → o = .error e) ∧
      (1 < (leavesList t.errors).length →
        ∃ first suppressed, o = .error (.aggregate first suppressed)) ∧
      ∀ e, o = .error e → e.failures = leavesList t.errors ∧ ∀ f ∈ e.failures, f.IsSingle := by
  intro t
  obtain ⟨es, w', hrun, h⟩ :=
    closeRegistry_closed_tree (closeResource_trees fuel) hstands hids hfuel
  have herrors := h.errors
  have hlog := h.log
  have hopens := h.opens
  rw [CloseError.ofOutcome_outcome, CloseError.leavesList_collect] at herrors
  simp only [List.flatMap_singleton] at herrors hlog hopens
  rw [CloseError.outcome_congr herrors] at hrun
  refine ⟨_, w', hrun, hlog, hopens, rfl, CloseError.outcome_eq_ok_iff, fun e he => ?_,
    fun hmany => ?_, fun e he => ?_⟩
  · rw [CloseError.outcome, CloseError.collect, he]
  · rw [CloseError.outcome, CloseError.collect]
    match hleaves : leavesList t.errors, hmany with
    | first :: next :: rest, _ => exact ⟨first, next :: rest, rfl⟩
  · have hfailures := CloseError.failures_of_outcome he
    exact ⟨hfailures, fun f hf => CloseError.isSingle_of_mem_leavesList _ f (hfailures ▸ hf)⟩

/-- A registry in a registry, and a third one that stands apart. The last callback of the first one
fails with an aggregate in an aggregate. -/
def Tree.nested : Tree :=
  .registry 0 [.leaf "early" none, .registry 1 [.leaf "inner" (some (.failed "inner" "boom"))],
    .leaf "late" (some (.aggregate (.aggregate (.failed "x" "1") [.failed "y" "2"])
      [.failed "z" "3"]))]

def World.nested : World where
  registries :=
    [⟨"outer", some [.callback ⟨"early", [], none⟩, .registry 1, .callback ⟨"late", [],
      some (.aggregate (.aggregate (.failed "x" "1") [.failed "y" "2"]) [.failed "z" "3"])⟩]⟩,
      ⟨"inner", some [.callback ⟨"inner", [], some (.failed "inner" "boom")⟩]⟩,
      ⟨"apart", some [.registry 2]⟩]
  handles := ∅
  kept := ∅
  log := []

theorem closeRegistry_tree_nested :
    Tree.nested.Stands .nested ∧ Tree.nested.ids.Nodup ∧ Tree.nested.ids.length ≤ 2 ∧
      ∃ w', closeRegistry (closeResource 2) 0 .nested =
          some (.error (.aggregate (.failed "x" "1")
            [.failed "y" "2", .failed "z" "3", .failed "inner" "boom"]), w') ∧
        w'.log = [.closing "late", .closing "inner", .closing "early"] ∧
        w'.open? 1 = none ∧ w'.open? 2 = some [.registry 2] := by
  have hstands : Tree.nested.Stands .nested := by
    refine .registry rfl fun t ht => ?_
    simp only [List.mem_cons, List.not_mem_nil, or_false] at ht
    rcases ht with rfl | rfl | rfl
    · exact .leaf
    · refine .registry rfl fun u hu => ?_
      rw [List.mem_singleton.1 hu]
      exact .leaf
    · exact .leaf
  have hids : Tree.nested.ids.Nodup := by decide
  obtain ⟨o, w', hrun, hlog, hopens, rfl, -⟩ :=
    closeRegistry_tree .nested 0 _ hstands hids 2 (Nat.le_refl 2)
  exact ⟨hstands, hids, Nat.le_refl 2, w', hrun, hlog, hopens 1, hopens 2⟩

end Lifecycle

end Wiring
