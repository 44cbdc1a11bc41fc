import Wiring.ClassTable.Subtyping
import Wiring.Proofs.Fuel
/-!
# More fuel never changes an answer

A question about subtypes that has an answer with some fuel has the same answer with more
(`subtype?_mono`), and so have the climb to a class (`view?_mono`) and assignability
(`assignable?_mono`). One answer settles such a question (`settles_subtype?`).
-/

namespace Wiring.ClassTable

variable {s : ClassTable} {n m : Nat}

theorem viewWalk_mono (target : ClassId) (hnm : n ≤ m) (queue seen : List Ty) :
    SettledBy (s.viewWalk target n queue seen) (s.viewWalk target m queue seen) := by
  induction n generalizing m queue seen with
  | zero =>
    cases queue with
    | nil => cases m <;> exact SettledBy.rfl
    | cons t queue => exact SettledBy.none
  | succ n ih =>
    obtain ⟨m, rfl⟩ : ∃ k, m = k + 1 := ⟨m - 1, by omega⟩
    have hnm : n ≤ m := by omega
    cases queue with
    | nil => exact SettledBy.rfl
    | cons t queue =>
      simp only [viewWalk]
      split
      · exact ih hnm _ _
      · split
        · split
          · exact SettledBy.rfl
          · exact ih hnm _ _
        · exact ih hnm _ _

theorem view?_mono (hnm : n ≤ m) (c : ClassId) (args : List Ty) (target : ClassId) :
    SettledBy (s.view? n c args target) (s.view? m c args target) :=
  viewWalk_mono target hnm _ _

section Step

variable {ask ask' : (sub sup : Ty) → Option Bool}
  {view view' : ClassId → List Ty → ClassId → Option (Option (List Ty))}
  (hask : ∀ t u, SettledBy (ask t u) (ask' t u))

include hask

theorem contains?_mono (container arg : Ty) :
    SettledBy (contains? ask container arg) (contains? ask' container arg) := by
  unfold contains?
  split
  case h_2 | h_4 | h_5 | h_7 => exact hask _ _
  all_goals exact SettledBy.rfl

theorem componentSubtype?_mono (t u : Ty) :
    SettledBy (componentSubtype? ask t u) (componentSubtype? ask' t u) := by
  unfold componentSubtype?
  split
  case h_4 => exact hask _ _
  all_goals exact SettledBy.rfl

theorem viewSubtype?_mono (args? : Option (List Ty)) (targetArgs : List Ty) :
    SettledBy (viewSubtype? ask args? targetArgs) (viewSubtype? ask' args? targetArgs) := by
  unfold viewSubtype?
  split
  · exact SettledBy.rfl
  · split
    · exact SettledBy.rfl
    · split
      · exact SettledBy.rfl
      · exact SettledBy.allM (fun (pair : Ty × Ty) => contains?_mono hask pair.1 pair.2) _

/-- A step settles more when the questions it asks settle more. -/
theorem subtypeStep_mono (hview : ∀ c args d, SettledBy (view c args d) (view' c args d))
    (t u : Ty) : SettledBy (s.subtypeStep ask view t u) (s.subtypeStep ask' view' t u) := by
  unfold subtypeStep
  split
  · exact SettledBy.rfl
  · split
    case h_6 => exact SettledBy.allM (fun part => hask _ part) _
    case h_7 => exact SettledBy.anyM (fun part => hask part _) _
    case h_8 =>
      split
      · exact SettledBy.rfl
      · exact hask _ _
    case h_10 => exact componentSubtype?_mono hask _ _
    case h_13 =>
      split
      · exact SettledBy.rfl
      · exact (hview _ _ _).bind fun args? => viewSubtype?_mono hask args? _
    all_goals exact SettledBy.rfl

end Step

/-- **A settled question about subtypes keeps its answer.** -/
theorem subtype?_mono (hnm : n ≤ m) (t u : Ty) :
    SettledBy (s.subtype? n t u) (s.subtype? m t u) := by
  induction n generalizing m t u with
  | zero => exact SettledBy.none
  | succ n ih =>
    obtain ⟨m, rfl⟩ : ∃ k, m = k + 1 := ⟨m - 1, by omega⟩
    have hnm : n ≤ m := by omega
    exact subtypeStep_mono (ih hnm) (view?_mono hnm) t u

/-- What assignability adds to subtyping: boxing, unboxing and the unchecked use of a raw type. -/
def conversion? (s : ClassTable) (fuel : Nat) (payload receiver : Ty) : Option Bool :=
  match payload, receiver with
  | .primitive _, .primitive _ => some false
  | .primitive p, _ => s.subtype? fuel p.box.ty receiver
  | .declared c _, .primitive q => some (c.unboxed?.any (·.widensTo q))
  | .declared c args, .declared d (_ :: _) => do return (← s.view? fuel c args d).any (·.isEmpty)
  | _, _ => some false

theorem assignable?_eq (payload receiver : Ty) :
    s.assignable? n payload receiver =
      (s.subtype? n payload receiver >>= fun isSubtype =>
        if isSubtype then some true else s.conversion? n payload receiver) :=
  rfl

theorem assignable?_mono (hnm : n ≤ m) (payload receiver : Ty) :
    SettledBy (s.assignable? n payload receiver) (s.assignable? m payload receiver) := by
  rw [assignable?_eq, assignable?_eq]
  refine (subtype?_mono hnm payload receiver).bind fun isSubtype => ?_
  cases isSubtype with
  | true => exact SettledBy.rfl
  | false =>
    simp only [Bool.false_eq_true, if_false, conversion?]
    split
    case h_2 => exact subtype?_mono hnm _ _
    case h_4 => exact (view?_mono hnm _ _ _).bind fun _ => SettledBy.rfl
    all_goals exact SettledBy.rfl

/-! ## One answer settles a question -/

section

variable {c d : ClassId} {args : List Ty} {t u : Ty} {v : Bool}

theorem settles_view? {view : Option (List Ty)} (h : s.view? n c args d = some view) :
    Settles (fun n => s.view? n c args d) view :=
  Settles.of_mono (fun _ _ hnm => view?_mono hnm c args d) h

theorem settles_subtype? (h : s.subtype? n t u = some v) :
    Settles (fun n => s.subtype? n t u) v :=
  Settles.of_mono (fun _ _ hnm => subtype?_mono hnm t u) h

theorem settles_assignable? (h : s.assignable? n t u = some v) :
    Settles (fun n => s.assignable? n t u) v :=
  Settles.of_mono (fun _ _ hnm => assignable?_mono hnm t u) h

end

end Wiring.ClassTable
