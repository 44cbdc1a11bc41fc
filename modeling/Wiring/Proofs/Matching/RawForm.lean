import Wiring.ClassTable.System
import Wiring.TypeSystem.Relations
/-!
# Raw forms in a class table

In the type system of a class table, identity is equality (`identical_iff`), and the raw form of a
type is its erasure below the array layers (`rawOrSelf_eq`), so that two types have the same raw
form when they agree up to the arguments of their innermost classes (`sameRawForm_iff`). Array layers
are counted (`sameRawForm_arrayOf`). Where no variable, wildcard or intersection stands below them, all
this is erasure (`rawForms_erasure`).
-/

namespace Wiring

namespace Ty

/-- The type without the arguments of the class below its array layers. -/
def dropArgs : Ty → Ty
  | .array t => .array t.dropArgs
  | .declared c _ => .declared c []
  | t => t

/-- Below its array layers the type is a primitive or a class type. -/
def PlainElement (t : Ty) : Prop := t.element.kind = .primitive ∨ t.element.kind = .declared

instance (t : Ty) : Decidable t.PlainElement :=
  inferInstanceAs (Decidable (t.element.kind = .primitive ∨ t.element.kind = .declared))

theorem kind_dropArgs (t : Ty) : t.dropArgs.kind = t.kind := by
  cases t <;> rfl

theorem dropArgs_arrayOf (t : Ty) (n : Nat) : (t.arrayOf n).dropArgs = t.dropArgs.arrayOf n := by
  induction n with
  | zero => rfl
  | succ n ih => exact congrArg Ty.array ih

/-- Layers are counted where no others stand below them. -/
theorem arrayOf_inj {t u : Ty} (ht : t.kind ≠ .array) (hu : u.kind ≠ .array) {n m : Nat} :
    t.arrayOf n = u.arrayOf m ↔ n = m ∧ t = u := by
  induction n generalizing m with
  | zero =>
    cases m with
    | zero => simp [arrayOf]
    | succ m =>
      refine iff_of_false (fun h => ht ?_) (by simp)
      have h : t = .array (u.arrayOf m) := h
      rw [h]
      rfl
  | succ n ih =>
    cases m with
    | zero =>
      refine iff_of_false (fun h => hu ?_) (by simp)
      have h : .array (t.arrayOf n) = u := h
      rw [← h]
      rfl
    | succ m => simp [arrayOf, ih]

end Ty

/-- **A type has a raw form exactly if it is parameterized below its array layers**, in every type
system. -/
theorem TypeSystem.isSome_rawForm? (sys : TypeSystem) (t : Ty) :
    (sys.rawForm? t).isSome = t.yieldsRaw := by
  induction t with
  | array t ih => simpa [rawForm?, Ty.yieldsRaw] using ih
  | declared c args _ => cases args <;> rfl
  | _ => rfl

namespace ClassTable

theorem eq_of_sameType {t u : Ty} (h : t.sameType u = true) : t = u := by
  simp only [Ty.sameType, Bool.and_eq_true, beq_iff_eq] at h
  exact h.2

variable (s : ClassTable) (fuel : Nat)

theorem identical_iff (t u : Ty) : (s.system fuel).identical t u = true ↔ t = u := by
  simp only [TypeSystem.identical, Bool.or_eq_true, beq_iff_eq]
  exact ⟨fun h => h.elim id eq_of_sameType, Or.inl⟩

theorem rawForm?_declared_cons (c : ClassId) (a : Ty) (args : List Ty) :
    (s.system fuel).rawForm? (.declared c (a :: args)) = some (.declared c []) :=
  congrArg some (s.erasure_declared c (a :: args))

theorem rawOrSelf_eq (t : Ty) : (s.system fuel).rawOrSelf t = t.dropArgs := by
  induction t with
  | array t ih =>
    simp only [TypeSystem.rawOrSelf, TypeSystem.rawForm?, Ty.dropArgs] at ih ⊢
    rw [← ih]
    cases (s.system fuel).rawForm? t <;> rfl
  | declared c args _ =>
    cases args with
    | nil => rfl
    | cons a args =>
      rw [TypeSystem.rawOrSelf, rawForm?_declared_cons]
      rfl
  | _ => rfl

theorem sameRawForm_iff (t u : Ty) :
    (s.system fuel).sameRawForm t u = true ↔ t.dropArgs = u.dropArgs := by
  rw [TypeSystem.sameRawForm, identical_iff, rawOrSelf_eq, rawOrSelf_eq]

/-- Types with different numbers of array layers have different raw forms. -/
theorem sameRawForm_arrayOf {t u : Ty} (ht : t.kind ≠ .array) (hu : u.kind ≠ .array) (n m : Nat) :
    (s.system fuel).sameRawForm (t.arrayOf n) (u.arrayOf m) = true ↔
      n = m ∧ (s.system fuel).sameRawForm t u = true := by
  rw [sameRawForm_iff, sameRawForm_iff, Ty.dropArgs_arrayOf, Ty.dropArgs_arrayOf]
  exact Ty.arrayOf_inj (by rwa [Ty.kind_dropArgs]) (by rwa [Ty.kind_dropArgs])

theorem erasure_of_plainElement {t : Ty} (ht : t.PlainElement) : s.erasure t = t.dropArgs := by
  induction t with
  | primitive p => exact s.erasure_primitive p
  | array t ih => rw [erasure_array, ih ht, Ty.dropArgs]
  | declared c args _ => exact s.erasure_declared c args
  | _ => exact absurd ht (by simp [Ty.PlainElement, Ty.element, Ty.kind])

/-- **Raw forms are erasures.** A type has a raw form exactly if it yields one. Where a primitive or a
class type stands below the array layers, the raw form, or the type itself if it has none, is the
erasure; so to have the same raw form is to have the same erasure, with as many array layers. -/
theorem rawForms_erasure :
    (∀ t : Ty, t.yieldsRaw = true ↔ ∃ raw, (s.system fuel).rawForm? t = some raw) ∧
      (∀ t : Ty, t.PlainElement → (s.system fuel).rawOrSelf t = s.erasure t) ∧
      (∀ t u : Ty, t.PlainElement → u.PlainElement →
        ((s.system fuel).sameRawForm t u = true ↔ s.erasure t = s.erasure u)) ∧
      (Equivalence fun t u : {t : Ty // t.PlainElement} =>
        (s.system fuel).sameRawForm t.val u.val = true) ∧
      ∀ t u : Ty, t.kind ≠ .array → u.kind ≠ .array → ∀ n m,
        ((s.system fuel).sameRawForm (t.arrayOf n) (u.arrayOf m) = true ↔
          n = m ∧ (s.system fuel).sameRawForm t u = true) := by
  refine ⟨fun t => ?_, fun t ht => ?_, fun t u ht hu => ?_, ?_, fun t u ht hu n m => ?_⟩
  · rw [← (s.system fuel).isSome_rawForm?, Option.isSome_iff_exists]
  · rw [rawOrSelf_eq, s.erasure_of_plainElement ht]
  · rw [sameRawForm_iff, s.erasure_of_plainElement ht, s.erasure_of_plainElement hu]
  · simp only [sameRawForm_iff]
    exact ⟨fun _ => rfl, Eq.symm, Eq.trans⟩
  · exact s.sameRawForm_arrayOf fuel ht hu n m

/-- `List<String>[][]` has the raw form `List[][]`, which is its erasure, and not that of `List[]`. -/
theorem rawForms_erasure_list :
    let strings : Ty := .declared .list [ClassId.string.ty]
    let lists : Ty := ClassId.list.ty
    let sys := base.system 0
    (strings.arrayOf 2).PlainElement ∧ (lists.arrayOf 2).PlainElement ∧
      (strings.arrayOf 2).yieldsRaw = true ∧
      (∃ raw, sys.rawForm? (strings.arrayOf 2) = some raw) ∧
      sys.rawOrSelf (strings.arrayOf 2) = base.erasure (strings.arrayOf 2) ∧
      base.erasure (strings.arrayOf 2) = base.erasure (lists.arrayOf 2) ∧
      sys.sameRawForm (strings.arrayOf 2) (lists.arrayOf 2) = true ∧
      ¬ sys.sameRawForm (strings.arrayOf 2) (lists.arrayOf 1) = true := by
  intro strings lists sys
  have hstrings : (strings.arrayOf 2).PlainElement := by decide
  have hlists : (lists.arrayOf 2).PlainElement := by decide
  have herasure : base.erasure (strings.arrayOf 2) = base.erasure (lists.arrayOf 2) := by
    simp [strings, lists, Ty.arrayOf, ClassId.ty]
  obtain ⟨hyields, hraw, hsame, -, hlayers⟩ := rawForms_erasure base 0
  refine ⟨hstrings, hlists, rfl, (hyields _).1 rfl, hraw _ hstrings, herasure,
    (hsame _ _ hstrings hlists).2 herasure, fun h => ?_⟩
  have hcount := (hlayers strings lists (by decide) (by decide) 2 1).1 h
  exact absurd hcount.1 (by decide)

end ClassTable

end Wiring
