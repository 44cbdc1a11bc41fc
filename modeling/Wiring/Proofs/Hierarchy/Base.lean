import Wiring.Proofs.Hierarchy.Regular
/-!
# The base table is regular

What makes a table regular can be computed, but for its origin: each declaration is looked at by
itself, and the instances above a class are those in its closure. For the base table the
computation succeeds (`base_regular`).
-/

namespace Wiring

instance (c : ClassId) : DecidablePred (DeclaredBefore c)
  | .declared e args =>
    if h : e.raw < c.raw then isTrue ⟨e, args, rfl, h⟩
    else isFalse fun ⟨_, _, ht, hlt⟩ => by cases ht; exact h hlt
  | .primitive _ | .array _ | .var _ | .wildcard .. | .intersection _ =>
    isFalse fun ⟨_, _, ht, _⟩ => by cases ht

namespace ClassTable

mutual

/-- The test for `FullyApplied`. -/
def fullyApplied (s : ClassTable) (vars : List TypeVarId) : Ty → Bool
  | .primitive _ => true
  | .array t => s.fullyApplied vars t
  | .var v => vars.contains v
  | .declared c args =>
    (s.class? c).any (fun d => args.length == d.params.length) && s.fullyAppliedList vars args
  | .wildcard .. | .intersection _ => false

def fullyAppliedList (s : ClassTable) (vars : List TypeVarId) : List Ty → Bool
  | [] => true
  | t :: ts => s.fullyApplied vars t && s.fullyAppliedList vars ts

end

variable {s : ClassTable} {vars : List TypeVarId} {t : Ty}

@[simp] theorem fullyAppliedList_eq_all (ts : List Ty) :
    s.fullyAppliedList vars ts = ts.all (s.fullyApplied vars) := by
  induction ts with
  | nil => rfl
  | cons t ts ih => simp [fullyAppliedList, ih]

theorem fullyApplied_iff : s.fullyApplied vars t = true ↔ s.FullyApplied vars t := by
  induction t with
  | primitive p => exact iff_of_true rfl (.primitive p)
  | array t ih =>
    rw [fullyApplied, ih]
    exact ⟨.array, fun h => by cases h; assumption⟩
  | declared c args ih =>
    rw [FullyApplied.declared_iff, fullyApplied, fullyAppliedList_eq_all]
    cases hd : s.class? c with
    | none => simp
    | some d => simpa using fun _ => forall₂_congr ih
  | var v =>
    rw [fullyApplied, List.contains_iff_mem]
    exact ⟨.var, fun h => by cases h; assumption⟩
  | wildcard a b _ _ => exact iff_of_false (by simp [fullyApplied]) (by rintro ⟨⟩)
  | intersection ts _ => exact iff_of_false (by simp [fullyApplied]) (by rintro ⟨⟩)

instance : Decidable (s.FullyApplied vars t) := decidable_of_iff _ fullyApplied_iff

/-- The test for `Usable`. -/
def usable (s : ClassTable) : Ty → Bool
  | .declared c args => args.isEmpty || (s.class? c).any fun d => args.length == d.params.length
  | _ => false

theorem usable_iff : s.usable t = true ↔ s.Usable t := by
  cases t with
  | declared c args =>
    rw [usable, Bool.or_eq_true, List.isEmpty_iff, Option.any_eq_true]
    constructor
    · rintro (rfl | ⟨d, hd, hlen⟩)
      · exact .raw c
      · exact .applied ⟨d, hd, eq_of_beq hlen⟩
    · rintro (_ | ⟨d, hd, hlen⟩)
      · exact .inl rfl
      · exact .inr ⟨d, hd, beq_iff_eq.2 hlen⟩
  | _ => exact iff_of_false (by simp [usable]) (by rintro ⟨⟩)

instance : Decidable (s.Usable t) := decidable_of_iff _ usable_iff

/-- The classes of a table are those that its list holds. -/
theorem forall_class? {P : ClassId → ClassDecl → Prop}
    (h : ∀ i : Fin s.classes.size, P ⟨UInt32.ofNat i⟩ s.classes[i]) (c : ClassId) (d : ClassDecl)
    (hd : s.class? c = some d) : P c d := by
  obtain ⟨hlt, rfl⟩ := Array.getElem?_eq_some_iff.1 hd
  simpa using h ⟨c.raw.toNat, hlt⟩

theorem forall_typeVar? {P : TypeVarId → TypeVarDecl → Prop}
    (h : ∀ i : Fin s.typeVars.size, P ⟨UInt32.ofNat i⟩ s.typeVars[i]) (v : TypeVarId)
    (d : TypeVarDecl) (hd : s.typeVar? v = some d) : P v d := by
  obtain ⟨hlt, rfl⟩ := Array.getElem?_eq_some_iff.1 hd
  simpa using h ⟨v.raw.toNat, hlt⟩

/-- A type whose closure holds each class once climbs to one instance of each. -/
theorem oneInstance_of_closure? {n : Nat}
    (h : ((s.system n).closure? n t).any fun ts => (ts.map Ty.head?).Nodup) : s.OneInstance t := by
  intro e as bs ha hb
  cases hts : (s.system n).closure? n t with
  | none => simp [hts] at h
  | some ts =>
    have hnodup : (ts.map Ty.head?).Nodup := by simpa [hts] using h
    have heq := List.inj_on_of_nodup_map hnodup ((TypeSystem.mem_closure?_iff hts).2 ha)
      ((TypeSystem.mem_closure?_iff hts).2 hb) rfl
    cases heq
    rfl

/-- No class reaches two instances of one class when no closure holds a class twice. -/
theorem coherent_of_closures {n : Nat} {f : ClassDecl → List Ty}
    (h : ∀ i : Fin s.classes.size,
      ((s.system n).closure? n (.declared ⟨UInt32.ofNat i⟩ (f s.classes[i]))).any
        fun ts => (ts.map Ty.head?).Nodup) :
    ∀ c d, s.class? c = some d → s.OneInstance (.declared c (f d)) :=
  forall_class? fun i => oneInstance_of_closure? (h i)

/-- **The base table is regular.** -/
theorem base_regular : base.Regular where
  extends_base := .refl
  ordered := forall_class? (by decide)
  applied := forall_class? (by decide)
  rooted := forall_class? (by decide)
  coherent := coherent_of_closures (n := 24) (by decide)

end ClassTable

end Wiring
