import Wiring.ClassTable.System
import Wiring.Proofs.TypeSystem.Bounds
/-!
# Bounds that cover bounds

Comparing two lists of types asks whether each concrete bound of the one is covered by one of the
other (`Covers`). So neither order nor number matters, and lists that restate others compare alike
(`boundsAssignable_of_restates`). To offer more never turns a yes into a no, and neither does to
require less (`not_refused_of_subset`).
-/

namespace Wiring.TypeSystem

/-- Each of the receivers is one of the payloads, or one of these may be assigned to it. -/
def Covers (sys : TypeSystem) (receivers payloads : List Ty) : Prop :=
  ∀ r ∈ receivers, ∃ p ∈ payloads, r = p ∨ sys.isAssignable p r = true

instance (sys : TypeSystem) (receivers payloads : List Ty) :
    Decidable (sys.Covers receivers payloads) :=
  inferInstanceAs (Decidable (∀ r ∈ receivers, ∃ p ∈ payloads, r = p ∨ sys.isAssignable p r = true))

/-- The second list restates the first: it holds the same types, in any order and number, or has the
concrete bounds of a type in its place. -/
inductive Restates (sys : TypeSystem) : List Ty → List Ty → Prop where
  | members {ts us : List Ty} : (∀ t, t ∈ us ↔ t ∈ ts) → Restates sys ts us
  | bounds {t : Ty} {own : List Ty} (before after : List Ty) : sys.concreteBounds t = .ok own →
      Restates sys (before ++ t :: after) (before ++ own ++ after)
  | trans {ts us vs : List Ty} : Restates sys ts us → Restates sys us vs → Restates sys ts vs

variable {sys : TypeSystem} {ts us bounds rs ps rs' ps' receivers payloads : List Ty}

/-! ## The bounds of related lists -/

/-- The concrete bounds of a type may stand in its place. -/
theorem concreteBoundsList_replace {t : Ty} {own : List Ty} (hown : sys.concreteBounds t = .ok own)
    (hc : ∀ b ∈ own, b.isConcrete = true) (before after : List Ty) :
    sys.concreteBoundsList (before ++ own ++ after) =
      sys.concreteBoundsList (before ++ t :: after) := by
  rw [List.append_cons, concreteBoundsList_append, concreteBoundsList_append before,
    concreteBoundsList_append, concreteBoundsList_append before, concreteBoundsList_singleton, hown,
    concreteBoundsList_of_isConcrete hc]

/-- **A restated list has the same bounds.** -/
theorem Restates.mem_bounds (h : sys.Restates ts us)
    (hts : sys.concreteBoundsList ts = .ok bounds) (hc : ∀ b ∈ bounds, b.isConcrete = true) :
    ∃ bounds', sys.concreteBoundsList us = .ok bounds' ∧ ∀ b, b ∈ bounds' ↔ b ∈ bounds := by
  induction h generalizing bounds with
  | members h =>
    obtain ⟨bounds', hus⟩ := exists_concreteBoundsList_iff.2 fun t ht =>
      exists_concreteBoundsList_iff.1 ⟨bounds, hts⟩ t ((h t).1 ht)
    refine ⟨bounds', hus, fun b => ⟨fun hb => ?_, fun hb => ?_⟩⟩
    · exact concreteBoundsList_subset (fun t ht => (h t).1 ht) hus hts hb
    · exact concreteBoundsList_subset (fun t ht => (h t).2 ht) hts hus hb
  | @bounds t own before after hown =>
    have hown' : ∀ b ∈ own, b.isConcrete = true := fun b hb =>
      hc b ((mem_concreteBoundsList_iff hts).2 ⟨t, by simp, own, hown, hb⟩)
    exact ⟨bounds, (concreteBoundsList_replace hown hown' before after).trans hts, fun _ => .rfl⟩
  | trans _ _ ih ih' =>
    obtain ⟨bounds', hus, hmem⟩ := ih hts hc
    obtain ⟨bounds'', hvs, hmem'⟩ := ih' hus fun b hb => hc b ((hmem b).1 hb)
    exact ⟨bounds'', hvs, fun b => (hmem' b).trans (hmem b)⟩

/-! ## Comparing -/

theorem boundsAssignable_eq_ok_iff {answer : Bool} :
    sys.boundsAssignable rs ps = .ok answer ↔
      ∃ receivers payloads, sys.concreteBoundsList rs = .ok receivers ∧
        sys.concreteBoundsList ps = .ok payloads ∧
        (receivers.allM fun r => payloads.anyM fun p => sys.boundAssignable r p) = .ok answer := by
  simp only [boundsAssignable, bind_eq_ok, exists_and_left]

/-- **More offers and fewer demands never turn a yes into a no.** They may turn it into a fault. -/
theorem not_refused_of_subset (hr : rs' ⊆ rs) (hp : ps ⊆ ps')
    (h : sys.boundsAssignable rs ps = .ok true) : sys.boundsAssignable rs' ps' ≠ .ok false := by
  intro h'
  obtain ⟨receivers, payloads, hreceivers, hpayloads, hall⟩ := boundsAssignable_eq_ok_iff.1 h
  obtain ⟨receivers', payloads', hreceivers', hpayloads', hsome⟩ := boundsAssignable_eq_ok_iff.1 h'
  obtain ⟨r, hr', hnone⟩ := exists_of_allM_eq_false hsome
  have hmem : r ∈ receivers := concreteBoundsList_subset hr hreceivers' hreceivers hr'
  obtain ⟨p, hp', hyes⟩ := exists_of_anyM_eq_true (allM_eq_true_iff.1 hall r hmem)
  have hno := anyM_eq_false_iff.1 hnone p (concreteBoundsList_subset hp hpayloads hpayloads' hp')
  rw [hyes] at hno
  cases hno

/-- Arrays and class types are compared without a fault, and by whether they are covered. -/
theorem boundsAssignable_eq_covers (hr : sys.concreteBoundsList rs = .ok receivers)
    (hp : sys.concreteBoundsList ps = .ok payloads)
    (hb : ∀ b ∈ receivers ++ payloads, b.isBound = true) :
    sys.boundsAssignable rs ps = .ok (decide (sys.Covers receivers payloads)) := by
  obtain ⟨hrb, hpb⟩ := List.forall_mem_append.1 hb
  have hall : (receivers.allM fun r => payloads.anyM fun p => sys.boundAssignable r p) =
      .ok (receivers.all fun r => payloads.any fun p => r == p || sys.isAssignable p r) :=
    allM_eq_ok fun r hr => anyM_eq_ok fun p hp => boundAssignable_of_isBound (hrb r hr) (hpb p hp)
  rw [boundsAssignable, hr, hp]
  refine hall.trans (congrArg Except.ok ?_)
  rw [Bool.eq_iff_iff, decide_eq_true_iff]
  simp [Covers]

/-- Lists that restate others compare like these. -/
theorem boundsAssignable_of_restates (hr : sys.concreteBoundsList rs = .ok receivers)
    (hp : sys.concreteBoundsList ps = .ok payloads)
    (hb : ∀ b ∈ receivers ++ payloads, b.isBound = true) (hrs : sys.Restates rs rs')
    (hps : sys.Restates ps ps') : sys.boundsAssignable rs' ps' = sys.boundsAssignable rs ps := by
  obtain ⟨hrb, hpb⟩ := List.forall_mem_append.1 hb
  obtain ⟨receivers', hr', hrmem⟩ := hrs.mem_bounds hr fun b hmem =>
    Ty.isConcrete_of_isBound (hrb b hmem)
  obtain ⟨payloads', hp', hpmem⟩ := hps.mem_bounds hp fun b hmem =>
    Ty.isConcrete_of_isBound (hpb b hmem)
  have hb' : ∀ b ∈ receivers' ++ payloads', b.isBound = true := fun b hmem =>
    hb b (by simpa [hrmem, hpmem] using hmem)
  have hcovers : sys.Covers receivers' payloads' ↔ sys.Covers receivers payloads := by
    simp only [Covers, hrmem, hpmem]
  rw [boundsAssignable_eq_covers hr' hp' hb', boundsAssignable_eq_covers hr hp hb]
  simp only [hcovers]

/-- **The laws of comparing bounds.** Where both lists unfold to arrays and class types only,
comparing them is never at fault, and tells whether each bound of the receivers is equal to a bound
of the payloads or may be assigned from one. The answer is the same for lists that restate them:
permuted, with repetitions, or with the concrete bounds of a type in its place. To add payloads
never turns a yes into a no, and to add receivers never turns a no into a yes. -/
theorem boundsAssignable_laws (hr : sys.concreteBoundsList rs = .ok receivers)
    (hp : sys.concreteBoundsList ps = .ok payloads)
    (hb : ∀ b ∈ receivers ++ payloads, b.isBound = true) :
    sys.boundsAssignable rs ps = .ok (decide (sys.Covers receivers payloads)) ∧
      (∀ rs' ps', sys.Restates rs rs' → sys.Restates ps ps' →
        sys.boundsAssignable rs' ps' = sys.boundsAssignable rs ps) ∧
      (∀ ps', ps ⊆ ps' → sys.boundsAssignable rs ps = .ok true →
        sys.boundsAssignable rs ps' ≠ .ok false) ∧
      ∀ rs', rs ⊆ rs' → sys.boundsAssignable rs ps = .ok false →
        sys.boundsAssignable rs' ps ≠ .ok true := by
  refine ⟨boundsAssignable_eq_covers hr hp hb,
    fun rs' ps' => boundsAssignable_of_restates hr hp hb,
    fun ps' hsub => not_refused_of_subset (List.Subset.refl rs) hsub, fun rs' hsub h h' => ?_⟩
  exact not_refused_of_subset hsub (List.Subset.refl ps) h' h

/-- With `N extends Number & Serializable`, `String` and `Integer` cover `? extends N`, but `String`
alone does not. -/
theorem boundsAssignable_laws_numbers :
    let s := ClassTable.base.addTypeVar ⟨"N", [ClassId.number.ty, ClassId.serializable.ty]⟩
    let sys := s.system 8
    let rs : List Ty := [.wildcard (some (.var ⟨11⟩)) none]
    let ps : List Ty := [ClassId.string.ty, ClassId.integer.ty]
    let bounds : List Ty := [ClassId.number.ty, ClassId.serializable.ty]
    let rs' : List Ty := [ClassId.serializable.ty, ClassId.number.ty, ClassId.number.ty]
    sys.concreteBoundsList rs = .ok bounds ∧ sys.concreteBoundsList ps = .ok ps ∧
      (∀ b ∈ bounds ++ ps, b.isBound = true) ∧
      sys.boundsAssignable rs ps = .ok true ∧
      sys.Restates rs rs' ∧ sys.boundsAssignable rs' ps.reverse = .ok true ∧
      sys.boundsAssignable rs (.primitive .int :: ps) ≠ .ok false ∧
      sys.boundsAssignable rs [ClassId.string.ty] = .ok false ∧
      sys.boundsAssignable (ClassId.object.ty :: rs) [ClassId.string.ty] ≠ .ok true := by
  intro s sys rs ps bounds rs'
  have hown : sys.concreteBounds (.wildcard (some (.var ⟨11⟩)) none) = .ok bounds := by
    have hbound : sys.bound? ⟨11⟩ = some (.intersection bounds) := rfl
    rw [concreteBounds, Ty.boundsWith, Ty.boundsWith, varBounds_of_bound? List.not_mem_nil hbound]
    rfl
  have hr : sys.concreteBoundsList rs = .ok bounds :=
    (sys.concreteBoundsList_singleton _).trans hown
  have hp : sys.concreteBoundsList ps = .ok ps := concreteBoundsList_of_isConcrete (by decide)
  have hb : ∀ b ∈ bounds ++ ps, b.isBound = true := by decide
  have hrestates : sys.Restates rs rs' :=
    (Restates.bounds [] [] hown).trans (.members fun t => by simp [bounds, rs', or_comm])
  obtain ⟨hanswer, hsame, hoffer, -⟩ := boundsAssignable_laws hr hp hb
  have hyes : sys.boundsAssignable rs ps = .ok true :=
    hanswer.trans (congrArg Except.ok (by decide))
  have hstring : sys.concreteBoundsList [ClassId.string.ty] = .ok [ClassId.string.ty] :=
    concreteBoundsList_of_isConcrete (by decide)
  obtain ⟨hanswer', -, -, hdemand⟩ := boundsAssignable_laws hr hstring (by decide)
  have hno : sys.boundsAssignable rs [ClassId.string.ty] = .ok false :=
    hanswer'.trans (congrArg Except.ok (by decide))
  exact ⟨hr, hp, hb, hyes, hrestates,
    (hsame rs' ps.reverse hrestates (.members (by simp))).trans hyes,
    hoffer _ (by simp) hyes, hno, hdemand _ (by simp) hno⟩

end Wiring.TypeSystem
