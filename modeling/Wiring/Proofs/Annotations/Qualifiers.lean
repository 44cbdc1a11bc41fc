import Wiring.Annotations
/-!
# Implied qualifiers

A candidate without qualifiers carries two implied ones, and a request without qualifiers asks for
an implied one. Writing them out changes no answer (`answersQualifiers_impliedCarried`,
`answersQualifiers_impliedRequired`), as long as what is named like an implied qualifier is that
qualifier (`ImpliedBare`): the rules for empty sets look at names alone, the rule for other sets at
members too. Asking for more qualifiers is answered by fewer candidates (`answersQualifiers_mono`).

The qualifier of every candidate is implied only where no other is declared: a candidate that
declares qualifiers without it does not answer a request for it (`answersQualifiers_any_iff`).
-/

namespace Wiring

theorem SortedSet.isEmpty_iff {α : Type} [Ord α] {s : SortedSet α} :
    s.isEmpty = true ↔ ∀ a, a ∉ s := by
  rw [SortedSet.isEmpty, List.isEmpty_iff, List.eq_nil_iff_forall_not_mem]
  exact Iff.rfl

namespace Annotations

variable {carried : Annotations} {required more : SortedSet Annotation} {a : Annotation}

/-- The qualifiers of a candidate that declares none. -/
def impliedCarried : SortedSet Annotation := .ofList [.any, .default]

/-- The qualifier that a request without qualifiers asks for. -/
def impliedRequired : SortedSet Annotation := .ofList [.default]

/-- What is named like an implied qualifier has no members. -/
def ImpliedBare (qualifiers : SortedSet Annotation) : Prop :=
  ∀ a ∈ qualifiers, a.isAny ∨ a.isDefault → a.members = ∅

theorem mem_impliedCarried : a ∈ impliedCarried ↔ a = .any ∨ a = .default := by
  simp [impliedCarried]

theorem mem_impliedRequired : a ∈ impliedRequired ↔ a = .default := by
  simp [impliedRequired]

namespace ImpliedBare

theorem eq_default (h : ImpliedBare required) (ha : a ∈ required) (hd : a.isDefault = true) :
    a = .default := by
  have hmembers := h a ha (.inr hd)
  obtain ⟨name, members⟩ := a
  cases hmembers
  cases eq_of_beq hd
  rfl

theorem eq_any (h : ImpliedBare required) (ha : a ∈ required) (hany : a.isAny = true) :
    a = .any := by
  have hmembers := h a ha (.inl hany)
  obtain ⟨name, members⟩ := a
  cases hmembers
  cases eq_of_beq hany
  rfl

end ImpliedBare

/-! ## The three rules -/

theorem answersQualifiers_unasked (hr : required.isEmpty = true) :
    carried.answersQualifiers required = true ↔
      carried.qualifiers.isEmpty = true ∨ ∃ a ∈ carried.qualifiers, a.isDefault = true := by
  simp [answersQualifiers, hr, SortedSet.mem_def]

theorem answersQualifiers_undeclared (hr : required.isEmpty = false)
    (hc : carried.qualifiers.isEmpty = true) :
    carried.answersQualifiers required = true ↔
      ∀ a ∈ required, a.isAny = true ∨ a.isDefault = true := by
  simp [answersQualifiers, hr, hc, SortedSet.mem_def]

theorem answersQualifiers_declared (hr : required.isEmpty = false)
    (hc : carried.qualifiers.isEmpty = false) :
    carried.answersQualifiers required = true ↔ ∀ a ∈ required, a ∈ carried.qualifiers := by
  simp [answersQualifiers, hr, hc, SortedSet.isSubset_iff]

/-! ## Implied qualifiers written out -/

/-- A candidate that declares no qualifiers answers what it answers when it declares the implied
ones. -/
theorem answersQualifiers_impliedCarried (hbare : ImpliedBare required)
    (hc : carried.qualifiers.isEmpty = true) :
    { carried with qualifiers := impliedCarried }.answersQualifiers required =
      carried.answersQualifiers required := by
  rw [Bool.eq_iff_iff]
  cases hr : required.isEmpty with
  | true =>
    rw [answersQualifiers_unasked hr, answersQualifiers_unasked hr]
    have hdefault : ∃ a ∈ impliedCarried, a.isDefault = true :=
      ⟨.default, mem_impliedCarried.2 (.inr rfl), rfl⟩
    exact ⟨fun _ => .inl hc, fun _ => .inr hdefault⟩
  | false =>
    rw [answersQualifiers_undeclared hr hc, answersQualifiers_declared hr rfl]
    refine forall₂_congr fun a ha => ?_
    rw [mem_impliedCarried]
    constructor
    · rintro (rfl | rfl)
      · exact .inl rfl
      · exact .inr rfl
    · exact Or.imp (hbare.eq_any ha) (hbare.eq_default ha)

/-- A request that asks for no qualifiers is answered as one that asks for the implied one. -/
theorem answersQualifiers_impliedRequired (hbare : ImpliedBare carried.qualifiers) :
    carried.answersQualifiers ∅ = carried.answersQualifiers impliedRequired := by
  rw [Bool.eq_iff_iff, answersQualifiers_unasked rfl]
  cases hc : carried.qualifiers.isEmpty with
  | true =>
    rw [answersQualifiers_undeclared rfl hc]
    refine ⟨fun _ a ha => .inr ?_, fun _ => .inl rfl⟩
    rw [mem_impliedRequired.1 ha]
    rfl
  | false =>
    rw [answersQualifiers_declared rfl hc]
    constructor
    · rintro (h | ⟨a, ha, hd⟩) b hb
      · cases h
      · rw [mem_impliedRequired.1 hb, ← hbare.eq_default ha hd]
        exact ha
    · exact fun h => .inr ⟨.default, h _ (mem_impliedRequired.2 rfl), rfl⟩

/-- Who answers a request for more qualifiers answers a request for fewer, if these are some. -/
theorem answersQualifiers_mono (hsome : required.isEmpty = false)
    (hsub : ∀ a ∈ required, a ∈ more) (h : carried.answersQualifiers more = true) :
    carried.answersQualifiers required = true := by
  have hmore : more.isEmpty = false := by
    rw [Bool.eq_false_iff] at hsome ⊢
    refine fun hnone => hsome (SortedSet.isEmpty_iff.2 fun a ha => ?_)
    exact SortedSet.isEmpty_iff.1 hnone a (hsub a ha)
  cases hc : carried.qualifiers.isEmpty with
  | true =>
    rw [answersQualifiers_undeclared hsome hc]
    exact fun a ha => (answersQualifiers_undeclared hmore hc).1 h a (hsub a ha)
  | false =>
    rw [answersQualifiers_declared hsome hc]
    exact fun a ha => (answersQualifiers_declared hmore hc).1 h a (hsub a ha)

/-- **The qualifier of every candidate must be declared** where any qualifier is. -/
theorem answersQualifiers_any_iff :
    carried.answersQualifiers (.ofList [.any]) = true ↔
      carried.qualifiers.isEmpty = true ∨ .any ∈ carried.qualifiers := by
  cases hc : carried.qualifiers.isEmpty with
  | true =>
    rw [answersQualifiers_undeclared rfl hc]
    refine ⟨fun _ => .inl rfl, fun _ a ha => .inl ?_⟩
    rw [SortedSet.mem_ofList, List.mem_singleton] at ha
    rw [ha]
    rfl
  | false =>
    rw [answersQualifiers_declared rfl hc]
    simp

end Annotations

end Wiring
