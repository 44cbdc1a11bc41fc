import Wiring.Request.Basic
/-!
# Annotations are canonical

Annotations are written call by call: members one after the other, qualifiers and bindings one after
the other. Of all these calls only the outcome is kept. An annotation is its name and what was last
written under each member (`ofMembers_eq_iff`), and a collection is the two sets of annotations that
were added (`ofAdditions_eq_iff`). In which order, how often and over what the calls were made cannot
be told from the value, so neither from its text nor from the requests it answers.

Everything here rests on the order of values: if it took two different annotations for equal, a set
would silently drop one of them. It is a total order, through lists within lists, and nothing compares
as equal but a thing with itself (`TotallyOrdered`).
-/

namespace Wiring

/-- The comparison is a total order, and only what is equal compares as equal. -/
structure TotallyOrdered (α : Type) [Ord α] : Prop where
  eq_iff : ∀ a b : α, compare a b = .eq ↔ a = b
  swap : ∀ a b : α, compare b a = (compare a b).swap
  trans : ∀ a b c : α, compare a b = .lt → compare b c = .lt → compare a c = .lt

theorem TotallyOrdered.of_lawful {α : Type} [Ord α] [Std.TransOrd α] [Std.LawfulEqOrd α] :
    TotallyOrdered α where
  eq_iff _ _ := Std.LawfulEqCmp.compare_eq_iff_eq
  swap _ _ := Std.OrientedCmp.eq_swap
  trans _ _ _ := Std.TransCmp.lt_trans

/-! ## One annotation -/

namespace Annotation

variable {name name' key : String} {ms ms' : List (String × Value)}

/-- The annotation on which these members were written, one after the other. -/
def ofMembers (name : String) (ms : List (String × Value)) : Annotation :=
  ms.foldl (fun a m => a.withMember m.1 m.2) (ofName name)

/-- The value that was last written under a key. -/
def lastWritten (ms : List (String × Value)) (key : String) : Option Value :=
  ms.reverse.lookup key

theorem name_foldl_withMember (ms : List (String × Value)) (a : Annotation) :
    (ms.foldl (fun a m => a.withMember m.1 m.2) a).name = a.name := by
  induction ms generalizing a with
  | nil => rfl
  | cons m ms ih => exact ih _

/-- A member is what was last written, or what it was before. -/
theorem member?_foldl_withMember (ms : List (String × Value)) (a : Annotation) (key : String) :
    (ms.foldl (fun a m => a.withMember m.1 m.2) a).member? key =
      (lastWritten ms key).or (a.member? key) := by
  induction ms generalizing a with
  | nil => rfl
  | cons m ms ih =>
    have hlast : lastWritten (m :: ms) key =
        (lastWritten ms key).or (if key == m.1 then some m.2 else none) := by
      rw [lastWritten, List.reverse_cons, List.lookup_append, List.lookup_cons]
      cases key == m.1 <;> rfl
    have hwritten : (a.withMember m.1 m.2).member? key =
        if key == m.1 then some m.2 else a.member? key :=
      SortedMap.get?_insert _ _ _ _
    rw [List.foldl_cons, ih, hwritten, hlast, Option.or_assoc]
    cases key == m.1 <;> rfl

theorem name_ofMembers (name : String) (ms : List (String × Value)) :
    (ofMembers name ms).name = name :=
  name_foldl_withMember ms _

theorem member?_ofMembers (name : String) (ms : List (String × Value)) (key : String) :
    (ofMembers name ms).member? key = lastWritten ms key := by
  rw [ofMembers, member?_foldl_withMember]
  exact Option.or_none

/-- Annotations with the same name and the same members are equal. -/
theorem eq_of_member? {a b : Annotation} (hname : a.name = b.name)
    (hmember : ∀ key, a.member? key = b.member? key) : a = b := by
  obtain ⟨name, members⟩ := a
  obtain ⟨name', members'⟩ := b
  cases hname
  cases SortedMap.ext hmember
  rfl

/-- **An annotation is its name and its last values.** -/
theorem ofMembers_eq_iff :
    ofMembers name ms = ofMembers name' ms' ↔
      name = name' ∧ ∀ key, lastWritten ms key = lastWritten ms' key := by
  constructor
  · intro h
    refine ⟨?_, fun key => ?_⟩
    · rw [← name_ofMembers name ms, h, name_ofMembers]
    · rw [← member?_ofMembers name ms, h, member?_ofMembers]
  · rintro ⟨rfl, h⟩
    refine eq_of_member? ?_ fun key => ?_
    · rw [name_ofMembers, name_ofMembers]
    · rw [member?_ofMembers, member?_ofMembers, h]

end Annotation

/-! ## A collection -/

namespace Annotations

/-- A call that adds to a collection. -/
inductive Addition where
  | qualifier (a : Annotation)
  | binding (a : Annotation)

def add (as : Annotations) : Addition → Annotations
  | .qualifier a => as.addQualifier a
  | .binding a => as.addBinding a

/-- The collection to which these were added, one after the other. -/
def ofAdditions (calls : List Addition) : Annotations := calls.foldl add ∅

/-- The calls add the same set of qualifiers and the same set of bindings. -/
structure SameAdded (calls calls' : List Addition) : Prop where
  qualifiers : ∀ a, .qualifier a ∈ calls ↔ .qualifier a ∈ calls'
  bindings : ∀ a, .binding a ∈ calls ↔ .binding a ∈ calls'

variable {calls calls' : List Addition} {a : Annotation}

/-- A set of a collection holds what it held before and what the calls added to it. -/
theorem mem_foldl_add (part : Annotations → SortedSet Annotation) (call : Annotation → Addition)
    (hadd : ∀ as c, a ∈ part (add as c) ↔ a ∈ part as ∨ call a = c) (calls : List Addition)
    (as : Annotations) : a ∈ part (calls.foldl add as) ↔ a ∈ part as ∨ call a ∈ calls := by
  induction calls generalizing as with
  | nil => simp
  | cons c calls ih => rw [List.foldl_cons, ih, hadd, List.mem_cons, or_assoc]

theorem mem_qualifiers_ofAdditions :
    a ∈ (ofAdditions calls).qualifiers ↔ .qualifier a ∈ calls := by
  rw [ofAdditions, mem_foldl_add (·.qualifiers) .qualifier fun as c => ?_]
  · exact or_iff_right List.not_mem_nil
  · cases c <;> simp [add, addQualifier, addBinding, or_comm]

theorem mem_bindings_ofAdditions : a ∈ (ofAdditions calls).bindings ↔ .binding a ∈ calls := by
  rw [ofAdditions, mem_foldl_add (·.bindings) .binding fun as c => ?_]
  · exact or_iff_right List.not_mem_nil
  · cases c <;> simp [add, addQualifier, addBinding, or_comm]

/-- **A collection is its two sets.** -/
theorem ofAdditions_eq_iff : ofAdditions calls = ofAdditions calls' ↔ SameAdded calls calls' := by
  constructor
  · intro h
    refine ⟨fun a => ?_, fun a => ?_⟩
    · rw [← mem_qualifiers_ofAdditions, h, mem_qualifiers_ofAdditions]
    · rw [← mem_bindings_ofAdditions, h, mem_bindings_ofAdditions]
  · intro h
    have hqualifiers : (ofAdditions calls).qualifiers = (ofAdditions calls').qualifiers := by
      refine SortedSet.ext fun a => ?_
      rw [mem_qualifiers_ofAdditions, h.qualifiers, mem_qualifiers_ofAdditions]
    have hbindings : (ofAdditions calls).bindings = (ofAdditions calls').bindings := by
      refine SortedSet.ext fun a => ?_
      rw [mem_bindings_ofAdditions, h.bindings, mem_bindings_ofAdditions]
    rw [Annotations.mk.injEq]
    exact ⟨hqualifiers, hbindings⟩

end Annotations

/-! ## What is asked for and what answers -/

open Annotation (ofMembers ofMembers_eq_iff lastWritten)
open Annotations (ofAdditions SameAdded)

/-- Requests with these annotations ask for the same exactly if they ask for the same type and the
same was added. The policy plays no part. -/
theorem Request.sameDemand_ofAdditions {p p' : Policy} {t t' : Ty}
    {calls calls' : List Annotations.Addition} {h : t.isConcrete = true} {h' : t'.isConcrete = true} :
    sameDemand ⟨p, t, ofAdditions calls, h⟩ ⟨p', t', ofAdditions calls', h'⟩ = true ↔
      t = t' ∧ SameAdded calls calls' := by
  simp [sameDemand, Annotations.ofAdditions_eq_iff]

/-- **Annotations are canonical.** Two annotations that were written call by call are equal exactly
if they have the same name and under every member the same last value, and two collections exactly if
the same qualifiers and the same bindings were added, whatever the order, repetition and overwriting
of the calls. What is equal has the same text, answers the same requests and asks for the same. The
order of values, lists within lists among them, and of annotations is total, and only what is equal
compares as equal. -/
theorem Annotations.canonical :
    (∀ name name' ms ms', ofMembers name ms = ofMembers name' ms' ↔
        name = name' ∧ ∀ key, lastWritten ms key = lastWritten ms' key) ∧
      (∀ calls calls', ofAdditions calls = ofAdditions calls' ↔ SameAdded calls calls') ∧
      (∀ name ms ms', (∀ key, lastWritten ms key = lastWritten ms' key) →
        (ofMembers name ms).text = (ofMembers name ms').text) ∧
      (∀ calls calls', SameAdded calls calls' →
        (ofAdditions calls).text = (ofAdditions calls').text ∧
          ∀ (r : Request) sys types, r.selects sys types (ofAdditions calls) =
            r.selects sys types (ofAdditions calls')) ∧
      (∀ p p' t t' calls calls' h h',
        Request.sameDemand ⟨p, t, ofAdditions calls, h⟩ ⟨p', t', ofAdditions calls', h'⟩ = true ↔
          t = t' ∧ SameAdded calls calls') ∧
      TotallyOrdered Annotation.Value ∧ TotallyOrdered Annotation := by
  refine ⟨fun _ _ _ _ => ofMembers_eq_iff, fun _ _ => ofAdditions_eq_iff, ?_, ?_,
    fun _ _ _ _ _ _ _ _ => Request.sameDemand_ofAdditions, .of_lawful, .of_lawful⟩
  · intro name ms ms' hlast
    rw [ofMembers_eq_iff.2 ⟨rfl, hlast⟩]
  · intro calls calls' hsame
    rw [ofAdditions_eq_iff.2 hsame]
    exact ⟨rfl, fun _ _ _ => rfl⟩

/-- A member written over and a qualifier added twice leave no trace. -/
theorem Annotations.canonical_rewritten :
    (ofMembers "a.Limits" [("low", .int 1), ("high", .int 9), ("low", .int 2)]).text =
        (ofMembers "a.Limits" [("low", .int 2), ("high", .int 9)]).text ∧
      (ofAdditions [.qualifier .any, .binding .anyBinding, .qualifier .any]).text =
        (ofAdditions [.binding .anyBinding, .qualifier .any]).text := by
  obtain ⟨-, -, hmembers, hcalls, -⟩ := canonical
  refine ⟨hmembers _ _ _ fun key => ?_, (hcalls _ _ ⟨?_, ?_⟩).1⟩
  · simp only [lastWritten, List.reverse_cons, List.reverse_nil, List.nil_append,
      List.cons_append, List.lookup_cons]
    cases hlow : key == "low" with
    | true =>
      cases eq_of_beq hlow
      rfl
    | false => rfl
  · simp
  · simp

end Wiring
