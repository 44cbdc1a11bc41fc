import Wiring.Proofs.Subtyping.Unfolding
/-!
# Types and their erasures

Erasure leaves primitives, raw class types and arrays of these, which it does not change any more
(`erased_erasure`, `Ty.Erased.eraseWith`). Of several bounds it takes the first, and this one helps
subtyping as well, which asks the members of an intersection in turn. So a type is below its erasure
(`Erasable.isSubtype_erasure`) where erasing comes to an end and meets neither a wildcard nor a
variable that is not declared: subtyping refuses these, and erasure makes the root of them.
-/

namespace Wiring

namespace Ty

/-- What erasure leaves: primitives, raw class types, and arrays of these. -/
inductive Erased : Ty → Prop where
  | primitive (p : Primitive) : Erased (.primitive p)
  | array {t : Ty} : Erased t → Erased (.array t)
  | raw (c : ClassId) : Erased (.declared c [])

mutual

/-- The variables that stand below nothing but arrays and intersections. -/
def bareVars : Ty → List TypeVarId
  | .var v => [v]
  | .array t => t.bareVars
  | .intersection ts => bareVarsList ts
  | .primitive _ | .declared .. | .wildcard .. => []

def bareVarsList : List Ty → List TypeVarId
  | [] => []
  | t :: ts => t.bareVars ++ bareVarsList ts

end

variable {t : Ty} {f : TypeVarId → Ty}

@[simp] theorem bareVarsList_eq_flatMap (ts : List Ty) : bareVarsList ts = ts.flatMap bareVars := by
  induction ts with
  | nil => rfl
  | cons t ts ih => simp [bareVarsList, ih]

theorem Erased.eraseWith (h : t.Erased) (f : TypeVarId → Ty) : t.eraseWith f = t := by
  induction h with
  | primitive p => rfl
  | array _ ih => rw [Ty.eraseWith, ih]
  | raw c => rfl

theorem Erased.of_mem_parts {p : Ty} (h : t.Erased) (hp : p ∈ t.parts) :
    p.isConcrete = true ∧ p.args = [] := by
  induction h with
  | primitive q =>
    obtain rfl : p = .primitive q := by simpa [parts] using hp
    exact ⟨rfl, rfl⟩
  | array _ ih =>
    rcases List.mem_cons.1 hp with rfl | hp
    · exact ⟨rfl, rfl⟩
    · exact ih hp
  | raw c =>
    obtain rfl : p = .declared c [] := by simpa [parts] using hp
    exact ⟨rfl, rfl⟩

theorem erased_eraseWith (hf : ∀ v, (f v).Erased) (t : Ty) : (t.eraseWith f).Erased := by
  induction t with
  | primitive p => exact .primitive p
  | array t ih => exact .array ih
  | declared c args _ => exact .raw c
  | var v => exact hf v
  | wildcard upper lower ih _ =>
    cases upper with
    | none => exact .raw _
    | some u => exact ih u rfl
  | intersection ts ih =>
    cases ts with
    | nil => exact .raw _
    | cons t ts => exact ih t (by simp)

end Ty

namespace ClassTable

/-- `w` stands bare in a bound of `v`, so that erasing `v` may come to `w`. -/
def RestsOn (s : ClassTable) (w v : TypeVarId) : Prop :=
  ∃ d, s.typeVar? v = some d ∧ ∃ b ∈ d.bounds, w ∈ b.bareVars

/-- The type is built from primitives, class types, declared variables, intersections of one or more
references, and arrays. -/
inductive Erasable (s : ClassTable) : Ty → Prop where
  | primitive (p : Primitive) : Erasable s (.primitive p)
  | array {t : Ty} : Erasable s t → Erasable s (.array t)
  | declared (c : ClassId) (args : List Ty) : Erasable s (.declared c args)
  | var {v : TypeVarId} {d : TypeVarDecl} : s.typeVar? v = some d → Erasable s (.var v)
  | intersection {ts : List Ty} : ts ≠ [] → (∀ t ∈ ts, t.isReference = true) →
      (∀ t ∈ ts, Erasable s t) → Erasable s (.intersection ts)

variable {s : ClassTable} {c : ClassId} {args ts : List Ty} {t u bound : Ty} {v w : TypeVarId}
  {f : TypeVarId → Ty} {path : VarPath}

/-! ## Erasures -/

theorem erased_varErasure (s : ClassTable) (path : VarPath) (v : TypeVarId) :
    (s.varErasure path v).Erased := by
  induction hroom : path.room using Nat.strongRecOn generalizing path v with
  | _ room ih =>
    rw [varErasure]
    split
    · exact .raw _
    · rename_i hv
      split
      · exact .raw _
      · exact Ty.erased_eraseWith (t := .intersection _)
          fun w => ih _ (hroom ▸ path.room_push_lt v hv) _ w rfl

theorem erased_erasure (s : ClassTable) (t : Ty) : (s.erasure t).Erased :=
  Ty.erased_eraseWith (s.erased_varErasure .empty) t

/-! ## Below an erased type -/

theorem isSubtype_raw (c : ClassId) (args : List Ty) :
    s.IsSubtype (.declared c args) (.declared c []) := by
  by_cases hne : Ty.declared c args = .declared c []
  · rw [hne]
    exact settles_subtype?_self _
  by_cases hobject : c = .object ∧ ([] : List Ty) = []
  · rw [hobject.1]
    exact settles_subtype?_object _ args
  -- the climb stops where it starts
  have hview : Settles (fun n => s.view? n c args c) (some args) :=
    Settles.of_succ ((Settles.const _).congr fun n => by simp [view?, viewWalk])
  exact settles_subtype?_declared hne hobject hview (Settles.const true)

section

variable (hu : u.Erased) (hr : u.isReference = true)

include hu hr

theorem isSubtype_var (hbound : s.bound? v = some bound) (h : s.IsSubtype bound u) :
    s.IsSubtype (.var v) u := by
  refine Settles.of_succ (h.congr fun n => ?_)
  cases hu with
  | primitive p => cases hr
  | array _ | raw c =>
    rw [subtype?_var rfl rfl (by simp [Ty.kind]) (by simp), hbound]
    rfl

/-- The first member is asked first. -/
theorem isSubtype_intersection (h : s.IsSubtype t u) (ts : List Ty) :
    s.IsSubtype (.intersection (t :: ts)) u := by
  have hany : Settles (fun n => (t :: ts).anyM fun part => s.subtype? n part u) true :=
    h.bind (Settles.const true)
  refine Settles.of_succ (hany.congr fun n => ?_)
  cases hu with
  | primitive p => cases hr
  | array _ | raw c => rw [subtype?_intersection_left rfl rfl (by simp [Ty.kind])]

end

namespace Erasable

theorem isReference_eraseWith (ht : s.Erasable t) (hr : t.isReference = true)
    (hf : ∀ v ∈ t.bareVars, ∀ d, s.typeVar? v = some d → (f v).isReference = true) :
    (t.eraseWith f).isReference = true := by
  induction ht with
  | primitive p => cases hr
  | array _ _ => rfl
  | declared c args => rfl
  | var hd => exact hf _ (by simp [Ty.bareVars]) _ hd
  | @intersection ts hne hrs _ ih =>
    cases ts with
    | nil => exact absurd rfl hne
    | cons t ts =>
      exact ih t (by simp) (hrs t (by simp)) fun v hv => hf v (by simp [Ty.bareVars, hv])

/-- If the variables of a type are below what they are erased to, so is the type. -/
theorem isSubtype_eraseWith (ht : s.Erasable t) (hf : ∀ v, (f v).Erased)
    (hvars : ∀ v ∈ t.bareVars, ∀ d, s.typeVar? v = some d →
      (f v).isReference = true ∧ s.IsSubtype (.var v) (f v)) :
    s.IsSubtype t (t.eraseWith f) := by
  induction ht with
  | primitive p => exact settles_subtype?_self _
  | @array t ht ih =>
    have hrefs : ∀ v ∈ t.bareVars, ∀ d, s.typeVar? v = some d → (f v).isReference = true :=
      fun v hv d hd => (hvars v hv d hd).1
    cases hr : t.isReference with
    | true => exact (ih hvars).array hr (ht.isReference_eraseWith hr hrefs)
    | false =>
      cases t with
      | primitive p => exact settles_subtype?_self _
      | _ => cases hr
  | declared c args => exact isSubtype_raw c args
  | var hd => exact (hvars _ (by simp [Ty.bareVars]) _ hd).2
  | @intersection ts hne hrs hts ih =>
    cases ts with
    | nil => exact absurd rfl hne
    | cons t ts =>
      have hvars : ∀ v ∈ t.bareVars, ∀ d, s.typeVar? v = some d →
          (f v).isReference = true ∧ s.IsSubtype (.var v) (f v) :=
        fun v hv => hvars v (by simp [Ty.bareVars, hv])
      have hrefs := (hts t (by simp)).isReference_eraseWith (hrs t (by simp))
        fun v hv d hd => (hvars v hv d hd).1
      exact isSubtype_intersection (Ty.erased_eraseWith hf t) hrefs (ih t (by simp) hvars) ts

end Erasable

/-! ## Variables -/

/-- A variable is erased as its bound is. -/
theorem varErasure_of_bound? (hv : v ∉ path.vars) (hbound : s.bound? v = some bound) :
    s.varErasure path v = bound.eraseWith fun w => s.varErasure (path.push v hv) w := by
  obtain ⟨⟨name, bounds⟩, hd, rfl⟩ := Option.map_eq_some_iff.1 hbound
  rw [varErasure, dif_neg hv, hd]
  rcases bounds with _ | ⟨b, _ | ⟨b', bs⟩⟩ <;> rfl

theorem restsOn_of_bound? (hbound : s.bound? v = some bound) (hw : w ∈ bound.bareVars) :
    s.RestsOn w v := by
  obtain ⟨⟨name, bounds⟩, hd, rfl⟩ := Option.map_eq_some_iff.1 hbound
  refine ⟨_, hd, ?_⟩
  rcases bounds with _ | ⟨b, _ | ⟨b', bs⟩⟩
  · cases hw
  · exact ⟨b, by simp, hw⟩
  · exact List.mem_flatMap.1 (by simpa [Ty.bareVars] using hw)

section

variable (hacyclic : ∀ v, ¬ Relation.TransGen s.RestsOn v v)
  (hbounds : ∀ b ∈ s.bounds, b.isReference = true ∧ s.Erasable b)

include hbounds in
theorem erasable_of_bound? (hbound : s.bound? v = some bound) :
    bound.isReference = true ∧ s.Erasable bound := by
  obtain ⟨⟨name, bounds⟩, hd, rfl⟩ := Option.map_eq_some_iff.1 hbound
  have hmem : ∀ b ∈ bounds, b.isReference = true ∧ s.Erasable b :=
    fun b hb => hbounds b (mem_bounds hd hb)
  rcases bounds with _ | ⟨b, _ | ⟨b', bs⟩⟩
  · exact ⟨rfl, .declared _ _⟩
  · exact hmem b (by simp)
  · exact ⟨rfl, .intersection (by simp) (fun b hb => (hmem b hb).1) fun b hb => (hmem b hb).2⟩

include hacyclic hbounds

/-- A variable is below its erasure, along every path that leads to it. -/
theorem isSubtype_varErasure {d : TypeVarDecl} (hd : s.typeVar? v = some d)
    (hpath : ∀ w ∈ path.vars, Relation.TransGen s.RestsOn v w) :
    (s.varErasure path v).isReference = true ∧ s.IsSubtype (.var v) (s.varErasure path v) := by
  induction v using (wellFounded_of_acyclic hacyclic).induction generalizing path d with
  | _ v ih =>
    have hv : v ∉ path.vars := fun hmem => hacyclic v (hpath v hmem)
    obtain ⟨bound, hbound⟩ := exists_bound? hd
    obtain ⟨hr, ht⟩ := erasable_of_bound? hbounds hbound
    have hvars : ∀ w ∈ bound.bareVars, ∀ d, s.typeVar? w = some d →
        (s.varErasure (path.push v hv) w).isReference = true ∧
          s.IsSubtype (.var w) (s.varErasure (path.push v hv) w) := by
      intro w hw d hd
      have hrests := restsOn_of_bound? hbound hw
      refine ih w hrests hd fun x hx => ?_
      rcases List.mem_cons.1 hx with rfl | hx
      · exact .single hrests
      · exact .head hrests (hpath x hx)
    have herased := s.erased_varErasure (path.push v hv)
    have hrefs := ht.isReference_eraseWith hr fun w hw d hd => (hvars w hw d hd).1
    rw [varErasure_of_bound? hv hbound]
    exact ⟨hrefs, isSubtype_var (Ty.erased_eraseWith herased bound) hrefs hbound
      (ht.isSubtype_eraseWith herased hvars)⟩

/-- **Erasure is a supertype and a normal form.** It leaves no argument, variable, wildcard or
intersection; to erase again changes nothing; and a type is below its erasure. -/
theorem isSubtype_erasure_self (ht : s.Erasable t) :
    (∀ p ∈ (s.erasure t).parts, p.isConcrete = true ∧ p.args = []) ∧
      s.erasure (s.erasure t) = s.erasure t ∧ s.IsSubtype t (s.erasure t) := by
  have herased := s.erased_erasure t
  refine ⟨fun p hp => herased.of_mem_parts hp, herased.eraseWith _, ?_⟩
  refine ht.isSubtype_eraseWith (s.erased_varErasure .empty) fun v _ d hd => ?_
  exact isSubtype_varErasure hacyclic hbounds hd (by simp [VarPath.empty])

end

/-- Variables that rest on variables of lower rank only do not go round. -/
theorem acyclic_of_rank (rank : TypeVarId → Nat)
    (h : ∀ v d, s.typeVar? v = some d → ∀ b ∈ d.bounds, ∀ w ∈ b.bareVars, rank w < rank v)
    (v : TypeVarId) : ¬ Relation.TransGen s.RestsOn v v := by
  have hlt {w v : TypeVarId} (hwv : Relation.TransGen s.RestsOn w v) : rank w < rank v := by
    induction hwv with
    | single hstep =>
      obtain ⟨d, hd, b, hb, hw⟩ := hstep
      exact h _ d hd b hb _ hw
    | tail _ hstep ih =>
      obtain ⟨d, hd, b, hb, hw⟩ := hstep
      exact ih.trans (h _ d hd b hb _ hw)
  exact fun hcycle => Nat.lt_irrefl _ (hlt hcycle)

/-- `(M & List<?>)[]` erases to `Number[]`, by way of the first bound of `M` and that of `N`. -/
theorem isSubtype_erasure_self_nested :
    let t : Ty := .array (.intersection [.var ⟨12⟩, .declared .list [.wildcard none none]])
    (∀ v, ¬ Relation.TransGen nested.RestsOn v v) ∧
      (∀ b ∈ nested.bounds, b.isReference = true ∧ nested.Erasable b) ∧ nested.Erasable t ∧
      nested.erasure t = .array ClassId.number.ty ∧
      nested.IsSubtype t (.array ClassId.number.ty) := by
  intro t
  have hacyclic : ∀ v, ¬ Relation.TransGen nested.RestsOn v v :=
    acyclic_of_rank (·.raw.toNat) (forall_typeVar? (by decide))
  have hbounds : ∀ b ∈ nested.bounds, b.isReference = true ∧ nested.Erasable b := by
    have hlist : nested.bounds = [ClassId.object.ty, ClassId.number.ty, ClassId.serializable.ty,
        .var ⟨11⟩, .declared .comparable [.var ⟨12⟩]] := rfl
    rw [hlist]
    simp only [List.forall_mem_cons, List.not_mem_nil, false_imp_iff, implies_true, and_true]
    exact ⟨⟨rfl, .declared _ _⟩, ⟨rfl, .declared _ _⟩, ⟨rfl, .declared _ _⟩, ⟨rfl, .var rfl⟩,
      ⟨rfl, .declared _ _⟩⟩
  have ht : nested.Erasable t := by
    refine .array (.intersection (by simp) (by simp [Ty.isReference]) ?_)
    simp only [List.forall_mem_cons, List.not_mem_nil, false_imp_iff, implies_true, and_true]
    exact ⟨.var rfl, .declared _ _⟩
  have hm : nested.bound? ⟨12⟩ =
      some (.intersection [.var ⟨11⟩, .declared .comparable [.var ⟨12⟩]]) := rfl
  have hn : nested.bound? ⟨11⟩ =
      some (.intersection [ClassId.number.ty, ClassId.serializable.ty]) := rfl
  have herasure : nested.erasure t = .array ClassId.number.ty := by
    simp only [t, erasure, Ty.eraseWith, Ty.eraseFirst]
    rw [varErasure_of_bound? List.not_mem_nil hm]
    simp only [Ty.eraseWith, Ty.eraseFirst]
    rw [varErasure_of_bound? (by decide) hn]
    rfl
  have hsub := (isSubtype_erasure_self hacyclic hbounds ht).2.2
  exact ⟨hacyclic, hbounds, ht, herasure, herasure ▸ hsub⟩

/-- **A bound that is not declared breaks it**: `T extends U`, where nothing declares `U`, erases to
the root, but is not found to be below it. -/
theorem not_isSubtype_erasure_self :
    let s := base.addTypeVar ⟨"T", [.var ⟨99⟩]⟩
    (∀ v, ¬ Relation.TransGen s.RestsOn v v) ∧
      (∀ b ∈ s.bounds, ∀ p ∈ b.parts,
        p.isReference = true ∧ p.isWildcard = false ∧ p ≠ .intersection []) ∧
      s.Erasable (.var ⟨11⟩) ∧ ¬ s.IsSubtype (.var ⟨11⟩) (s.erasure (.var ⟨11⟩)) := by
  intro s
  have hbound : s.bound? ⟨11⟩ = some (.var ⟨99⟩) := rfl
  have herasure : s.erasure (.var ⟨11⟩) = ClassId.object.ty := by
    have hunknown : s.typeVar? ⟨99⟩ = none := rfl
    rw [erasure, Ty.eraseWith, varErasure_of_bound? List.not_mem_nil hbound, Ty.eraseWith,
      varErasure, dif_neg (by decide), hunknown]
  refine ⟨acyclic_of_rank (fun v => if v.raw = 99 then 0 else 1) (forall_typeVar? (by decide)),
    by decide, .var rfl, ?_⟩
  rw [herasure]
  exact not_isSubtype (by decide : s.subtype? 8 _ _ = some false)

end ClassTable

end Wiring
