import Wiring.Text.Quoted
/-!
# Values of annotation members

A value is a boolean, an integer, a text or a list of values. Values are ordered first by these
four shapes and then within them, lists by their first difference. The order is total and agrees
with equality, so that sets and maps of values are canonical.
-/

namespace Wiring.Annotation

inductive Value where
  | bool (b : Bool)
  | int (n : Int)
  | str (s : String)
  | list (items : List Value)
deriving Inhabited

namespace Value

/-- Induction over values, with one hypothesis for all items of a list. -/
@[induction_eliminator]
theorem induct {motive : Value → Prop} (bool : ∀ b, motive (.bool b))
    (int : ∀ n, motive (.int n)) (str : ∀ s, motive (.str s))
    (list : ∀ items, (∀ v ∈ items, motive v) → motive (.list items)) : ∀ v, motive v := by
  intro v
  refine Value.rec (motive_1 := motive) (motive_2 := fun vs => ∀ v ∈ vs, motive v)
    bool int str list ?_ ?_ v
  · intro _ h
    cases h
  · intro v vs hv hvs w hw
    cases hw with
    | head => exact hv
    | tail _ h => exact hvs w h

/-! ## Text -/

mutual

/-- Texts are quoted, and lists stand between braces. -/
def text : Value → String
  | .bool true => "true"
  | .bool false => "false"
  | .int n => toString n
  | .str s => Text.quote s
  | .list [] => "\x7b\x7d"
  | .list (v :: vs) => "\x7b" ++ v.text ++ textRest vs ++ "\x7d"

def textRest : List Value → String
  | [] => ""
  | v :: vs => ", " ++ v.text ++ textRest vs

end

/-! ## Order -/

mutual

def order : Value → Value → Ordering
  | .bool a, .bool b => compare a b
  | .bool _, _ => .lt
  | _, .bool _ => .gt
  | .int a, .int b => compare a b
  | .int _, _ => .lt
  | _, .int _ => .gt
  | .str a, .str b => compare a b
  | .str _, _ => .lt
  | _, .str _ => .gt
  | .list a, .list b => orderList a b

/-- The first difference decides; a list comes before its extensions. -/
def orderList : List Value → List Value → Ordering
  | [], [] => .eq
  | [], _ :: _ => .lt
  | _ :: _, [] => .gt
  | a :: as, b :: bs =>
    match order a b with
    | .eq => orderList as bs
    | o => o

end

instance : Ord Value := ⟨order⟩

private theorem orderList_self {as : List Value} (h : ∀ a ∈ as, order a a = .eq) :
    orderList as as = .eq := by
  induction as with
  | nil => rfl
  | cons a as ih => simp [orderList, h a (by simp), ih fun x hx => h x (by simp [hx])]

theorem order_self (a : Value) : order a a = .eq := by
  induction a with
  | bool b => simp [order]
  | int n => simp [order]
  | str s => simp [order]
  | list as ih => simpa [order] using orderList_self ih

private theorem eq_of_orderList {as : List Value} (h : ∀ a ∈ as, ∀ b, order a b = .eq → a = b) :
    ∀ {bs : List Value}, orderList as bs = .eq → as = bs := by
  induction as with
  | nil =>
    intro bs hab
    cases bs with
    | nil => rfl
    | cons b bs => simp [orderList] at hab
  | cons a as ih =>
    intro bs hab
    cases bs with
    | nil => simp [orderList] at hab
    | cons b bs =>
      simp only [orderList] at hab
      split at hab
      · rename_i hhead
        rw [h a (by simp) b hhead, ih (fun x hx => h x (by simp [hx])) hab]
      · exact absurd hab ‹_›

theorem eq_of_order {a b : Value} (hab : order a b = .eq) : a = b := by
  induction a generalizing b with
  | bool x => cases b <;> simp_all [order]
  | int x => cases b <;> simp_all [order]
  | str x => cases b <;> simp_all [order]
  | list as ih =>
    cases b with
    | list bs =>
      rw [eq_of_orderList (fun x hx b => ih x hx) (by simpa [order] using hab)]
    | _ => simp [order] at hab

private theorem orderList_swap {as : List Value}
    (h : ∀ a ∈ as, ∀ b, order a b = (order b a).swap) :
    ∀ bs : List Value, orderList as bs = (orderList bs as).swap := by
  induction as with
  | nil =>
    intro bs
    cases bs <;> rfl
  | cons a as ih =>
    intro bs
    cases bs with
    | nil => rfl
    | cons b bs =>
      simp only [orderList]
      rw [h a (by simp) b]
      cases order b a with
      | eq => exact ih (fun x hx => h x (by simp [hx])) bs
      | lt => rfl
      | gt => rfl

theorem order_swap (a b : Value) : order a b = (order b a).swap := by
  induction a generalizing b with
  | bool x =>
    cases b with
    | bool y => exact Std.OrientedOrd.eq_swap
    | _ => rfl
  | int x =>
    cases b with
    | int y => exact Std.OrientedOrd.eq_swap
    | _ => rfl
  | str x =>
    cases b with
    | str y => exact Std.OrientedOrd.eq_swap
    | _ => rfl
  | list as ih =>
    cases b with
    | list bs => exact orderList_swap ih bs
    | _ => rfl

private theorem orderList_cons_lt {a b : Value} {as bs : List Value} :
    orderList (a :: as) (b :: bs) = .lt ↔
      order a b = .lt ∨ a = b ∧ orderList as bs = .lt := by
  simp only [orderList]
  constructor
  · intro h
    split at h
    · rename_i heq
      exact .inr ⟨eq_of_order heq, h⟩
    · exact .inl h
  · rintro (h | ⟨rfl, h⟩)
    · rw [h]
    · rw [order_self]
      exact h

private theorem orderList_lt_trans {as : List Value}
    (h : ∀ a ∈ as, ∀ b c, order a b = .lt → order b c = .lt → order a c = .lt) :
    ∀ {bs cs : List Value}, orderList as bs = .lt → orderList bs cs = .lt →
      orderList as cs = .lt := by
  induction as with
  | nil =>
    intro bs cs hab hbc
    cases cs with
    | nil => cases bs <;> simp [orderList] at hab hbc
    | cons c cs => rfl
  | cons a as ih =>
    intro bs cs hab hbc
    cases bs with
    | nil => simp [orderList] at hab
    | cons b bs =>
      cases cs with
      | nil => simp [orderList] at hbc
      | cons c cs =>
        rw [orderList_cons_lt] at *
        rcases hab with hab | ⟨rfl, hab⟩
        · rcases hbc with hbc | ⟨rfl, hbc⟩
          · exact .inl (h a (by simp) b c hab hbc)
          · exact .inl hab
        · rcases hbc with hbc | ⟨rfl, hbc⟩
          · exact .inl hbc
          · exact .inr ⟨rfl, ih (fun x hx => h x (by simp [hx])) hab hbc⟩

theorem order_lt_trans {a b c : Value} (hab : order a b = .lt) (hbc : order b c = .lt) :
    order a c = .lt := by
  induction a generalizing b c with
  | bool x =>
    cases b <;> cases c <;> simp_all [order]
    exact Std.TransCmp.lt_trans hab hbc
  | int x =>
    cases b <;> cases c <;> simp_all [order]
    exact Std.TransCmp.lt_trans hab hbc
  | str x =>
    cases b <;> cases c <;> simp_all [order]
    exact Std.TransCmp.lt_trans hab hbc
  | list as ih =>
    cases b with
    | list bs =>
      cases c with
      | list cs => exact orderList_lt_trans (fun x hx b c => ih x hx) hab hbc
      | _ => simp [order] at hbc
    | _ => simp [order] at hab

instance : Std.LawfulEqOrd Value where
  compare_self := order_self _
  eq_of_compare := eq_of_order

instance : Std.TransOrd Value where
  eq_swap := order_swap _ _
  isLE_trans {a b c} hab hbc := by
    change (order a b).isLE at hab
    change (order b c).isLE at hbc
    change (order a c).isLE
    cases hab' : order a b with
    | eq => rwa [eq_of_order hab']
    | gt => simp [hab'] at hab
    | lt =>
      cases hbc' : order b c with
      | eq => rw [← eq_of_order hbc', hab']; rfl
      | gt => simp [hbc'] at hbc
      | lt => rw [order_lt_trans hab' hbc']; rfl

instance : DecidableEq Value := fun a b =>
  decidable_of_iff (order a b = .eq) ⟨eq_of_order, fun h => h ▸ order_self a⟩

end Value

end Wiring.Annotation
