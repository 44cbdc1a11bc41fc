import Wiring.Annotation.Value
import Wiring.Proofs.Text.Quoted
/-!
# The text of a value can be read back

The first letter of a text tells its shape (`leadShape`). After it the text is read from the left:
where the text of one value goes on with something that is no digit, and so does that of another, the
values are equal and what follows is (`Cancels`). Braces and commas inside a quoted item do no harm,
for the item is read up to its closing quote before they are looked at.
-/

namespace Wiring.Annotation.Value

variable {v w : Value} {vs ws : List Value} {rest rest' : List Char}

/-! ## The text, letter by letter -/

/-- The letters of the text of a value. -/
def chars (v : Value) : List Char := v.text.toList

/-- The letters of further items, to the closing brace. -/
def charsRest : List Value → List Char
  | [] => ['}']
  | v :: vs => ',' :: ' ' :: (v.chars ++ charsRest vs)

/-- The letters of all items, to the closing brace. -/
def charsItems : List Value → List Char
  | [] => ['}']
  | v :: vs => v.chars ++ charsRest vs

theorem chars_bool (b : Bool) : (bool b).chars = (toString b).toList := by
  cases b <;> rfl

theorem chars_int (n : Int) :
    (int n).chars = (if n < 0 then ['-'] else []) ++ Nat.toDigits 10 n.natAbs := by
  cases n with
  | ofNat n => simp [chars, text, toString, Int.repr]
  | negSucc n => simp [chars, text, toString, Int.repr]

theorem chars_str (s : String) : (str s).chars = Text.quoteChars s.toList := by
  simp [chars, text, Text.quote]

theorem charsRest_eq (vs : List Value) : charsRest vs = (textRest vs).toList ++ ['}'] := by
  induction vs with
  | nil => simp [charsRest, textRest]
  | cons v vs ih => simp [charsRest, textRest, chars, ih]

theorem chars_list (vs : List Value) : (list vs).chars = '{' :: charsItems vs := by
  cases vs with
  | nil => simp [chars, text, charsItems]
  | cons v vs => simp [chars, text, charsItems, charsRest_eq]

/-! ## Shapes -/

inductive Shape where
  | bool
  | int
  | str
  | list
deriving DecidableEq

def shape : Value → Shape
  | .bool _ => .bool
  | .int _ => .int
  | .str _ => .str
  | .list _ => .list

/-- The shape of the values whose text begins so. -/
def leadShape : List Char → Option Shape
  | 't' :: _ | 'f' :: _ => some .bool
  | '"' :: _ => some .str
  | '{' :: _ => some .list
  | c :: _ => if c = '-' ∨ c.isDigit then some .int else none
  | [] => none

/-- A sign or a digit begins no other text than that of a number. -/
theorem leadShape_number {c : Char} (hc : c = '-' ∨ c.isDigit = true) (rest : List Char) :
    leadShape (c :: rest) = some .int := by
  unfold leadShape
  split
  case h_5 h =>
    cases h
    exact if_pos hc
  all_goals simp_all

theorem exists_digit (n : Nat) : ∃ c cs, Nat.toDigits 10 n = c :: cs ∧ c.isDigit = true := by
  cases h : Nat.toDigits 10 n with
  | nil => exact absurd h Nat.toDigits_ne_nil
  | cons c cs =>
    have hc : c ∈ Nat.toDigits 10 n := by simp [h]
    exact ⟨c, cs, rfl, Nat.isDigit_of_mem_toDigits (by decide) (by decide) hc⟩

theorem leadShape_chars_append (v : Value) (rest : List Char) :
    leadShape (v.chars ++ rest) = some v.shape := by
  cases v with
  | bool b =>
    rw [chars_bool]
    cases b <;> rfl
  | int n =>
    obtain ⟨c, cs, hdigits, hc⟩ := exists_digit n.natAbs
    rw [chars_int, hdigits]
    split
    · exact leadShape_number (.inl rfl) _
    · exact leadShape_number (.inr hc) _
  | str s =>
    rw [chars_str]
    rfl
  | list vs =>
    rw [chars_list]
    rfl

/-- No value begins with the closing brace. -/
theorem chars_append_ne_brace (v : Value) (rest rest' : List Char) :
    v.chars ++ rest ≠ '}' :: rest' := by
  intro h
  have hshape := leadShape_chars_append v rest
  rw [h] at hshape
  cases hshape

/-! ## Reading a text from the left -/

/-- The letters do not go on with a number. -/
def Ends (rest : List Char) : Prop := ∀ c ∈ rest.head?, c.isDigit = false

/-- The value can be read off any text that begins with it: no other value can take its place. -/
def Cancels (v : Value) : Prop :=
  ∀ w rest rest', Ends rest → Ends rest' → v.chars ++ rest = w.chars ++ rest' →
    v = w ∧ rest = rest'

theorem ends_charsRest (vs : List Value) (rest : List Char) : Ends (charsRest vs ++ rest) := by
  cases vs <;> simp [Ends, charsRest]

/-- Only a value of the same shape can take the place of another. -/
theorem Cancels.of_same_shape (h : ∀ w rest rest', w.shape = v.shape → Ends rest → Ends rest' →
    v.chars ++ rest = w.chars ++ rest' → v = w ∧ rest = rest') : Cancels v := by
  intro w rest rest' hr hr' heq
  refine h w rest rest' (Option.some.inj ?_) hr hr' heq
  rw [← leadShape_chars_append w rest', ← heq, leadShape_chars_append]

theorem cancels_bool (b : Bool) : Cancels (.bool b) := by
  refine .of_same_shape fun w rest rest' hshape _ _ heq => ?_
  cases w with
  | bool b' =>
    rw [chars_bool, chars_bool] at heq
    cases b <;> cases b' <;> simp_all [toString]
  | _ => cases hshape

/-- A sign is no digit, so that both numbers have one or neither. -/
theorem sign_append_inj {n m : Int} {k l : Nat}
    (h : (if n < 0 then ['-'] else []) ++ (Nat.toDigits 10 k ++ rest) =
      (if m < 0 then ['-'] else []) ++ (Nat.toDigits 10 l ++ rest')) :
    (n < 0 ↔ m < 0) ∧ Nat.toDigits 10 k ++ rest = Nat.toDigits 10 l ++ rest' := by
  have hsign (k : Nat) (more after : List Char) : Nat.toDigits 10 k ++ more ≠ '-' :: after := by
    obtain ⟨c, cs, hdigits, hc⟩ := exists_digit k
    intro h
    rw [hdigits] at h
    rw [(List.cons.inj h).1] at hc
    cases hc
  by_cases hn : n < 0 <;> by_cases hm : m < 0
  · simpa [hn, hm] using h
  · rw [if_pos hn, if_neg hm] at h
    exact absurd h.symm (hsign _ _ _)
  · rw [if_neg hn, if_pos hm] at h
    exact absurd h (hsign _ _ _)
  · simpa [hn, hm] using h

theorem cancels_int (n : Int) : Cancels (.int n) := by
  refine .of_same_shape fun w rest rest' hshape hr hr' heq => ?_
  cases w with
  | int m =>
    rw [chars_int, chars_int, List.append_assoc, List.append_assoc] at heq
    obtain ⟨hsign, hdigits⟩ := sign_append_inj heq
    obtain ⟨habs, hrest⟩ := Text.toDigits_append_inj hr hr' hdigits
    have hnm : n = m := by omega
    exact ⟨congrArg Value.int hnm, hrest⟩
  | _ => cases hshape

theorem cancels_str (s : String) : Cancels (.str s) := by
  refine .of_same_shape fun w rest rest' hshape _ _ heq => ?_
  cases w with
  | str s' =>
    rw [chars_str, chars_str] at heq
    obtain ⟨hchars, hrest⟩ := Text.quoteChars_append_inj heq
    exact ⟨congrArg Value.str (String.toList_inj.1 hchars), hrest⟩
  | _ => cases hshape

theorem charsRest_append_inj (h : ∀ v ∈ vs, Cancels v)
    (heq : charsRest vs ++ rest = charsRest ws ++ rest') : vs = ws ∧ rest = rest' := by
  induction vs generalizing ws with
  | nil =>
    cases ws with
    | nil => exact ⟨rfl, by simpa [charsRest] using heq⟩
    | cons w ws => simp [charsRest] at heq
  | cons v vs ih =>
    cases ws with
    | nil => simp [charsRest] at heq
    | cons w ws =>
      obtain ⟨hcancels, h⟩ := List.forall_mem_cons.1 h
      have heq : v.chars ++ (charsRest vs ++ rest) = w.chars ++ (charsRest ws ++ rest') := by
        simpa [charsRest] using heq
      obtain ⟨rfl, hmore⟩ :=
        hcancels w _ _ (ends_charsRest vs rest) (ends_charsRest ws rest') heq
      obtain ⟨rfl, hrest⟩ := ih h hmore
      exact ⟨rfl, hrest⟩

theorem charsItems_append_inj (h : ∀ v ∈ vs, Cancels v)
    (heq : charsItems vs ++ rest = charsItems ws ++ rest') : vs = ws ∧ rest = rest' := by
  cases vs with
  | nil =>
    cases ws with
    | nil => exact ⟨rfl, by simpa [charsItems] using heq⟩
    | cons w ws =>
      rw [charsItems, charsItems, List.append_assoc] at heq
      exact absurd heq.symm (chars_append_ne_brace w _ _)
  | cons v vs =>
    cases ws with
    | nil =>
      rw [charsItems, charsItems, List.append_assoc] at heq
      exact absurd heq (chars_append_ne_brace v _ _)
    | cons w ws =>
      -- after the opening brace all goes as after a comma
      refine charsRest_append_inj h ?_
      simpa [charsItems, charsRest] using heq

theorem cancels_list (h : ∀ v ∈ vs, Cancels v) : Cancels (.list vs) := by
  refine .of_same_shape fun w rest rest' hshape _ _ heq => ?_
  cases w with
  | list ws =>
    rw [chars_list, chars_list, List.cons_append, List.cons_append, List.cons.injEq] at heq
    obtain ⟨rfl, hrest⟩ := charsItems_append_inj h heq.2
    exact ⟨rfl, hrest⟩
  | _ => cases hshape

/-- **Every value can be read off any text that begins with it.** -/
theorem cancels (v : Value) : Cancels v := by
  induction v with
  | bool b => exact cancels_bool b
  | int n => exact cancels_int n
  | str s => exact cancels_str s
  | list vs ih => exact cancels_list ih

/-- **The text of a value is unambiguous**: different values have different texts. -/
theorem text_inj : v.text = w.text ↔ v = w := by
  refine ⟨fun h => ?_, congrArg text⟩
  have hnothing : Ends [] := by simp [Ends]
  have hchars : v.chars ++ [] = w.chars ++ [] := by
    rw [chars, chars, h]
  exact (cancels v w [] [] hnothing hnothing hchars).1

-- One item that spells two keeps its inner quotes apart from those around it.
example : (list [.str "a\", \"b"]).text = "\x7b\"a\\\", \\\"b\"\x7d" ∧
    (list [.str "a", .str "b"]).text = "\x7b\"a\", \"b\"\x7d" := by decide +kernel

end Wiring.Annotation.Value
