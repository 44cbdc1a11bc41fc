import Wiring.Proofs.Text.Digits
import Wiring.Proofs.Ty.Parts
import Wiring.Ty.Text
/-!
# The text of a type can be read back

Texts name classes and variables by their numbers and have no brackets around bounds and array
components. They are read from the left all the same: where the text of one type goes on with
something that can follow a type, and so does that of another, the types are equal and what follows is
(`Cancels`). Array layers are read last, for they stand at the end (`Cancels.of_element`). It takes
types in which the text of a wildcard is not followed by a bracket or by the keyword of a bound
(`Legible`).
-/

namespace Wiring

namespace Ty

variable {t u e e' a : Ty} {ts us : List Ty} {rest rest' : List Char} {o o' : Option Ty}

/-- A part of a legible type: it has no intersections, and wildcards only among the arguments of
declared types. -/
structure LegiblePart (t : Ty) : Prop where
  noIntersection : ∀ u ∈ t.parts, u.kind ≠ .intersection
  wildcardsAreArgs : ∀ u ∈ t.parts, u.kind ≠ .declared → ∀ a ∈ u.children, a.kind ≠ .wildcard

/-- The type has no intersections, and its wildcards are arguments of declared types: none is the type
itself, an array component or the bound of a wildcard. -/
structure Legible (t : Ty) : Prop extends LegiblePart t where
  notWildcard : t.kind ≠ .wildcard

namespace LegiblePart

theorem of_mem_children (h : LegiblePart t) (hu : u ∈ t.children) : LegiblePart u where
  noIntersection v hv := h.noIntersection v (parts_subset_of_mem (mem_parts_of_mem_children hu) hv)
  wildcardsAreArgs v hv :=
    h.wildcardsAreArgs v (parts_subset_of_mem (mem_parts_of_mem_children hu) hv)

theorem kind_ne_intersection (h : LegiblePart t) : t.kind ≠ .intersection :=
  h.noIntersection t t.self_mem_parts

/-- Bounds and array components are no wildcards. -/
theorem kind_ne_wildcard (h : LegiblePart t) (hk : t.kind ≠ .declared) (hu : u ∈ t.children) :
    u.kind ≠ .wildcard :=
  h.wildcardsAreArgs t t.self_mem_parts hk u hu

end LegiblePart

/-! ## The text, letter by letter -/

/-- The letters of the text of a type. -/
def chars (t : Ty) : List Char := t.text.toList

/-- The letters of further arguments, to the closing bracket. -/
def charsRest : List Ty → List Char
  | [] => ['>']
  | t :: ts => ',' :: ' ' :: (t.chars ++ charsRest ts)

/-- The letters of all arguments with their brackets, if there are any. -/
def charsArgs : List Ty → List Char
  | [] => []
  | t :: ts => '<' :: (t.chars ++ charsRest ts)

def charsBound (keyword : List Char) : Option Ty → List Char
  | none => []
  | some t => keyword ++ t.chars

/-- The letters of `n` array layers. -/
def brackets : Nat → List Char
  | 0 => []
  | n + 1 => '[' :: ']' :: brackets n

theorem chars_primitive (p : Primitive) : (primitive p).chars = p.keyword.toList := by
  simp [chars, text, render]

theorem chars_array (t : Ty) : (array t).chars = t.chars ++ ['[', ']'] := by
  simp [chars, text, render]

theorem chars_var (v : TypeVarId) :
    (var v).chars = 'T' :: '#' :: Nat.toDigits 10 v.raw.toNat := by
  simp [chars, text, render, TypeVarId.text]

theorem charsRest_eq (ts : List Ty) :
    charsRest ts = (renderRest ClassId.text TypeVarId.text ", " ts).toList ++ ['>'] := by
  induction ts with
  | nil => simp [charsRest, renderRest]
  | cons t ts ih => simp [charsRest, renderRest, chars, text, ih]

theorem chars_declared (c : ClassId) (ts : List Ty) :
    (declared c ts).chars =
      "class#".toList ++ (Nat.toDigits 10 c.raw.toNat ++ charsArgs ts) := by
  cases ts with
  | nil => simp [chars, text, render, ClassId.text, charsArgs]
  | cons t ts => simp [chars, text, render, ClassId.text, charsArgs, charsRest_eq]

theorem charsBound_eq (keyword : String) (o : Option Ty) :
    charsBound keyword.toList o = (renderBound ClassId.text TypeVarId.text keyword o).toList := by
  cases o <;> simp [charsBound, renderBound, chars, text]

theorem chars_wildcard (upper lower : Option Ty) :
    (wildcard upper lower).chars =
      '?' :: (charsBound " extends ".toList upper ++ charsBound " super ".toList lower) := by
  rw [charsBound_eq, charsBound_eq]
  simp [chars, text, render]

theorem brackets_concat (n : Nat) : brackets n ++ ['[', ']'] = brackets (n + 1) := by
  induction n with
  | zero => rfl
  | succ n ih =>
    rw [brackets, List.cons_append, List.cons_append, ih]
    rfl

theorem chars_arrayOf (t : Ty) (n : Nat) : (t.arrayOf n).chars = t.chars ++ brackets n := by
  induction n with
  | zero => simp [arrayOf, brackets]
  | succ n ih => rw [arrayOf, chars_array, ih, List.append_assoc, brackets_concat]

theorem exists_arrayOf (t : Ty) : ∃ n, t = t.element.arrayOf n := by
  induction t with
  | array t ih =>
    obtain ⟨n, hn⟩ := ih
    exact ⟨n + 1, congrArg array hn⟩
  | _ => exact ⟨0, rfl⟩

theorem kind_element_ne_array (t : Ty) : t.element.kind ≠ .array := by
  induction t with
  | array t ih => exact ih
  | _ => exact nofun

theorem LegiblePart.element (h : LegiblePart t) : LegiblePart t.element := by
  induction t with
  | array t ih => exact ih (h.of_mem_children (by simp [children]))
  | _ => exact h

/-- Below array layers stands no wildcard. -/
theorem LegiblePart.element_ne_wildcard (h : LegiblePart t) (hne : t.element ≠ t) :
    t.element.kind ≠ .wildcard := by
  induction t with
  | array t ih =>
    by_cases ht : t.element = t
    · rw [element_array, ht]
      exact h.kind_ne_wildcard (by simp [kind]) (by simp [children])
    · exact ih (h.of_mem_children (by simp [children])) ht
  | _ => exact absurd rfl hne

/-! ## What follows a type -/

/-- The letters may follow the text of this type: nothing, what goes on after an argument, or, unless
the type is a wildcard, an array layer or the keyword of a bound. -/
def Follows (t : Ty) (rest : List Char) : Prop :=
  ∀ c ∈ rest.head?, c = ',' ∨ c = '>' ∨ t.kind ≠ .wildcard ∧ (c = '[' ∨ c = ' ')

/-- The type can be read off any text that begins with it: no other type that is no array can take
its place. -/
def Cancels (e : Ty) : Prop :=
  ∀ e' rest rest', LegiblePart e → LegiblePart e' → e'.kind ≠ .array → Follows e rest →
    Follows e' rest' → e.chars ++ rest = e'.chars ++ rest' → e = e' ∧ rest = rest'

theorem Follows.nil (t : Ty) : Follows t [] := by
  simp [Follows]

theorem Follows.not_digit (h : Follows t rest) : ∀ c ∈ rest.head?, c.isDigit = false := by
  intro c hc
  rcases h c hc with rfl | rfl | ⟨-, rfl | rfl⟩ <;> rfl

theorem Follows.charsArgs_not_digit (h : Follows t rest) (ts : List Ty) :
    ∀ c ∈ (charsArgs ts ++ rest).head?, c.isDigit = false := by
  cases ts with
  | nil => exact h.not_digit
  | cons t ts => simp [charsArgs]

theorem follows_charsRest (t : Ty) (ts : List Ty) (rest : List Char) :
    Follows t (charsRest ts ++ rest) := by
  cases ts <;> simp [Follows, charsRest]

/-- Array layers may follow, for their element is no wildcard. -/
theorem Follows.brackets {n : Nat} (h : Follows t rest) (ht : LegiblePart t)
    (hn : t = t.element.arrayOf n) : Follows t.element (brackets n ++ rest) := by
  cases n with
  | zero =>
    have ht : t.element = t := hn.symm
    rw [ht]
    exact h
  | succ n =>
    have hne : t.element ≠ t := by
      intro he
      have hk := t.kind_element_ne_array
      rw [he, hn] at hk
      exact hk rfl
    simp [Follows, Ty.brackets, ht.element_ne_wildcard hne]

theorem brackets_append_inj {n m : Nat} (hr : rest.head? ≠ some '[') (hr' : rest'.head? ≠ some '[')
    (h : brackets n ++ rest = brackets m ++ rest') : n = m ∧ rest = rest' := by
  induction n generalizing m with
  | zero =>
    cases m with
    | zero => exact ⟨rfl, h⟩
    | succ m =>
      have h : rest = '[' :: _ := h
      simp [h] at hr
  | succ n ih =>
    cases m with
    | zero =>
      have h : '[' :: _ = rest' := h
      simp [← h] at hr'
    | succ m =>
      obtain ⟨hnm, hrest⟩ := ih (m := m) (by simpa [brackets] using h)
      exact ⟨congrArg Nat.succ hnm, hrest⟩

/-! ## Reading a text from the left -/

/-- Array layers are read last, once what stands below them is read. -/
theorem Cancels.of_element (h : Cancels t.element) (ht : LegiblePart t) (hu : LegiblePart u)
    (hr : Follows t rest) (hr' : Follows u rest') (hb : rest.head? ≠ some '[')
    (hb' : rest'.head? ≠ some '[') (heq : t.chars ++ rest = u.chars ++ rest') :
    t = u ∧ rest = rest' := by
  have hlayers {t : Ty} {n : Nat} {rest : List Char} (hn : t = t.element.arrayOf n) :
      t.chars ++ rest = t.element.chars ++ (brackets n ++ rest) := by
    rw [← List.append_assoc, ← chars_arrayOf, ← hn]
  obtain ⟨n, hn⟩ := t.exists_arrayOf
  obtain ⟨m, hm⟩ := u.exists_arrayOf
  rw [hlayers hn, hlayers hm] at heq
  obtain ⟨he, hrest⟩ := h _ _ _ ht.element hu.element u.kind_element_ne_array
    (hr.brackets ht hn) (hr'.brackets hu hm) heq
  obtain ⟨hnm, hend⟩ := brackets_append_inj hb hb' hrest
  refine ⟨?_, hend⟩
  calc t = t.element.arrayOf n := hn
    _ = u.element.arrayOf m := by rw [he, hnm]
    _ = u := hm.symm

theorem charsRest_append_inj (h : ∀ t ∈ ts, Cancels t.element) (hts : ∀ t ∈ ts, LegiblePart t)
    (hus : ∀ u ∈ us, LegiblePart u) (heq : charsRest ts ++ rest = charsRest us ++ rest') :
    ts = us ∧ rest = rest' := by
  have hhead (ts : List Ty) (rest : List Char) : (charsRest ts ++ rest).head? ≠ some '[' := by
    cases ts <;> simp [charsRest]
  induction ts generalizing us with
  | nil =>
    cases us with
    | nil => exact ⟨rfl, by simpa [charsRest] using heq⟩
    | cons u us => simp [charsRest] at heq
  | cons t ts ih =>
    cases us with
    | nil => simp [charsRest] at heq
    | cons u us =>
      obtain ⟨ht, hts⟩ := List.forall_mem_cons.1 hts
      obtain ⟨hu, hus⟩ := List.forall_mem_cons.1 hus
      obtain ⟨hcancels, h⟩ := List.forall_mem_cons.1 h
      have heq : t.chars ++ (charsRest ts ++ rest) = u.chars ++ (charsRest us ++ rest') := by
        simpa [charsRest] using heq
      obtain ⟨hhere, hmore⟩ := hcancels.of_element ht hu (follows_charsRest t ts rest)
        (follows_charsRest u us rest') (hhead ts rest) (hhead us rest') heq
      obtain ⟨hthere, hrest⟩ := ih h hts hus hmore
      exact ⟨by rw [hhere, hthere], hrest⟩

theorem charsArgs_append_inj (h : ∀ t ∈ ts, Cancels t.element) (hts : ∀ t ∈ ts, LegiblePart t)
    (hus : ∀ u ∈ us, LegiblePart u) (hr : rest.head? ≠ some '<') (hr' : rest'.head? ≠ some '<')
    (heq : charsArgs ts ++ rest = charsArgs us ++ rest') : ts = us ∧ rest = rest' := by
  cases ts with
  | nil =>
    cases us with
    | nil => exact ⟨rfl, heq⟩
    | cons u us =>
      have heq : rest = '<' :: _ := heq
      simp [heq] at hr
  | cons t ts =>
    cases us with
    | nil =>
      have heq : '<' :: _ = rest' := heq
      simp [← heq] at hr'
    | cons u us =>
      -- after the opening bracket all goes as after a comma
      refine charsRest_append_inj h hts hus ?_
      simpa [charsArgs, charsRest] using heq

/-- What follows where a bound with this keyword may stand: the end of the argument, or the keyword
of the other bound. -/
structure AfterBound (keyword rest : List Char) : Prop where
  head : ∀ c ∈ rest.head?, c = ',' ∨ c = '>' ∨ c = ' '
  other : ¬ keyword <+: rest

/-- A bound is no wildcard, so that a blank after it belongs to the other bound. -/
theorem charsBound_append_inj {keyword : List Char} (h : ∀ t ∈ o, Cancels t.element)
    (ht : ∀ t ∈ o, LegiblePart t ∧ t.kind ≠ .wildcard)
    (ht' : ∀ t ∈ o', LegiblePart t ∧ t.kind ≠ .wildcard) (hr : AfterBound keyword rest)
    (hr' : AfterBound keyword rest')
    (heq : charsBound keyword o ++ rest = charsBound keyword o' ++ rest') :
    o = o' ∧ rest = rest' := by
  have hfollows {t : Ty} {rest : List Char} (ht : t.kind ≠ .wildcard)
      (hr : AfterBound keyword rest) : Follows t rest := fun c hc =>
    (hr.head c hc).imp_right fun h => h.imp_right fun h => ⟨ht, .inr h⟩
  have hbracket {rest : List Char} (hr : AfterBound keyword rest) : rest.head? ≠ some '[' :=
    fun h => by
      have hc := hr.head '[' h
      simp at hc
  cases o with
  | none =>
    cases o' with
    | none => exact ⟨rfl, heq⟩
    | some t' =>
      have heq : rest = keyword ++ t'.chars ++ rest' := heq
      exact absurd ⟨t'.chars ++ rest', by rw [heq, List.append_assoc]⟩ hr.other
  | some t =>
    cases o' with
    | none =>
      have heq : keyword ++ t.chars ++ rest = rest' := heq
      exact absurd ⟨t.chars ++ rest, by rw [← heq, List.append_assoc]⟩ hr'.other
    | some t' =>
      obtain ⟨hlt, hwt⟩ := ht t rfl
      obtain ⟨hlt', hwt'⟩ := ht' t' rfl
      have heq : t.chars ++ rest = t'.chars ++ rest' := by
        simpa [charsBound] using heq
      obtain ⟨hbound, hrest⟩ := (h t rfl).of_element hlt hlt' (hfollows hwt hr)
        (hfollows hwt' hr') (hbracket hr) (hbracket hr') heq
      exact ⟨congrArg some hbound, hrest⟩

/-- The kind of type, other than an array, whose text begins so. -/
def leadKind : List Char → TyKind
  | '?' :: _ => .wildcard
  | 'T' :: _ => .typeVariable
  | 'c' :: 'l' :: _ => .declared
  | _ => .primitive

theorem leadKind_chars_append (harray : e.kind ≠ .array) (hi : e.kind ≠ .intersection)
    (rest : List Char) : leadKind (e.chars ++ rest) = e.kind := by
  cases e with
  | primitive p =>
    rw [chars_primitive]
    cases p <;> rfl
  | declared c ts =>
    rw [chars_declared]
    rfl
  | var v =>
    rw [chars_var]
    rfl
  | wildcard upper lower =>
    rw [chars_wildcard]
    rfl
  | array t => exact absurd rfl harray
  | intersection ts => exact absurd rfl hi

/-- Only a type of the same kind can take the place of another. -/
theorem Cancels.of_same_kind (harray : e.kind ≠ .array)
    (h : ∀ e' rest rest', e'.kind = e.kind → LegiblePart e → LegiblePart e' → Follows e rest →
      Follows e' rest' → e.chars ++ rest = e'.chars ++ rest' → e = e' ∧ rest = rest') :
    Cancels e := by
  intro e' rest rest' he he' harray' hr hr' heq
  refine h e' rest rest' ?_ he he' hr hr' heq
  rw [← leadKind_chars_append harray' he'.kind_ne_intersection rest', ← heq,
    leadKind_chars_append harray he.kind_ne_intersection]

theorem keyword_append_inj {p q : Primitive}
    (h : p.keyword.toList ++ rest = q.keyword.toList ++ rest') : p = q ∧ rest = rest' := by
  have hpq : p = q := by
    cases p <;> cases q <;> first | rfl | simp [Primitive.keyword] at h
  subst hpq
  exact ⟨rfl, List.append_cancel_left h⟩

theorem cancels_primitive (p : Primitive) : Cancels (.primitive p) := by
  refine .of_same_kind nofun fun e' rest rest' hk _ _ _ _ heq => ?_
  cases e' with
  | primitive q =>
    rw [chars_primitive, chars_primitive] at heq
    obtain ⟨rfl, hrest⟩ := keyword_append_inj heq
    exact ⟨rfl, hrest⟩
  | _ => cases hk

theorem cancels_var (v : TypeVarId) : Cancels (.var v) := by
  refine .of_same_kind nofun fun e' rest rest' hk _ _ hr hr' heq => ?_
  cases e' with
  | var w =>
    rw [chars_var, chars_var] at heq
    obtain ⟨hraw, hrest⟩ := Text.toDigits_append_inj hr.not_digit hr'.not_digit (by simpa using heq)
    have hid : v = w := congrArg TypeVarId.mk (UInt32.toNat_inj.1 hraw)
    exact ⟨congrArg Ty.var hid, hrest⟩
  | _ => cases hk

theorem cancels_declared {c : ClassId} (h : ∀ t ∈ ts, Cancels t.element) :
    Cancels (.declared c ts) := by
  refine .of_same_kind nofun fun e' rest rest' hk he he' hr hr' heq => ?_
  have hopen {t : Ty} {rest : List Char} (hr : Follows t rest) : rest.head? ≠ some '<' := fun h => by
    have hc := hr '<' h
    simp at hc
  cases e' with
  | declared d us =>
    rw [chars_declared, chars_declared, List.append_assoc, List.append_assoc, List.append_assoc,
      List.append_assoc] at heq
    obtain ⟨hraw, hargs⟩ := Text.toDigits_append_inj (hr.charsArgs_not_digit ts)
      (hr'.charsArgs_not_digit us) (List.append_cancel_left heq)
    have hts : ∀ t ∈ ts, LegiblePart t := fun t ht => he.of_mem_children ht
    have hus : ∀ u ∈ us, LegiblePart u := fun u hu => he'.of_mem_children hu
    obtain ⟨hsame, hrest⟩ := charsArgs_append_inj h hts hus (hopen hr) (hopen hr') hargs
    have hid : c = d := congrArg ClassId.mk (UInt32.toNat_inj.1 hraw)
    exact ⟨by rw [hid, hsame], hrest⟩
  | _ => cases hk

section Wildcard

variable {upper lower : Option Ty}

/-- After a wildcard comes the end of the argument. -/
theorem Follows.afterBound (hr : Follows (.wildcard upper lower) rest) (keyword : List Char) :
    AfterBound (' ' :: keyword) rest := by
  have hend : ∀ c ∈ rest.head?, c = ',' ∨ c = '>' := by
    intro c hc
    rcases hr c hc with h | h | ⟨h, -⟩
    · exact .inl h
    · exact .inr h
    · exact absurd rfl h
  refine ⟨fun c hc => (hend c hc).imp_right .inl, ?_⟩
  rintro ⟨more, rfl⟩
  have hblank := hend ' ' rfl
  simp at hblank

theorem Follows.afterUpper (hr : Follows (.wildcard upper lower) rest) (o : Option Ty) :
    AfterBound " extends ".toList (charsBound " super ".toList o ++ rest) := by
  cases o with
  | none => exact hr.afterBound _
  | some t => exact ⟨by simp [charsBound], by simp [charsBound]⟩

theorem LegiblePart.bounds (h : LegiblePart (.wildcard upper lower)) :
    (∀ t ∈ upper, LegiblePart t ∧ t.kind ≠ .wildcard) ∧
      ∀ t ∈ lower, LegiblePart t ∧ t.kind ≠ .wildcard := by
  have hchild : ∀ t ∈ (Ty.wildcard upper lower).children, LegiblePart t ∧ t.kind ≠ .wildcard :=
    fun t ht => ⟨h.of_mem_children ht, h.kind_ne_wildcard (by simp [kind]) ht⟩
  refine ⟨fun t ht => hchild t ?_, fun t ht => hchild t ?_⟩
  · exact List.mem_append_left _ (Option.mem_toList.2 ht)
  · exact List.mem_append_right _ (Option.mem_toList.2 ht)

theorem cancels_wildcard (hu : ∀ t ∈ upper, Cancels t.element)
    (hl : ∀ t ∈ lower, Cancels t.element) : Cancels (.wildcard upper lower) := by
  refine .of_same_kind nofun fun e' rest rest' hk he he' hr hr' heq => ?_
  cases e' with
  | wildcard upper' lower' =>
    rw [chars_wildcard, chars_wildcard, List.cons_append, List.cons_append, List.append_assoc,
      List.append_assoc, List.cons.injEq] at heq
    obtain ⟨hupper, hmore⟩ := charsBound_append_inj hu he.bounds.1 he'.bounds.1
      (hr.afterUpper lower) (hr'.afterUpper lower') heq.2
    obtain ⟨hlower, hrest⟩ := charsBound_append_inj hl he.bounds.2 he'.bounds.2
      (hr.afterBound _) (hr'.afterBound _) hmore
    exact ⟨by rw [hupper, hlower], hrest⟩
  | _ => cases hk

end Wildcard

/-- **What stands below the array layers of a type is read off any text that begins with it.** -/
theorem cancels_element (t : Ty) : Cancels t.element := by
  -- not of the type itself: two texts that begin with it may go on with different array layers
  induction t with
  | primitive p => exact cancels_primitive p
  | array t ih => exact ih
  | declared c ts ih => exact cancels_declared ih
  | var v => exact cancels_var v
  | wildcard upper lower ihu ihl => exact cancels_wildcard ihu ihl
  | intersection ts _ => exact fun _ _ _ h => absurd rfl h.kind_ne_intersection

/-- **The text of a type is unambiguous**: types without intersections, with wildcards nowhere but
among the arguments of declared types, are equal if their texts are. -/
theorem eq_of_text_eq (ht : Legible t) (hu : Legible u) (h : t.text = u.text) : t = u := by
  have hchars : t.chars ++ [] = u.chars ++ [] := by
    rw [List.append_nil, List.append_nil, chars, chars, h]
  exact ((cancels_element t).of_element ht.toLegiblePart hu.toLegiblePart (.nil t) (.nil u) nofun
    nofun hchars).1

/-- A wildcard bounded by an array is told from everything else. -/
theorem eq_of_text_eq_arrayBound :
    let bound : Ty := .declared ⟨1⟩ []
    let t : Ty := .declared ⟨3⟩ [.wildcard (some (.array bound)) none]
    let u : Ty := .declared ⟨3⟩ [.wildcard (some (bound.arrayOf 1)) none]
    Legible t ∧ Legible u ∧ t.text = "class#3<? extends class#1[]>" ∧ t = u := by
  intro bound t u
  have ht : Legible t :=
    ⟨⟨by decide, by decide⟩, by decide⟩
  have htext : t.text = "class#3<? extends class#1[]>" := by decide
  exact ⟨ht, ht, htext, eq_of_text_eq ht ht rfl⟩

-- An array of wildcards is not legible: it has the text of a wildcard bounded by an array.
example : (Ty.array (.wildcard (some (.declared ⟨1⟩ [])) none)).text =
    (Ty.wildcard (some (.array (.declared ⟨1⟩ []))) none).text := by decide

end Ty

end Wiring
