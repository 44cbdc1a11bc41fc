import Mathlib.Tactic.SplitIfs
import Wiring.Proofs.Text.Digits
import Wiring.Text.Quoted
/-!
# Quoted text read back

Each escape can be read off any text that begins with it (`unescape?_escape`): after a backslash
stands a letter for one character, or the number of any, and all that stands without a backslash is
itself. Only the closing quote begins with a quote, so that a quoted text ends where it was closed,
whatever it holds (`quoteChars_append_inj`). Which characters are escaped by number plays no part.
-/

namespace Wiring.Text

variable {c d : Char} {cs ds rest rest' : List Char}

/-- The letters that stand for a character after a backslash. -/
def letters : List (Char × Char) := [
  ('"', '"'), ('\\', '\\'), ('t', '\t'), ('n', '\n'), ('r', '\r'), ('0', '\x00')]

/-- The character that is written at the start of a text, and what comes after it. -/
def unescape? : List Char → Option (Char × List Char)
  | '\\' :: 'u' :: '{' :: cs =>
    some (Char.ofNat (valueOf 16 (cs.takeWhile (· ≠ '}'))), (cs.dropWhile (· ≠ '}')).tail)
  | '\\' :: letter :: cs => (letters.lookup letter).map (·, cs)
  | c :: cs => some (c, cs)
  | [] => none

/-- **The three forms of an escape**: a letter, a number, or the character as it is. -/
theorem escape_cases (c : Char) :
    (∃ letter, (letter, c) ∈ letters ∧ escape c = ['\\', letter]) ∨ escape c = numbered c ∨
      c ≠ '"' ∧ c ≠ '\\' ∧ escape c = [c] := by
  unfold escape
  split_ifs with hquote hbackslash htab hline hreturn hzero hunseen
  · exact .inl ⟨'"', by simp [letters, hquote], rfl⟩
  · exact .inl ⟨'\\', by simp [letters, hbackslash], rfl⟩
  · exact .inl ⟨'t', by simp [letters, htab], rfl⟩
  · exact .inl ⟨'n', by simp [letters, hline], rfl⟩
  · exact .inl ⟨'r', by simp [letters, hreturn], rfl⟩
  · exact .inl ⟨'0', by simp [letters, hzero], rfl⟩
  · exact .inr (.inl rfl)
  · exact .inr (.inr ⟨hquote, hbackslash, rfl⟩)

theorem unescape?_letter {letter : Char} (h : (letter, c) ∈ letters) (rest : List Char) :
    unescape? ('\\' :: letter :: rest) = some (c, rest) := by
  simp only [letters, List.mem_cons, Prod.mk.injEq, List.not_mem_nil, or_false] at h
  rcases h with ⟨rfl, rfl⟩ | ⟨rfl, rfl⟩ | ⟨rfl, rfl⟩ | ⟨rfl, rfl⟩ | ⟨rfl, rfl⟩ | ⟨rfl, rfl⟩ <;> rfl

/-- The digits of a number end at the brace, which is none. -/
theorem unescape?_numbered (c : Char) (rest : List Char) :
    unescape? (numbered c ++ rest) = some (c, rest) := by
  have hdigits : ∀ x ∈ Nat.toDigits 16 c.toNat, decide (x ≠ '}') = true := by
    intro x hx
    obtain ⟨d, hd, rfl⟩ := mem_toDigits (by decide) hx
    exact (by decide : ∀ d < 16, decide (Nat.digitChar d ≠ '}') = true) d hd
  have hstop : ∀ x ∈ ('}' :: rest).head?, decide (x ≠ '}') = false := by simp
  have htake : (Nat.toDigits 16 c.toNat ++ '}' :: rest).takeWhile (· ≠ '}') =
      Nat.toDigits 16 c.toNat :=
    takeWhile_append_stop hdigits hstop
  have hdrop : (Nat.toDigits 16 c.toNat ++ '}' :: rest).dropWhile (· ≠ '}') = '}' :: rest := by
    rw [List.dropWhile_append_of_pos hdigits]
    simp
  have hvalue : valueOf 16 (Nat.toDigits 16 c.toNat) = c.toNat :=
    valueOf_toDigits (by decide) (by decide) c.toNat
  calc unescape? (numbered c ++ rest)
      = unescape? ('\\' :: 'u' :: '{' :: (Nat.toDigits 16 c.toNat ++ '}' :: rest)) := by
        simp [numbered]
    _ = some (Char.ofNat c.toNat, rest) := by
        rw [unescape?, htake, hdrop, hvalue]
        rfl
    _ = some (c, rest) := by rw [Char.ofNat_toNat]

theorem unescape?_self (h : c ≠ '\\') (rest : List Char) :
    unescape? (c :: rest) = some (c, rest) := by
  unfold unescape?
  split <;> simp_all

/-- **A written character can be read off any text that begins with it.** -/
theorem unescape?_escape (c : Char) (rest : List Char) :
    unescape? (escape c ++ rest) = some (c, rest) := by
  rcases escape_cases c with ⟨letter, hletter, h⟩ | h | ⟨-, hbackslash, h⟩
  · rw [h]
    exact unescape?_letter hletter rest
  · rw [h]
    exact unescape?_numbered c rest
  · rw [h]
    exact unescape?_self hbackslash rest

theorem escape_append_inj (h : escape c ++ rest = escape d ++ rest') : c = d ∧ rest = rest' := by
  have hread : some (c, rest) = some (d, rest') := by
    rw [← unescape?_escape c rest, h, unescape?_escape d rest']
  simpa using hread

/-- No written character is taken for the closing quote. -/
theorem escape_append_ne_quote (c : Char) (rest rest' : List Char) :
    escape c ++ rest ≠ '"' :: rest' := by
  rcases escape_cases c with ⟨letter, -, h⟩ | h | ⟨hquote, -, h⟩
  · simp [h]
  · simp [h, numbered]
  · simp [h, hquote]

theorem flatMap_escape_append_inj
    (h : cs.flatMap escape ++ '"' :: rest = ds.flatMap escape ++ '"' :: rest') :
    cs = ds ∧ rest = rest' := by
  induction cs generalizing ds with
  | nil =>
    cases ds with
    | nil => exact ⟨rfl, (List.cons.inj h).2⟩
    | cons d ds =>
      rw [List.flatMap_cons, List.append_assoc] at h
      exact absurd h.symm (escape_append_ne_quote d _ _)
  | cons c cs ih =>
    cases ds with
    | nil =>
      rw [List.flatMap_cons, List.append_assoc] at h
      exact absurd h (escape_append_ne_quote c _ _)
    | cons d ds =>
      rw [List.flatMap_cons, List.flatMap_cons, List.append_assoc, List.append_assoc] at h
      obtain ⟨rfl, hmore⟩ := escape_append_inj h
      obtain ⟨rfl, hrest⟩ := ih hmore
      exact ⟨rfl, hrest⟩

/-- **A quoted text can be read off any text that begins with it.** -/
theorem quoteChars_append_inj (h : quoteChars cs ++ rest = quoteChars ds ++ rest') :
    cs = ds ∧ rest = rest' := by
  refine flatMap_escape_append_inj ?_
  simpa [quoteChars] using h

end Wiring.Text
