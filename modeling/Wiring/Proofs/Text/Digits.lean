import Wiring.Text.Digits
/-!
# Numbers read back

A number is the value of its digits (`valueOf_toDigits`). In a longer text they end where the first
other character stands, so that a number can be read off any text that begins with it
(`toDigits_append_inj`).
-/

namespace Wiring.Text

variable {base n m : Nat} {rest rest' : List Char}

theorem digitValue_digitChar : ∀ d < 16, digitValue (Nat.digitChar d) = d := by
  decide

theorem mem_toDigits {c : Char} (hb : 1 < base) (hc : c ∈ Nat.toDigits base n) :
    ∃ d < base, c = Nat.digitChar d := by
  -- the number without its last digit is smaller
  induction n using Nat.strongRecOn with
  | ind n ih =>
    by_cases hn : n < base
    · rw [Nat.toDigits_of_lt_base hn, List.mem_singleton] at hc
      exact ⟨n, hn, hc⟩
    · have hle : base ≤ n := by omega
      rw [Nat.toDigits_of_base_le hb hle, List.mem_append, List.mem_singleton] at hc
      rcases hc with hc | hc
      · exact ih (n / base) (Nat.div_lt_self (by omega) hb) hc
      · exact ⟨n % base, Nat.mod_lt n (by omega), hc⟩

/-- **The value of the digits of a number is the number.** -/
theorem valueOf_toDigits (hb : 1 < base) (hb' : base ≤ 16) (n : Nat) :
    valueOf base (Nat.toDigits base n) = n := by
  induction n using Nat.strongRecOn with
  | ind n ih =>
    by_cases hn : n < base
    · rw [Nat.toDigits_of_lt_base hn]
      simpa [valueOf] using digitValue_digitChar n (by omega)
    · have hle : base ≤ n := by omega
      have hlast : n % base < base := Nat.mod_lt n (by omega)
      rw [Nat.toDigits_of_base_le hb hle, valueOf_concat,
        ih (n / base) (Nat.div_lt_self (by omega) hb), digitValue_digitChar _ (by omega)]
      exact Nat.div_add_mod n base

/-- What all of a list satisfies, and nothing that follows it, ends where the list does. -/
theorem takeWhile_append_stop {p : Char → Bool} {cs : List Char} (hcs : ∀ c ∈ cs, p c = true)
    (hrest : ∀ c ∈ rest.head?, p c = false) : (cs ++ rest).takeWhile p = cs := by
  have hnone : rest.takeWhile p = [] := by
    cases rest with
    | nil => rfl
    | cons c rest => simp [hrest c rfl]
  rw [List.takeWhile_append_of_pos hcs, hnone, List.append_nil]

/-- A number ends where the digits do. -/
theorem toDigits_append_inj (hrest : ∀ c ∈ rest.head?, c.isDigit = false)
    (hrest' : ∀ c ∈ rest'.head?, c.isDigit = false)
    (h : Nat.toDigits 10 n ++ rest = Nat.toDigits 10 m ++ rest') : n = m ∧ rest = rest' := by
  have hdigits (n : Nat) : ∀ c ∈ Nat.toDigits 10 n, c.isDigit = true := fun c hc =>
    Nat.isDigit_of_mem_toDigits (by decide) (by decide) hc
  have hsame : Nat.toDigits 10 n = Nat.toDigits 10 m := by
    rw [← takeWhile_append_stop (hdigits n) hrest, h, takeWhile_append_stop (hdigits m) hrest']
  have hvalue (k : Nat) : valueOf 10 (Nat.toDigits 10 k) = k :=
    valueOf_toDigits (by decide) (by decide) k
  refine ⟨?_, ?_⟩
  · rw [← hvalue n, hsame, hvalue m]
  · rw [hsame] at h
    exact List.append_cancel_left h

end Wiring.Text
