/-!
# Binary numbers of 64 bits

A finite number is a mantissa below `2 ^ 53` times a power of two from `2 ^ -1074` to `2 ^ 971`.
A decimal fraction is read as the nearest such number, and of two equally near ones as that with
the even mantissa. What is too large for all of them is infinite.
-/

namespace Wiring

/-- A binary number of 64 bits, `mantissa * 2 ^ exponent` with a sign if it is finite. -/
inductive Binary64 where
  | nan
  | infinite (negative : Bool)
  | finite (negative : Bool) (mantissa : Nat) (exponent : Int)
deriving DecidableEq, Inhabited, Repr

namespace Binary64

/-- A mantissa has this many bits. -/
def precision : Nat := 53

def minExponent : Int := -1074

def maxExponent : Int := 971

/-! ## Rounding -/

/-- The nearest natural number to a fraction, the even one of two equally near. -/
def roundDiv (num den : Nat) : Nat :=
  let q := num / den
  match compare (2 * (num % den)) den with
  | .lt => q
  | .gt => q + 1
  | .eq => if q % 2 = 0 then q else q + 1

/-- The fraction divided by `2 ^ exponent`, as a fraction. -/
def scale (num den : Nat) (exponent : Int) : Nat × Nat :=
  (num * Nat.pow 2 (-exponent).toNat, den * Nat.pow 2 exponent.toNat)

/-- The exponent at which the fraction has a mantissa of full precision, if it is in range. -/
def exponentFor (num den : Nat) : Int :=
  let high : Int := num.log2 - den.log2 - (precision - 1 : Nat)
  let (n, d) := scale num den high
  max minExponent (if n / d < Nat.pow 2 (precision - 1) then high - 1 else high)

/-- The nearest number to a fraction. -/
def ofFraction (negative : Bool) (num den : Nat) : Binary64 :=
  let e := exponentFor num den
  let (n, d) := scale num den e
  let m := roundDiv n d
  let (m, e) := if m = Nat.pow 2 precision then (Nat.pow 2 (precision - 1), e + 1) else (m, e)
  if e > maxExponent then .infinite negative else .finite negative m e

/-- The nearest number to `digits * 10 ^ exponent`. Beyond the first 400 places on either side of
the point the number is infinite or zero, whatever its digits. -/
def ofDecimal (negative : Bool) (digits : Nat) (exponent : Int) : Binary64 :=
  let places := exponent + (Nat.toDigits 10 digits).length
  if digits = 0 ∨ places < -400 then .finite negative 0 minExponent
  else if places > 400 then .infinite negative
  else ofFraction negative (digits * Nat.pow 10 exponent.toNat)
    (Nat.pow 10 (-exponent).toNat)

end Binary64

end Wiring
