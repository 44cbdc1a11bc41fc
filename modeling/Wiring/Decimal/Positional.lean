/-!
# Positional text of decimal fractions

The fraction `n / 10 ^ places` written with all its places, and with a zero before the point if
it is below one.
-/

namespace Wiring.Decimal

/-- The digits of `n`, at least `width` of them. -/
def padded (width n : Nat) : List Char :=
  let digits := Nat.toDigits 10 n
  List.replicate (width - digits.length) '0' ++ digits

/-- The text of `n / 10 ^ places`, with a point if there are places. -/
def positional (n places : Nat) : String :=
  let digits := padded (places + 1) n
  let whole := digits.length - places
  let fraction := if places = 0 then [] else '.' :: digits.drop whole
  String.ofList (digits.take whole ++ fraction)

end Wiring.Decimal
