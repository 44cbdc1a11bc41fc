import Wiring.Decimal.Binary64
import Wiring.Decimal.Positional
/-!
# The shortest decimals

Of the decimal fractions that are read as a given binary number, the text of the number has one
with the fewest digits, and among these the nearest. The fractions that are read as the number
form an interval, which reaches half way to its two neighbours; the search goes through the
multiples of powers of ten, from coarse to fine, until one lies in the interval.
-/

namespace Wiring.Decimal

/-- The fraction `digits * 10 ^ exponent`. -/
structure Fraction where
  digits : Nat
  exponent : Int
deriving DecidableEq, Inhabited, Repr

/-- A point and an interval around it, all in units of `2 ^ exponent`. -/
structure Target where
  low : Nat
  point : Nat
  high : Nat
  /-- Whether the ends belong to the interval. -/
  closed : Bool
  exponent : Int
deriving DecidableEq, Repr

namespace Target

/-- What is read as `m * 2 ^ e`, in quarters of a unit. Below a power of two the numbers are
closer together, and a number with an even mantissa has the ends of its interval. -/
def ofNumber (m : Nat) (e : Int) : Target where
  low :=
    if m = Nat.pow 2 (Binary64.precision - 1) ∧ e > Binary64.minExponent then 4 * m - 1
    else 4 * m - 2
  point := 4 * m
  high := 4 * m + 2
  closed := m % 2 = 0
  exponent := e - 2

/-- Factors that make units of the target and units of `10 ^ k` whole numbers of one unit. -/
def factors (t : Target) (k : Int) : Nat × Nat :=
  (Nat.pow 2 t.exponent.toNat * Nat.pow 10 (-k).toNat,
    Nat.pow 2 (-t.exponent).toNat * Nat.pow 10 k.toNat)

/-- Whether `d * 10 ^ k` lies in the interval. -/
def holds (t : Target) (d : Nat) (k : Int) : Bool :=
  let (unit, ten) := t.factors k
  let x := d * ten
  if t.closed then t.low * unit ≤ x && x ≤ t.high * unit
  else t.low * unit < x && x < t.high * unit

/-- The positive multiple of `10 ^ k` in the interval that is nearest to the point, the greater
one of two equally near. -/
def nearest? (t : Target) (k : Int) : Option Nat :=
  let (unit, ten) := t.factors k
  let below := t.point * unit / ten
  let distances := compare (t.point * unit - below * ten) ((below + 1) * ten - t.point * unit)
  match decide (0 < below) && t.holds below k, t.holds (below + 1) k with
  | false, false => none
  | true, false => some below
  | false, true => some (below + 1)
  | true, true => some (if distances = .lt then below else below + 1)

/-- The fraction on the coarsest of the grids `10 ^ (finest + n), …, 10 ^ finest` that has one. The
point itself, in whole units of the finest grid, is what remains if no coarser grid has one. -/
def search (t : Target) (finest : Int) : Nat → Fraction
  | 0 => ⟨t.point * (t.factors finest).1 / (t.factors finest).2, finest⟩
  | n + 1 =>
    match t.nearest? (finest + (n + 1)) with
    | some d => ⟨d, finest + (n + 1)⟩
    | none => search t finest n

/-- The shortest fraction for the number `m * 2 ^ e`. No number is as large as `10 ^ 309`, and all
are whole multiples of the finest grid. -/
def shortest (m : Nat) (e : Int) : Fraction :=
  if m = 0 then ⟨0, 0⟩
  else
    let finest := min e 0
    (ofNumber m e).search finest (309 - finest).toNat

end Target

namespace Fraction

/-- All digits up to the units, and at least one place. -/
def text (f : Fraction) : String :=
  if f.exponent < 0 then positional f.digits (-f.exponent).toNat
  else positional (f.digits * Nat.pow 10 (f.exponent + 1).toNat) 1

end Fraction

end Wiring.Decimal

namespace Wiring.Binary64

/-- The text of a number: the shortest digits that are read as it, always with a point. -/
def text : Binary64 → String
  | .nan => "NaN"
  | .infinite negative => (if negative then "-" else "") ++ "inf"
  | .finite negative m e =>
    (if negative then "-" else "") ++ (Decimal.Target.shortest m e).text

end Wiring.Binary64
