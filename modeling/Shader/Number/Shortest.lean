import Shader.Number.Format

/-!
# The fewest digits that read back

Every decimal number close enough to a floating-point value reads back as that value.  Of these
`shortest` takes one with the fewest digits, and among those the one nearest to the value; of two
equally near the larger.

The search goes from coarse to fine decimal grids `10 ^ e`.  On each grid only the two neighbours
of the value matter, and all comparisons are between natural numbers.
-/

namespace Shader.Number

/-- The number `digits · 10 ^ exponent`. -/
structure Decimal where
  digits : Nat
  exponent : Int
deriving DecidableEq, Repr

/-- A positive number `value / unit` with the distances, in the same unit, to the two ends of the
interval of numbers that read back as it. -/
structure Interval where
  value : Nat
  unit : Nat
  below : Nat
  above : Nat
  /-- The ends themselves read back. -/
  closed : Bool

namespace Interval

/-- The interval around `mantissa · 2 ^ exponent`.  The ends lie halfway to the neighbours; the
neighbour below a power of two is half as far as the one above. -/
def around (f : Format) (mantissa : Nat) (exponent : Int) : Interval :=
  let scale := 1 <<< (exponent - 2).toNat
  { value := 4 * mantissa * scale
    unit := 1 <<< (2 - exponent).toNat
    below := (if mantissa == 1 <<< f.fractionBits then 1 else 2) * scale
    above := 2 * scale
    closed := mantissa % 2 == 0 }

/-- The distance does not leave the interval. -/
def within (i : Interval) (distance bound : Nat) : Bool :=
  if i.closed then distance ≤ bound else distance < bound

/-- The number on the grid `10 ^ e` that reads back, if there is one. -/
def onGrid (i : Interval) (e : Int) : Option Decimal :=
  let finer := Nat.pow 10 (-e).toNat
  let value := i.value * finer
  let step := i.unit * Nat.pow 10 e.toNat
  let floor := value / step
  let rest := value % step
  let down := floor != 0 && i.within rest (i.below * finer)
  let up := i.within (step - rest) (i.above * finer)
  if down && (!up || 2 * rest < step) then some ⟨floor, e⟩
  else if up then some ⟨floor + 1, e⟩
  else none

/-- A grid too coarse to hold the value. -/
def coarse (i : Interval) : Int := (decimalLength i.value : Int) - decimalLength i.unit + 1
where
  decimalLength (n : Nat) : Nat := (Nat.toDigits 10 n).length

end Interval

/-- The shortest decimal that reads back as `mantissa · 2 ^ exponent` in the format.  Seventeen
digits always suffice, and the search starts at most three grids above the first digit. -/
def shortest (f : Format) (mantissa : Nat) (exponent : Int) : Decimal :=
  let i := Interval.around f mantissa exponent
  ((List.range 21).findSome? fun (n : Nat) => i.onGrid (i.coarse - n)).getD ⟨0, 0⟩

end Shader.Number
