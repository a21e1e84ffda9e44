import AutomataKit.Binary64.Basic

/-!
# The fewest decimal digits that read back

A positive size is written with the least number of significant decimal digits from which
rounding recovers it. Among the texts with that many digits the nearest is taken, and of two
equally near ones the one whose last digit is even. If a decimal grid has a point that reads
back, so does one of the two points next to the size itself, so only those two are tried on each
grid.
-/

namespace AutomataKit

namespace Binary64

/-- A positive decimal number `digits * 10 ^ exponent`. -/
structure Decimal where
  digits : Nat
  exponent : Int
  deriving DecidableEq, Repr

/-- The number of decimal digits of a number. -/
def decimalLength (value : Nat) : Nat := (Nat.toDigits 10 value).length

/-- The distance down to the midpoint with the next smaller number, in quarters of a unit. A power
of two has a closer neighbour below than above, unless the spacing there is already the smallest.
-/
def gapBelow (units : Nat) : Nat :=
  if units = Nat.pow 2 units.log2 ∧ 52 < units.log2 then spacing units else 2 * spacing units

/-- Whether `point / scale` units round to the given size: the point lies between the midpoints to
the neighbouring numbers, which themselves belong when the size is an even multiple of its
spacing. -/
def readsBack (units scale point : Nat) : Bool :=
  let lower := (4 * units - gapBelow units) * scale
  let upper := (4 * units + 2 * spacing units) * scale
  if units / spacing units % 2 = 0 then lower ≤ 4 * point && 4 * point ≤ upper
  else lower < 4 * point && 4 * point < upper

/-- The better of the two neighbours of a size on the grid of multiples of `10 ^ exponent`, if one
of them reads back. -/
def onGrid? (units : Nat) (exponent : Int) : Option Nat :=
  let scale := Nat.pow 10 (-exponent).toNat
  let step := Nat.pow 10 exponent.toNat * unitsPerOne
  let size := units * scale
  let below := size / step
  let above := below + 1
  match readsBack units scale (below * step), readsBack units scale (above * step) with
  | true, false => some below
  | false, true => some above
  | false, false => none
  | true, true =>
    let fromBelow := size - below * step
    let toAbove := above * step - size
    if fromBelow < toAbove ∨ (fromBelow = toAbove ∧ below % 2 = 0) then some below
    else some above

def leadingExponent (units : Nat) : Int :=
  (decimalLength (units * Nat.pow 10 324 / unitsPerOne) : Int) - 325

/-- Drop the zeros at the end of a decimal number, counting each in the exponent. -/
def Decimal.trim (number : Decimal) : Decimal :=
  let shown := (Nat.toDigits 10 number.digits).reverse
  let zeros := (shown.takeWhile (· == '0')).length
  if number.digits = 0 then number
  else ⟨number.digits / Nat.pow 10 zeros, number.exponent + zeros⟩

/-- The shortest decimal number that rounds to a positive size, searched on the grids of one digit,
of two digits and so on. Seventeen digits always suffice. -/
def shortest (units : Nat) : Decimal :=
  let lead := leadingExponent units
  let grids := (List.range 17).map fun (more : Nat) => lead - Int.ofNat more
  match grids.findSome? fun exponent => (onGrid? units exponent).map (Decimal.mk · exponent) with
  | some number => number.trim
  | none => ⟨units, 0⟩

end Binary64

end AutomataKit
