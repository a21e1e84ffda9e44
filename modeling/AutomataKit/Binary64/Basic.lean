/-!
# Binary floating-point numbers of 64 bits, as exact data

Every finite number of the format is a whole multiple of the smallest positive one, `2 ^ -1074`,
so a finite number is held as a sign and the count of such units. The format is reached through
`Binary64.nearest`, which rounds an exact quotient to the number nearest it, a tie going to the
even neighbour; all arithmetic is on natural numbers.
-/

namespace AutomataKit

/-- A 64-bit binary floating-point number. A finite number is its sign and its size, counted in
units of `2 ^ -1074`. -/
inductive Binary64 where
  | notANumber
  | infinite (negative : Bool)
  | finite (negative : Bool) (units : Nat)
  deriving DecidableEq, Repr

namespace Binary64

/-- How many of the smallest units make one: the exponent of two. -/
def unitExponent : Nat := 1074

/-- The number of units that make one. -/
def unitsPerOne : Nat := Nat.pow 2 unitExponent

/-- The units from which on a size is infinite, `2 ^ 1024`. -/
def overflow : Nat := Nat.pow 2 (1024 + unitExponent)

/-- The distance between neighbouring numbers at a size: the last of 53 significant binary
digits, and never less than one unit. -/
def spacing (units : Nat) : Nat := Nat.pow 2 (units.log2 - 52)

/-- The whole number nearest a quotient; of two equally near ones, the even one. -/
def roundQuotient (numerator denominator : Nat) : Nat :=
  let quotient := numerator / denominator
  let twiceRest := 2 * (numerator % denominator)
  if denominator < twiceRest ∨ (twiceRest = denominator ∧ quotient % 2 = 1) then quotient + 1
  else quotient

/-- The number nearest a quotient of units, with the given sign. -/
def nearest (negative : Bool) (numerator denominator : Nat) : Binary64 :=
  let step := spacing (numerator / denominator)
  let units := roundQuotient numerator (denominator * step) * step
  if overflow ≤ units then infinite negative else finite negative units

/-- The number nearest `digits * 10 ^ exponent`, with the given sign.

Exponents far outside the range of the format are decided by size alone: a whole number of digits
times `10 ^ 401` overflows, and one below `2 ^ (k + 1)` times `10 ^ -(401 + k)` vanishes. -/
def ofDecimal (negative : Bool) (digits : Nat) (exponent : Int) : Binary64 :=
  if digits = 0 then finite negative 0
  else if 400 < exponent then infinite negative
  else if exponent + digits.log2 < -400 then finite negative 0
  else
    match exponent with
    | .ofNat raised => nearest negative (digits * Nat.pow 10 raised * unitsPerOne) 1
    | .negSucc lowered => nearest negative (digits * unitsPerOne) (Nat.pow 10 (lowered + 1))

/-- Whether a number is zero, with either sign. -/
def isZero : Binary64 → Bool
  | finite _ units => units == 0
  | _ => false

/-- A finite number with its fraction dropped; the two kinds of number without one are told
apart. -/
inductive Truncation where
  | whole (value : Int)
  | infinite
  | notANumber
  deriving DecidableEq, Repr

/-- What remains of a number without its fraction. -/
def truncate : Binary64 → Truncation
  | notANumber => .notANumber
  | infinite _ => .infinite
  | finite negative units =>
    let whole : Int := (units / unitsPerOne : Nat)
    .whole (if negative then -whole else whole)

end Binary64

end AutomataKit
