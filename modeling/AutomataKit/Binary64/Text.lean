import AutomataKit.Binary64.Shortest

/-!
# Writing floating-point numbers

A finite number is written with the fewest digits that read back. The point stands in its place
when the first digit has an exponent from -4 to 15, and a whole number then ends in `.0`;
otherwise the digits are followed by a signed exponent of at least two digits.
-/

namespace AutomataKit

namespace Binary64

/-- An exponent with its sign and at least two digits. -/
def exponentText (exponent : Int) : String :=
  let size := toString exponent.natAbs
  let padded := if size.length < 2 then "0" ++ size else size
  (if exponent < 0 then "-" else "+") ++ padded

/-- The text of a decimal number, positional or with an exponent. -/
def Decimal.text (number : Decimal) : String :=
  let digits := Nat.toDigits 10 number.digits
  let lead := number.exponent + digits.length - 1
  if lead < -4 ∨ 15 < lead then
    let mantissa := match digits with
      | first :: next :: rest => String.ofList (first :: '.' :: next :: rest)
      | digits => String.ofList digits
    mantissa ++ "e" ++ exponentText lead
  else if lead < 0 then
    "0." ++ String.ofList (List.replicate (-lead - 1).toNat '0' ++ digits)
  else
    let whole := lead.toNat + 1
    let padded := digits ++ List.replicate (whole - digits.length) '0'
    let fraction := padded.drop whole
    String.ofList (padded.take whole) ++ "." ++
      (if fraction.isEmpty then "0" else String.ofList fraction)

/-- The text of a floating-point number, given the words for the numbers that are not finite. -/
def text (infinity notANumber : String) : Binary64 → String
  | .notANumber => notANumber
  | .infinite negative => if negative then "-" ++ infinity else infinity
  | .finite negative units =>
    let size := if units = 0 then "0.0" else (shortest units).text
    if negative then "-" ++ size else size

end Binary64

end AutomataKit
