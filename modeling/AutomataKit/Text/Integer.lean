/-!
# Whole numbers in running text

A decimal whole number may be surrounded by blanks, carry one sign, and part its digits by
single underscores. Its digits may be decimal digits of any script: each script has ten
consecutive code points, from zero to nine, and the table lists the zeros. A text with more than
`Text.digitLimit` digits is refused.
-/

namespace AutomataKit

namespace Text

/-- The greatest number of digits of a whole number that is read or written. -/
def digitLimit : Nat := 4300

/-- The code points of the digit zero in the scripts of the Unicode character database, version 14,
in increasing order. -/
def decimalZeros : List Nat := [
  0x30, 0x660, 0x6f0, 0x7c0, 0x966, 0x9e6, 0xa66, 0xae6, 0xb66, 0xbe6, 0xc66, 0xce6, 0xd66, 0xde6,
  0xe50, 0xed0, 0xf20, 0x1040, 0x1090, 0x17e0, 0x1810, 0x1946, 0x19d0, 0x1a80, 0x1a90, 0x1b50,
  0x1bb0, 0x1c40, 0x1c50, 0xa620, 0xa8d0, 0xa900, 0xa9d0, 0xa9f0, 0xaa50, 0xabf0, 0xff10, 0x104a0,
  0x10d30, 0x11066, 0x110f0, 0x11136, 0x111d0, 0x112f0, 0x11450, 0x114d0, 0x11650, 0x116c0,
  0x11730, 0x118e0, 0x11950, 0x11c50, 0x11d50, 0x11da0, 0x16a60, 0x16ac0, 0x16b50, 0x1d7ce,
  0x1d7d8, 0x1d7e2, 0x1d7ec, 0x1d7f6, 0x1e140, 0x1e2f0, 0x1e950, 0x1fbf0
]

/-- The value of a decimal digit of any script. -/
def decimalDigit? (c : Char) : Option Nat :=
  (decimalZeros.find? fun start => start ≤ c.toNat && c.toNat < start + 10).map (c.toNat - ·)

/-- Characters with the Unicode property `White_Space`. -/
def isBlank (c : Char) : Bool :=
  let point := c.toNat
  (0x9 ≤ point && point ≤ 0xd) || point == 0x20 || point == 0x85 || point == 0xa0 ||
    point == 0x1680 || (0x2000 ≤ point && point ≤ 0x200a) || point == 0x2028 || point == 0x2029 ||
    point == 0x202f || point == 0x205f || point == 0x3000

/-- A text without the blanks at either end. -/
def stripBlanks (text : List Char) : List Char :=
  ((text.dropWhile isBlank).reverse.dropWhile isBlank).reverse

/-- The values of a run of digits, in which single underscores may stand between two digits. -/
def digitValues? : List Char → Option (List Nat)
  | [] => none
  | c :: rest =>
    match decimalDigit? c, rest with
    | none, _ => none
    | some value, [] => some [value]
    | some value, '_' :: more => (digitValues? more).map (value :: ·)
    | some value, next :: more => (digitValues? (next :: more)).map (value :: ·)

/-- The number written by a run of decimal digit values, the most significant first. -/
def ofDigitValues (values : List Nat) : Nat :=
  values.foldl (fun number value => 10 * number + value) 0

/-- Read an unsigned whole number. -/
def readNat? (text : List Char) : Option Nat :=
  match digitValues? text with
  | some values => if values.length ≤ digitLimit then some (ofDigitValues values) else none
  | none => none

/-- Read a whole number with an optional sign and blanks around it. -/
def readInt? (text : String) : Option Int :=
  match stripBlanks text.toList with
  | '-' :: digits => (readNat? digits).map fun size => -(size : Int)
  | '+' :: digits => (readNat? digits).map Int.ofNat
  | digits => (readNat? digits).map Int.ofNat

end Text

end AutomataKit
