/-!
# From bytes to text

A sequence of bytes is read as UTF-8, UTF-16 or UTF-32. A byte order mark decides and is
dropped; without one, the places of the zero bytes among the first four decide, because the
first two characters of a JSON text lie in the ASCII range. Bytes that the chosen encoding
cannot have written are refused.

A surrogate that stands alone is let through, although it is no character. U+FFFD takes its place,
and the text that is read does not count as whole (`Text.Decoded`).
-/

namespace AutomataKit

namespace Text

/-- The order of the bytes of a number of several bytes. -/
inductive ByteOrder where
  | bigEndian
  | littleEndian
  deriving DecidableEq, Repr

/-- An encoding of text as bytes. -/
inductive Encoding where
  | utf8
  | utf16 (order : ByteOrder)
  | utf32 (order : ByteOrder)
  deriving DecidableEq, Repr

/-- The encoding of a text without a byte order mark. -/
def Encoding.ofZeroBytes : List UInt8 → Encoding
  | 0 :: 0 :: _ :: _ :: _ => .utf32 .bigEndian
  | 0 :: _ :: _ :: _ :: _ => .utf16 .bigEndian
  | _ :: 0 :: 0 :: 0 :: _ => .utf32 .littleEndian
  | _ :: 0 :: _ :: _ :: _ => .utf16 .littleEndian
  | [0, _] => .utf16 .bigEndian
  | [_, 0] => .utf16 .littleEndian
  | _ => .utf8

/-- The encoding of a text, and its bytes without a byte order mark. -/
def Encoding.detect : List UInt8 → Encoding × List UInt8
  | 0x00 :: 0x00 :: 0xfe :: 0xff :: rest => (.utf32 .bigEndian, rest)
  | 0xff :: 0xfe :: 0x00 :: 0x00 :: rest => (.utf32 .littleEndian, rest)
  | 0xfe :: 0xff :: rest => (.utf16 .bigEndian, rest)
  | 0xff :: 0xfe :: rest => (.utf16 .littleEndian, rest)
  | 0xef :: 0xbb :: 0xbf :: rest => (.utf8, rest)
  | bytes => (Encoding.ofZeroBytes bytes, bytes)

/-- The character that takes the place of a surrogate. -/
def replacement : Char := '\uFFFD'

/-- The character with a code point. A surrogate is replaced. -/
def characterAt (point : Nat) : Char :=
  if point.isValidChar then Char.ofNat point else replacement

/-- A text that was read from bytes. -/
structure Decoded where
  text : String
  /-- No surrogate has been replaced in it. -/
  whole : Bool
  deriving DecidableEq, Repr

/-- The text with the given code points, unless one of them lies beyond the last there is. -/
def ofPoints? (points : List Nat) : Option Decoded :=
  if points.all fun point => point < 0x110000 then
    some ⟨String.ofList (points.map characterAt), points.all fun point => point.isValidChar⟩
  else none

/-! ## UTF-8 -/

/-- Write a byte behind others, which are kept in reverse. Where it is the last of the three bytes
of a surrogate, those of the replacement take their place. The first of the three occurs nowhere but
at the start of a character. -/
def writeByte (written : List UInt8) (third : UInt8) : List UInt8 :=
  match written with
  | second :: 0xed :: earlier =>
    if 0xa0 ≤ second && second < 0xc0 && 0x80 ≤ third && third < 0xc0 then
      0xbd :: 0xbf :: 0xef :: earlier
    else third :: written
  | _ => third :: written

/-- The text of bytes in UTF-8. -/
def ofUtf8? (bytes : List UInt8) : Option Decoded :=
  let replaced := (bytes.foldl writeByte []).reverse
  (String.fromUTF8? ⟨replaced.toArray⟩).map fun text => ⟨text, replaced == bytes⟩

/-! ## Units of two and four bytes -/

/-- The number written by bytes in the given order. -/
def ByteOrder.number (order : ByteOrder) (bytes : List UInt8) : Nat :=
  let significant := match order with
    | .bigEndian => bytes
    | .littleEndian => bytes.reverse
  significant.foldl (fun number byte => 256 * number + byte.toNat) 0

/-- The units of two bytes of a text in UTF-16. -/
def units16? (order : ByteOrder) : List UInt8 → Option (List Nat)
  | [] => some []
  | [_] => none
  | first :: second :: rest => (units16? order rest).map (order.number [first, second] :: ·)

/-- Whether a unit opens a pair that stands for one character beyond the first plane. -/
def isLeadUnit (unit : Nat) : Bool := 0xd800 ≤ unit && unit < 0xdc00

/-- Whether a unit closes such a pair. -/
def isTrailUnit (unit : Nat) : Bool := 0xdc00 ≤ unit && unit < 0xe000

/-- The code point for which a pair of units stands. -/
def pairPoint (lead trail : Nat) : Nat := 0x10000 + (lead - 0xd800) * 0x400 + (trail - 0xdc00)

/-- The code points for which units of two bytes stand. A unit that belongs to no pair stands for
itself, even if it could open or close one. -/
def ofUnits16 : List Nat → List Nat
  | lead :: trail :: rest =>
    if isLeadUnit lead && isTrailUnit trail then pairPoint lead trail :: ofUnits16 rest
    else lead :: ofUnits16 (trail :: rest)
  | units => units

/-- The code points of four bytes each of a text in UTF-32. -/
def units32? (order : ByteOrder) : List UInt8 → Option (List Nat)
  | [] => some []
  | first :: second :: third :: fourth :: rest =>
    (units32? order rest).map (order.number [first, second, third, fourth] :: ·)
  | _ => none

/-- Read bytes as text in the encoding that they show. -/
def decode? (bytes : ByteArray) : Option Decoded :=
  match Encoding.detect bytes.toList with
  | (.utf8, content) => ofUtf8? content
  | (.utf16 order, content) =>
    (units16? order content).bind fun units => ofPoints? (ofUnits16 units)
  | (.utf32 order, content) => (units32? order content).bind ofPoints?

end Text

end AutomataKit
