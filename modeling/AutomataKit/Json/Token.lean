import AutomataKit.Json.Basic
import AutomataKit.Text.Encoding
import AutomataKit.Text.Integer

/-!
# The parts of a JSON text

A left fold over the characters of a text groups them into tokens: brackets, colons, commas, and
the scalar values. The step gives up at the first character that no JSON text can have there.

Besides the standard grammar the words `NaN`, `Infinity` and `-Infinity` are numbers. A number
with a fraction or an exponent is a floating-point one; a whole number of more than
`Text.digitLimit` digits is refused. The escape of a surrogate need not be one half of a pair; when
it stands alone it is read as `Text.replacement`, and what is read does not count as whole.
-/

namespace AutomataKit

namespace Json

/-! ## Words -/

/-- Whether a character is one of the ten ASCII digits. -/
def isDigit (c : Char) : Bool := '0' ≤ c && c ≤ '9'

/-- The number written by ASCII digits. -/
def digitsValue (digits : List Char) : Nat :=
  digits.foldl (fun value c => 10 * value + (c.toNat - 48)) 0

/-- The exponent after its letter: an optional sign and at least one digit. -/
def exponent? (text : List Char) : Option Int :=
  let (negative, digits) := match text with
    | '-' :: digits => (true, digits)
    | '+' :: digits => (false, digits)
    | digits => (false, digits)
  if digits.isEmpty || !digits.all isDigit then none
  else
    let value : Int := digitsValue digits
    some (if negative then -value else value)

/-- The fraction and the exponent that follow the whole part of a number: the digits of the one,
and the other. -/
def fractionAndExponent? (text : List Char) : Option (List Char × Int) :=
  let (fraction, rest) := match text with
    | '.' :: rest => (some (rest.takeWhile isDigit), rest.dropWhile isDigit)
    | rest => (none, rest)
  if fraction = some [] then none
  else
    match rest with
    | [] => some (fraction.getD [], 0)
    | letter :: rest =>
      if letter = 'e' ∨ letter = 'E' then (exponent? rest).map (fraction.getD [], ·) else none

/-- An unsigned number, to which a sign is given. Its whole part has no needless zero in front. -/
def unsigned? (negative : Bool) (text : List Char) : Option Json :=
  let whole := text.takeWhile isDigit
  let rest := text.dropWhile isDigit
  if whole.isEmpty || (whole.head? = some '0' && whole.length ≠ 1) then none
  else if rest.isEmpty then
    let size : Int := digitsValue whole
    if whole.length ≤ Text.digitLimit then some (int (if negative then -size else size)) else none
  else
    (fractionAndExponent? rest).map fun (fraction, exponent) =>
      float (.ofDecimal negative (digitsValue (whole ++ fraction)) (exponent - fraction.length))

/-- The value that an unquoted word stands for. -/
def word? (word : List Char) : Option Json :=
  match String.ofList word with
  | "null" => some null
  | "true" => some (bool true)
  | "false" => some (bool false)
  | "NaN" => some (float .notANumber)
  | "Infinity" => some (float (.infinite false))
  | "-Infinity" => some (float (.infinite true))
  | _ =>
    match word with
    | '-' :: rest => unsigned? true rest
    | rest => unsigned? false rest

/-! ## Tokens -/

/-- A part of a JSON text: a mark, or a value that is neither a list nor an object. -/
inductive Token where
  | openList
  | closeList
  | openObject
  | closeObject
  | colon
  | comma
  | scalar (value : Json)

/-- Where the reader stands between two characters; characters already read are kept in reverse. -/
inductive Place where
  | outside
  | word (read : List Char)
  | string (read : List Char)
  | escape (read : List Char)
  /-- Inside an escape by code, after some of its four digits; `lead` is the first half of a pair.
  -/
  | code (read : List Char) (lead : Option Nat) (seen value : Nat)
  /-- After the first half of a pair, before the backslash of the second. -/
  | pair (read : List Char) (lead : Nat)
  /-- After that backslash. -/
  | pairEscape (read : List Char) (lead : Nat)

/-- What has been read of a text: the finished tokens, in reverse, and where the reader stands. -/
structure Scan where
  tokens : List Token
  place : Place
  /-- No escape of a surrogate stood alone. -/
  whole : Bool

/-- A token is finished. -/
def Scan.push (scan : Scan) (token : Token) : Scan :=
  { scan with tokens := token :: scan.tokens, place := .outside }

/-- Whether a character may stand in an unquoted word. -/
def isWordCharacter (c : Char) : Bool :=
  c.isAlphanum || c = '-' || c = '+' || c = '.'

/-- The value of a hexadecimal digit. -/
def hexDigit? (c : Char) : Option Nat :=
  if isDigit c then some (c.toNat - 48)
  else if 'a' ≤ c && c ≤ 'f' then some (c.toNat - 87)
  else if 'A' ≤ c && c ≤ 'F' then some (c.toNat - 55)
  else none

/-- The character for which a letter after a backslash stands. -/
def escapeLetter? : Char → Option Char
  | '"' => some '"'
  | '\\' => some '\\'
  | '/' => some '/'
  | 'b' => some (Char.ofNat 0x8)
  | 'f' => some (Char.ofNat 0xc)
  | 'n' => some '\n'
  | 'r' => some '\r'
  | 't' => some '\t'
  | _ => none

/-- A character outside words and strings. -/
def scanOutside (scan : Scan) (c : Char) : Option Scan :=
  match c with
  | ' ' | '\t' | '\n' | '\r' => some { scan with place := .outside }
  | '[' => some (scan.push .openList)
  | ']' => some (scan.push .closeList)
  | '{' => some (scan.push .openObject)
  | '}' => some (scan.push .closeObject)
  | ':' => some (scan.push .colon)
  | ',' => some (scan.push .comma)
  | '"' => some { scan with place := .string [] }
  | _ => if isWordCharacter c then some { scan with place := .word [c] } else none

/-- A character inside a string. -/
def scanString (scan : Scan) (read : List Char) (c : Char) : Option Scan :=
  if c = '"' then some (scan.push (.scalar (str (String.ofList read.reverse))))
  else if c = '\\' then some { scan with place := .escape read }
  else if c.toNat < 0x20 then none
  else some { scan with place := .string (c :: read) }

/-- The character after a backslash. -/
def scanEscape (scan : Scan) (read : List Char) (c : Char) : Option Scan :=
  if c = 'u' then some { scan with place := .code read none 0 0 }
  else (escapeLetter? c).map fun meant => { scan with place := .string (meant :: read) }

/-- An escape by code is complete. The first half of a pair waits for the second. -/
def finishUnit (scan : Scan) (read : List Char) (unit : Nat) : Scan :=
  if Text.isLeadUnit unit then { scan with place := .pair read unit }
  else
    { scan with
      place := .string (Text.characterAt unit :: read)
      whole := scan.whole && !Text.isTrailUnit unit }

/-- An escape by code is complete that may be the second half of a pair. If it is not, the first
half stands alone. -/
def finishCode (scan : Scan) (read : List Char) (lead : Option Nat) (unit : Nat) : Scan :=
  match lead with
  | none => finishUnit scan read unit
  | some lead =>
    if Text.isTrailUnit unit then
      { scan with place := .string (Text.characterAt (Text.pairPoint lead unit) :: read) }
    else finishUnit { scan with whole := false } (Text.replacement :: read) unit

/-- Read one more character. -/
def scanStep (scan : Scan) (c : Char) : Option Scan :=
  match scan.place with
  | .outside => scanOutside scan c
  | .word read =>
    if isWordCharacter c then some { scan with place := .word (c :: read) }
    else do
      let value ← word? read.reverse
      scanOutside (scan.push (.scalar value)) c
  | .string read => scanString scan read c
  | .escape read => scanEscape scan read c
  | .code read lead seen value => do
    let digit ← hexDigit? c
    let value := 16 * value + digit
    if seen < 3 then some { scan with place := .code read lead (seen + 1) value }
    else some (finishCode scan read lead value)
  | .pair read lead =>
    if c = '\\' then some { scan with place := .pairEscape read lead }
    else scanString { scan with whole := false } (Text.replacement :: read) c
  | .pairEscape read lead =>
    if c = 'u' then some { scan with place := .code read (some lead) 0 0 }
    else scanEscape { scan with whole := false } (Text.replacement :: read) c

/-- Read a whole text. Behind the last character no string may be left open. -/
def scan? (text : List Char) : Option Scan := do
  let scan ← text.foldlM scanStep ⟨[], .outside, true⟩
  match scan.place with
  | .outside => some scan
  | .word read => (word? read.reverse).map fun value => scan.push (.scalar value)
  | _ => none

end Json

end AutomataKit
