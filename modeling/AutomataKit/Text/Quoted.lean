import AutomataKit.Text.Printable

/-!
# Quoted text

A quoted text stands between single quotes, or between double quotes when it contains a single
quote and no double one. Inside, the backslash and the enclosing quote are escaped by a
backslash, tab, line feed and carriage return have the escapes of one letter, and any other
character that is not printable is written by its code point in lower-case hexadecimal.
-/

namespace AutomataKit

namespace Text

def singleQuote : Char := Char.ofNat 0x27

def doubleQuote : Char := Char.ofNat 0x22

/-- The mark that encloses a text: single quotes, unless only double quotes spare an escape. -/
def enclosingQuote (text : List Char) : Char :=
  if singleQuote ∈ text ∧ doubleQuote ∉ text then doubleQuote else singleQuote

/-- A number in lower-case hexadecimal, filled up with zeros to a width. -/
def hexadecimal (width value : Nat) : List Char :=
  let digits := Nat.toDigits 16 value
  List.replicate (width - digits.length) '0' ++ digits

/-- What stands for a character between two given quotes. -/
def escaped (quote c : Char) : List Char :=
  if c = quote ∨ c = '\\' then ['\\', c]
  else if c = '\t' then ['\\', 't']
  else if c = '\n' then ['\\', 'n']
  else if c = '\r' then ['\\', 'r']
  else if isPrintable c then [c]
  else if c.toNat < 0x100 then '\\' :: 'x' :: hexadecimal 2 c.toNat
  else if c.toNat < 0x10000 then '\\' :: 'u' :: hexadecimal 4 c.toNat
  else '\\' :: 'U' :: hexadecimal 8 c.toNat

/-- A text between quotes. -/
def quoted (text : String) : String :=
  let characters := text.toList
  let quote := enclosingQuote characters
  String.ofList (quote :: (characters.flatMap (escaped quote) ++ [quote]))

end Text

end AutomataKit
