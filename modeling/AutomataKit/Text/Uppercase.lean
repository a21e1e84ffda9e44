/-!
# Upper case for words of ASCII letters

A text is compared with a word of capital ASCII letters, whatever its own case, by the full case
mapping of the Unicode character database. That mapping takes some characters outside ASCII into it,
and ligatures to several letters. A character whose capitals lie outside ASCII can occur in no text
that equals such a word, so it is left as it is.
-/

namespace AutomataKit

namespace Text

/-- The characters outside ASCII whose capitals are ASCII letters, each with these. -/
def asciiCapitals : List (Nat × String) := [
  (0xdf, "SS"), (0x131, "I"), (0x17f, "S"), (0xfb00, "FF"), (0xfb01, "FI"), (0xfb02, "FL"),
  (0xfb03, "FFI"), (0xfb04, "FFL"), (0xfb05, "ST"), (0xfb06, "ST")
]

/-- The capitals of a character, if they are ASCII letters, or else the character itself. -/
def capitals (c : Char) : List Char :=
  match asciiCapitals.lookup c.toNat with
  | some letters => letters.toList
  | none => [c.toUpper]

/-- Whether a text, put in upper case, is a word of capital ASCII letters. -/
def isWordInAnyCase (word text : String) : Bool := text.toList.flatMap capitals == word.toList

end Text

end AutomataKit
