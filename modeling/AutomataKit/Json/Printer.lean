import AutomataKit.Binary64.Text
import AutomataKit.Json.Basic
import AutomataKit.Text.Quoted

/-!
# Writing JSON

A value is written on one line, or with one element on each line and two blanks of indentation
per level. An empty list or object is written without a break in either layout.
-/

namespace AutomataKit

namespace Json

/-- How a JSON text is laid out: on one line, or with one element on each line. -/
inductive Layout where
  | compact
  | indented
  deriving DecidableEq, Repr

/-- The escape of a character by its code. -/
def codeEscape (point : Nat) : String := "\\u" ++ String.ofList (Text.hexadecimal 4 point)

/-- What stands for a character in a JSON string. -/
def escapeCharacter (c : Char) : String :=
  if c = '"' then "\\\""
  else if c = '\\' then "\\\\"
  else if c = '\n' then "\\n"
  else if c = '\r' then "\\r"
  else if c = '\t' then "\\t"
  else if c.toNat < 0x20 then codeEscape c.toNat
  else String.singleton c

/-- Append a JSON string to a text. -/
def writeString (written text : String) : String :=
  (text.foldl (fun written c => written ++ escapeCharacter c) (written.push '"')).push '"'

/-- Append what separates elements at a depth. -/
def writeBreak (layout : Layout) (depth : Nat) (written : String) : String :=
  match layout with
  | .compact => written
  | .indented => written ++ "\n" ++ String.ofList (List.replicate (2 * depth) ' ')

/-- What stands between the name and the value of a member. -/
def memberSeparator : Layout → String
  | .compact => ":"
  | .indented => ": "

mutual

/-- Append the JSON text of a value that stands at a depth. -/
def write (layout : Layout) (depth : Nat) (written : String) : Json → String
  | null => written ++ "null"
  | bool value => written ++ (if value then "true" else "false")
  | int value => written ++ toString value
  | float value => written ++ value.text "Infinity" "NaN"
  | str text => writeString written text
  | arr [] => written ++ "[]"
  | arr (item :: rest) =>
    let opened := writeBreak layout (depth + 1) (written.push '[')
    let first := write layout (depth + 1) opened item
    (writeBreak layout depth (writeItems layout (depth + 1) first rest)).push ']'
  | obj [] => written ++ "\x7b\x7d"
  | obj ((name, value) :: rest) =>
    let opened := writeBreak layout (depth + 1) (written ++ "\x7b")
    let named := writeString opened name ++ memberSeparator layout
    let first := write layout (depth + 1) named value
    writeBreak layout depth (writeMembers layout (depth + 1) first rest) ++ "\x7d"

def writeItems (layout : Layout) (depth : Nat) (written : String) : List Json → String
  | [] => written
  | item :: rest =>
    let next := write layout depth (writeBreak layout depth (written.push ',')) item
    writeItems layout depth next rest

def writeMembers (layout : Layout) (depth : Nat) (written : String) :
    List (String × Json) → String
  | [] => written
  | (name, value) :: rest =>
    let named := writeString (writeBreak layout depth (written.push ',')) name
    writeMembers layout depth (write layout depth (named ++ memberSeparator layout) value) rest

end

/-- The JSON text of a value on one line. -/
def compact (value : Json) : String := write .compact 0 "" value

/-- The JSON text of a value with two blanks of indentation per level. -/
def indented (value : Json) : String := write .indented 0 "" value

end Json

end AutomataKit
