import AutomataKit.Binary64.Text
import AutomataKit.Json.Basic
import AutomataKit.Text.Quoted

/-!
# Values inside messages

A message names a value by a text of its own: a string stands as it is, but quoted inside a list
or an object, and the words for null, the truth values and the numbers that are not finite are
those of the messages and not those of JSON.
-/

namespace AutomataKit

namespace Json

mutual

/-- A value as it is named inside a list or an object: strings are quoted. -/
def literal : Json → String
  | null => "None"
  | bool value => if value then "True" else "False"
  | int value => toString value
  | float value => value.text "inf" "nan"
  | str text => Text.quoted text
  | arr [] => "[]"
  | arr (item :: rest) => "[" ++ literal item ++ literalItems rest ++ "]"
  | obj [] => "\x7b\x7d"
  | obj ((name, value) :: rest) =>
    "\x7b" ++ Text.quoted name ++ ": " ++ literal value ++ literalMembers rest ++ "\x7d"

def literalItems : List Json → String
  | [] => ""
  | item :: rest => ", " ++ literal item ++ literalItems rest

def literalMembers : List (String × Json) → String
  | [] => ""
  | (name, value) :: rest =>
    ", " ++ Text.quoted name ++ ": " ++ literal value ++ literalMembers rest

end

/-- A value as it is named in a message: the text of a string stands without quotes. -/
def display : Json → String
  | str text => text
  | value => literal value

end Json

end AutomataKit
