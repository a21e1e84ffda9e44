import AutomataKit.Json.Token

/-!
# Reading JSON

The tokens of a text are nested by a left fold that keeps the open lists and objects on a stack.
The step gives up at the first token that no JSON text can have there. Of members with the same
name the last one counts, at the place of the first.

Names and strings are made of characters, so a surrogate that stands alone is in none of them. A
value is read nevertheless, and `Json.Reading.whole` tells that its strings are not those of the
text.
-/

namespace AutomataKit

namespace Json

/-- A list or object that is still open. -/
inductive Frame where
  /-- A list with the elements so far, in reverse. -/
  | list (read : List Json)
  /-- An object with the members so far. -/
  | object (read : OrderedMap String Json)
  /-- An object that waits for the value of a member. -/
  | member (read : OrderedMap String Json) (name : String)

/-- What may come next. -/
inductive Expected where
  | value
  | valueOrClose
  | name
  | nameOrClose
  | colon (name : String)
  | separator
  | nothing (result : Json)

/-- The open lists and objects, the innermost first, and what may come next. -/
structure Nesting where
  frames : List Frame
  expected : Expected

/-- A value is complete: it goes into the innermost open list or object. -/
def complete (value : Json) : List Frame → Option Nesting
  | [] => some ⟨[], .nothing value⟩
  | .list read :: frames => some ⟨.list (value :: read) :: frames, .separator⟩
  | .member read name :: frames => some ⟨.object (read.insert name value) :: frames, .separator⟩
  | .object _ :: _ => none

/-- Read a token where a value is expected. -/
def nestValue (frames : List Frame) : Token → Option Nesting
  | .openList => some ⟨.list [] :: frames, .valueOrClose⟩
  | .openObject => some ⟨.object .empty :: frames, .nameOrClose⟩
  | .scalar value => complete value frames
  | _ => none

/-- Close the innermost open list or object. -/
def nestClose (frames : List Frame) : Token → Option Nesting
  | .closeList =>
    match frames with
    | .list read :: frames => complete (arr read.reverse) frames
    | _ => none
  | .closeObject =>
    match frames with
    | .object read :: frames => complete (obj read.entries) frames
    | _ => none
  | _ => none

/-- Read one more token. -/
def nestStep (nesting : Nesting) (token : Token) : Option Nesting :=
  match nesting.expected, token with
  | .value, token => nestValue nesting.frames token
  | .valueOrClose, .closeList => nestClose nesting.frames .closeList
  | .valueOrClose, token => nestValue nesting.frames token
  | .nameOrClose, .closeObject => nestClose nesting.frames .closeObject
  | .nameOrClose, .scalar (str name) => some { nesting with expected := .colon name }
  | .name, .scalar (str name) => some { nesting with expected := .colon name }
  | .colon name, .colon =>
    match nesting.frames with
    | .object read :: frames => some ⟨.member read name :: frames, .value⟩
    | _ => none
  | .separator, .comma =>
    match nesting.frames with
    | .list _ :: _ => some { nesting with expected := .value }
    | .object _ :: _ => some { nesting with expected := .name }
    | _ => none
  | .separator, token => nestClose nesting.frames token
  | _, _ => none

/-- A value that was read from a text or from bytes. -/
structure Reading where
  value : Json
  /-- No surrogate stood alone in the text, so that the strings of the value are those of the text.
  -/
  whole : Bool

/-- The value that a text holds, if it is a JSON text. -/
def read? (text : String) : Option Reading := do
  let scan ← scan? text.toList
  let nesting ← scan.tokens.reverse.foldlM nestStep ⟨[], .value⟩
  match nesting.expected with
  | .nothing result => some ⟨result, scan.whole⟩
  | _ => none

/-- The value that bytes hold, if they are those of a JSON text. -/
def ofBytes? (bytes : ByteArray) : Option Reading := do
  let decoded ← Text.decode? bytes
  let reading ← read? decoded.text
  return { reading with whole := decoded.whole && reading.whole }

end Json

end AutomataKit
