import AutomataKit.Json.Basic

/-!
# Descriptions of automata

A `Dfa.Description` holds the entries of a description whose names are all texts. Nothing is
checked: rows may be missing, and names may be unknown or repeated. `Description.toJson` writes
the description as the object from which an automaton is read.
-/

namespace AutomataKit

namespace Dfa

/-- A description of an automaton in terms of texts. -/
structure Description where
  states : List String
  alphabet : List String
  /-- For the name of a state the row of its transitions, and in it for the name of a symbol the
  name of the state to which it leads. -/
  transitions : OrderedMap String (OrderedMap String String)
  startState : String
  acceptStates : List String

/-- The JSON value of a description. -/
def Description.toJson (description : Description) : Json :=
  .obj [
    ("states", .ofTexts description.states),
    ("alphabet", .ofTexts description.alphabet),
    ("transitions", .ofMap (.ofMap .str) description.transitions),
    ("start_state", .str description.startState),
    ("accept_states", .ofTexts description.acceptStates)]

end Dfa

end AutomataKit
