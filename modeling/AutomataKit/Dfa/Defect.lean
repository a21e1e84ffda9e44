import AutomataKit.Json.Display

/-!
# What can be wrong with a description of an automaton

A description of an automaton is an object with five entries. A `Defect` says why a JSON value
is no such description; `Defect.message` is its wording, in which the offending values are
shown.
-/

namespace AutomataKit

namespace Dfa

/-- The entries of a description. -/
inductive Entry where
  | states
  | alphabet
  | transitions
  | startState
  | acceptStates
  deriving DecidableEq, Repr

/-- The name under which an entry stands. -/
def Entry.key : Entry → String
  | states => "states"
  | alphabet => "alphabet"
  | transitions => "transitions"
  | startState => "start_state"
  | acceptStates => "accept_states"

/-- Why a value describes no automaton. -/
inductive Defect where
  | notObject
  | missing (entry : Entry)
  /-- An entry that has to be a list of names is no list. -/
  | notList (entry : Entry)
  /-- A list of names has a repetition or an element that is no name. -/
  | repeated (entry : Entry)
  | transitionsNotObject
  | noRow (state : Json)
  | noTarget (state symbol : Json)
  | unknownTarget (state symbol target : Json)
  | unknownStart
  | unknownAccept (state : Json)

/-- The wording of a defect, with the values that are at fault. -/
def Defect.message : Defect → String
  | notObject => "DFA must be a dictionary"
  | missing entry => "Missing required key: " ++ entry.key
  | notList entry => entry.key ++ " must be a list"
  | repeated entry => entry.key ++ " must not contain duplicates"
  | transitionsNotObject => "transitions must be a dictionary"
  | noRow state => "No transitions defined for state " ++ state.display
  | noTarget state symbol =>
    "Missing transition for state " ++ state.display ++ " on symbol '" ++ symbol.display ++ "'"
  | unknownTarget state symbol target =>
    "Transition from " ++ state.display ++ " on '" ++ symbol.display ++
      "' targets unknown state " ++ target.display
  | unknownStart => "Start state not in states list"
  | unknownAccept state => "Accept state " ++ state.display ++ " not in states list"

end Dfa

end AutomataKit
