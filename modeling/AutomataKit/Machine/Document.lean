import AutomataKit.Json.Display
import AutomataKit.Machine.Simulation

/-!
# Machines and simulations as JSON

A machine is written with its transitions nested: the states in the order of their first
transition, and for each the symbols with the next state, the symbol to write and the letter of
the move. A table of transitions can also be given as a list, in which a later entry replaces an
earlier one for the same state and symbol.
-/

namespace AutomataKit

/-- A value that stands where the letter of a move should, and is none. -/
structure InvalidMove where
  value : Json

/-- The wording for a value that is no move. -/
def InvalidMove.message (invalid : InvalidMove) : String :=
  invalid.value.literal ++ " is not a valid Move"

/-- The move whose letter a value is. -/
def Move.ofJson (value : Json) : Except InvalidMove Move :=
  match value.text?.bind Move.ofLetter? with
  | some move => .ok move
  | none => .error ⟨value⟩

/-- An entry in a list of transitions, its letter not yet read. -/
structure ListedTransition where
  state : String
  symbol : String
  next : String
  write : String
  move : Json

/-- A listed transition as an entry of the table. -/
def ListedTransition.entry (listed : ListedTransition) :
    Except InvalidMove ((String × String) × Transition) := do
  let move ← Move.ofJson listed.move
  return ((listed.state, listed.symbol), ⟨listed.next, listed.write, move⟩)

/-- The table that a list of transitions gives, or the first letter in it that is no move. -/
def transitionTable (listed : List ListedTransition) :
    Except InvalidMove (OrderedMap (String × String) Transition) := do
  return .ofList (← listed.mapM ListedTransition.entry)

/-- The description of a transition. -/
def Transition.toJson (transition : Transition) : Json :=
  .obj [
    ("next_state", .str transition.next),
    ("write_symbol", .str transition.write),
    ("move", .str transition.move.letter)]

/-- Transitions by state and, for each state, by symbol. -/
abbrev NestedTransitions : Type := OrderedMap String (OrderedMap String Transition)

/-- Add a transition to the row of its state. -/
def NestedTransitions.add (rows : NestedTransitions) (entry : (String × String) × Transition) :
    NestedTransitions :=
  let ((state, symbol), transition) := entry
  rows.insert state (((rows.find? state).getD .empty).insert symbol transition)

namespace TuringMachine

/-- The transitions of a machine by state. -/
def nested (machine : TuringMachine) : NestedTransitions :=
  machine.transitions.entries.foldl NestedTransitions.add .empty

/-- The description of a machine, in which its transitions are nested by state and symbol. -/
def toJson (machine : TuringMachine) : Json :=
  .obj [
    ("states", .ofTexts machine.states),
    ("alphabet", .ofTexts machine.alphabet),
    ("transitions", .ofMap (.ofMap Transition.toJson) machine.nested),
    ("start_state", .str machine.start),
    ("accept_state", .str machine.accept),
    ("reject_state", .str machine.reject),
    ("blank_symbol", .str machine.blank)]

end TuringMachine

/-- The members of the description of a configuration. -/
def Configuration.jsonMembers (configuration : Configuration) : List (String × Json) :=
  [("state", .str configuration.state),
    ("tape", .ofTexts configuration.tape),
    ("head", .int configuration.head)]

/-- The description of a configuration. -/
def Configuration.toJson (configuration : Configuration) : Json := .obj configuration.jsonMembers

/-- The members of a simulation as a JSON object, all but its configurations. -/
def Simulation.summaryMembers (simulation : Simulation) : List (String × Json) :=
  [("accepted", .bool simulation.accepted),
    ("outcome", .str simulation.outcome.word),
    ("steps", .int simulation.steps)]

/-- The description of a simulation with all its configurations. -/
def Simulation.toJson (simulation : Simulation) : Json :=
  .obj (simulation.summaryMembers ++
    [("configurations", .arr (simulation.configurations.map Configuration.toJson))])

end AutomataKit
