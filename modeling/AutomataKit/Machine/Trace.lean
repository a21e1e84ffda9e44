import AutomataKit.Machine.Simulation

/-!
# Configurations in one line

A configuration is shown by its state and its cells, parted by single blanks; the cell under the
head stands in brackets. When the head is outside the stored cells no cell is bracketed.
-/

namespace AutomataKit

namespace Configuration

/-- The text of the cell at a place, in brackets under the head. -/
def cellText (head : Int) (symbol : String) (place : Nat) : String :=
  if (place : Int) = head then "[" ++ symbol ++ "]" else symbol

/-- A configuration in one line. -/
def render (configuration : Configuration) : String :=
  let cells := configuration.tape.zipIdx.map fun (symbol, place) =>
    cellText configuration.head symbol place
  "State=" ++ configuration.state ++ ", Tape: " ++ " ".intercalate cells

end Configuration

end AutomataKit
