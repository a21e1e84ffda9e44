import AutomataKit.OrderedMap

/-!
# Turing machines

A machine with one tape. States and tape symbols are texts; a symbol may have any number of
characters. For the current state and the scanned symbol the transition table gives at most one
transition: the next state, the symbol to write, and the move of the head. A run ends in the
accept state or in the reject state.
-/

namespace AutomataKit

/-- Where the head goes after a cell was written. -/
inductive Move where
  | left
  | right
  | stay
  deriving DecidableEq, Repr

namespace Move

/-- The change of the position of the head. -/
def offset : Move → Int
  | left => -1
  | right => 1
  | stay => 0

/-- The letter for a move. -/
def letter : Move → String
  | left => "L"
  | right => "R"
  | stay => "S"

/-- The word for a move. -/
def word : Move → String
  | left => "LEFT"
  | right => "RIGHT"
  | stay => "STAY"

/-- The move for which a letter stands. -/
def ofLetter? : String → Option Move
  | "L" => some left
  | "R" => some right
  | "S" => some stay
  | _ => none

/-- A move is read back from its letter. -/
@[simp] theorem ofLetter?_letter (move : Move) : ofLetter? move.letter = some move := by
  cases move <;> rfl

end Move

/-- What a machine does on scanning a symbol. -/
structure Transition where
  next : String
  write : String
  move : Move
  deriving DecidableEq, Repr

/-- A deterministic Turing machine with one tape, whose states and symbols are texts. -/
structure TuringMachine where
  states : List String
  alphabet : List String
  /-- The transitions, under pairs of a state and a scanned symbol. -/
  transitions : OrderedMap (String × String) Transition
  start : String
  accept : String
  reject : String
  blank : String

namespace TuringMachine

/-- The transition from a state on a symbol, if there is one. -/
def transition? (machine : TuringMachine) (state symbol : String) : Option Transition :=
  machine.transitions.find? (state, symbol)

/-- A run ends in this state. -/
def Halting (machine : TuringMachine) (state : String) : Prop :=
  state = machine.accept ∨ state = machine.reject

instance (machine : TuringMachine) (state : String) : Decidable (machine.Halting state) :=
  inferInstanceAs (Decidable (_ ∨ _))

end TuringMachine

end AutomataKit
