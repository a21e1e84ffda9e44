import AutomataKit.Dfa.Description

/-!
# All automata with two states

The automata with the states `q0` and `q1`, starting in `q0`, over a given alphabet are listed
in a fixed order: table by table, and for each table the four sets of accepting states
(`Enumeration.enumerate`). The binary digits of the number of a table, from the lowest on, are its
transitions: those of `q0` before those of `q1` and the symbols in the order of the alphabet. A
digit tells to which state the transition leads.

A symbol that occurs twice in the alphabet takes a digit at each place, and its last place counts.

`Enumeration.entry` is the automaton at an index in closed form.
-/

namespace AutomataKit

namespace Dfa

namespace Enumeration

/-- The names of the two states. -/
def states : List String := ["q0", "q1"]

/-- The state that a bit stands for. -/
def target (bit : Bool) : String := if bit then "q1" else "q0"

/-- The number of tables over an alphabet: a digit for each state and symbol. -/
def tableCount (alphabet : List String) : Nat := Nat.pow 2 (2 * alphabet.length)

/-- The number of automata over an alphabet: a table and a set of accepting states each. -/
def size (alphabet : List String) : Nat := tableCount alphabet * 4

/-- The accepting states that the lowest two bits of a number select. -/
def accepting (mask : Nat) : List String :=
  (states.zipIdx.filter fun (_, place) => mask.testBit place).map Prod.fst

/-! ## Listing -/

/-- The automaton with given transitions and accepting states. -/
def describe (alphabet : List String) (transitions : OrderedMap String (OrderedMap String String))
    (acceptStates : List String) : Description :=
  { states, alphabet, transitions, startState := "q0", acceptStates }

/-- The transitions of the table with a given number, each taking the next digit of it. -/
def transitionTable (alphabet : List String) (number : Nat) :
    OrderedMap String (OrderedMap String String) := Id.run do
  let mut transitions := .empty
  let mut remaining := number
  for state in states do
    let mut row := .empty
    for symbol in alphabet do
      row := row.insert symbol (target (remaining % 2 == 1))
      remaining := remaining / 2
    transitions := transitions.insert state row
  return transitions

/-- All sets of accepting states. -/
def acceptSets : List (List String) := (List.range 4).map accepting

/-- The automata over an alphabet in their order, as many as requested if there are so many. A
number of states can be asked for as well, and has no effect. -/
def enumerate (alphabet : List String) (_maxStates count : Int) : Array Description := Id.run do
  let mut listed := #[]
  if count ≤ 0 then return listed
  for number in [0:tableCount alphabet] do
    let transitions := transitionTable alphabet number
    for acceptStates in acceptSets do
      listed := listed.push (describe alphabet transitions acceptStates)
      if count ≤ listed.size then return listed
  return listed

/-! ## The list in closed form -/

/-- The row of transitions whose bits begin at a place of a table. -/
def row (alphabet : List String) (table first : Nat) : OrderedMap String String :=
  .ofList ((alphabet.zipIdx first).map fun (symbol, place) =>
    (symbol, target (table.testBit place)))

/-- The automaton at an index: four in a row have the same table. -/
def entry (alphabet : List String) (index : Nat) : Description :=
  let table := index / 4
  { states
    alphabet
    transitions := .ofList (states.zipIdx.map fun (state, place) =>
      (state, row alphabet table (place * alphabet.length)))
    startState := "q0"
    acceptStates := accepting (index % 4) }

/-- How many automata a request for a number of them is given. -/
def supply (alphabet : List String) (count : Int) : Nat := min count.toNat (size alphabet)

/-- The first automata of the list, as many as requested if there are so many. -/
def take (alphabet : List String) (count : Int) : List Description :=
  (List.range (supply alphabet count)).map (entry alphabet)

end Enumeration

end Dfa

end AutomataKit
