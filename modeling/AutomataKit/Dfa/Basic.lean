/-!
# Deterministic finite automata

An automaton has finitely many named states and finitely many named symbols. Names serve only
for reading and showing: states and symbols are positions in the two lists of names, and the
transition table leads from a state and a symbol to a state. The table is total, and no name
occurs twice, so each name belongs to one position.
-/

namespace AutomataKit

/-- A deterministic finite automaton over named states and symbols. -/
structure Dfa where
  states : List String
  alphabet : List String
  /-- For each state the row of its successors, one for each symbol. -/
  table : Vector (Vector (Fin states.length) alphabet.length) states.length
  /-- The state in which every run begins. -/
  start : Fin states.length
  /-- For each state whether a run may end in it. -/
  accepting : Vector Bool states.length
  states_nodup : states.Nodup
  alphabet_nodup : alphabet.Nodup

namespace Dfa

/-- A state is a position in the list of the states. -/
abbrev State (dfa : Dfa) : Type := Fin dfa.states.length

/-- A symbol is a position in the alphabet. -/
abbrev Symbol (dfa : Dfa) : Type := Fin dfa.alphabet.length

/-- The name of a state. -/
def name (dfa : Dfa) (state : dfa.State) : String := dfa.states[state]

/-- The name of a symbol. -/
def label (dfa : Dfa) (symbol : dfa.Symbol) : String := dfa.alphabet[symbol]

/-- The state that follows a state on a symbol. -/
def next (dfa : Dfa) (state : dfa.State) (symbol : dfa.Symbol) : dfa.State :=
  dfa.table[state][symbol]

/-- Whether a run may end in a state. -/
def accepts (dfa : Dfa) (state : dfa.State) : Bool := dfa.accepting[state]

/-- The symbol with a given name, if there is one. -/
def symbol? (dfa : Dfa) (name : String) : Option dfa.Symbol := dfa.alphabet.finIdxOf? name

/-- The accepting states in the order of their positions. -/
def acceptStates (dfa : Dfa) : List dfa.State :=
  (List.finRange dfa.states.length).filter dfa.accepts

/-- No two states have the same name. -/
theorem name_injective (dfa : Dfa) {first second : dfa.State}
    (same : dfa.name first = dfa.name second) : first = second :=
  Fin.ext ((List.getElem_inj dfa.states_nodup).mp same)

/-- No two symbols have the same name. -/
theorem label_injective (dfa : Dfa) {first second : dfa.Symbol}
    (same : dfa.label first = dfa.label second) : first = second :=
  Fin.ext ((List.getElem_inj dfa.alphabet_nodup).mp same)

/-- A text is the name of a symbol exactly when the alphabet has it at that symbol's position. -/
theorem symbol?_eq_some_iff {dfa : Dfa} {name : String} {symbol : dfa.Symbol} :
    dfa.symbol? name = some symbol ↔ dfa.label symbol = name := by
  unfold symbol? label
  rw [List.finIdxOf?_eq_some_iff]
  refine ⟨And.left, fun named => ⟨named, fun earlier before equal => ?_⟩⟩
  have distinct := List.pairwise_iff_getElem.mp dfa.alphabet_nodup earlier symbol earlier.isLt
    symbol.isLt before
  exact distinct (equal.trans named.symm)

/-- A text is the name of no symbol exactly when the alphabet does not have it. -/
theorem symbol?_eq_none_iff {dfa : Dfa} {name : String} :
    dfa.symbol? name = none ↔ name ∉ dfa.alphabet := by
  unfold symbol?
  exact List.finIdxOf?_eq_none_iff

/-- The list has all accepting states and no others. -/
@[simp] theorem mem_acceptStates {dfa : Dfa} {state : dfa.State} :
    state ∈ dfa.acceptStates ↔ dfa.accepts state = true := by
  simp [acceptStates]

/-! ## Positions given as integers -/

/-- The position that an integer denotes in a row of a given length. Negative integers count from
the end, where `-1` is the last position. -/
def position? (length : Nat) (index : Int) : Option (Fin length) :=
  let fromStart := if index < 0 then index + length else index
  if inside : 0 ≤ fromStart ∧ fromStart < length then
    some ⟨fromStart.toNat, by omega⟩
  else none

/-- The name of the state at a position that is given as an integer. -/
def nameAt? (dfa : Dfa) (state : Int) : Option String :=
  (position? dfa.states.length state).map dfa.name

/-- The successor of a state on a symbol whose positions are given as integers. -/
def nextAt? (dfa : Dfa) (state symbol : Int) : Option dfa.State := do
  let state ← position? dfa.states.length state
  let symbol ← position? dfa.alphabet.length symbol
  return dfa.next state symbol

/-- Whether an integer is the position of an accepting state, counted from the start. -/
def acceptsAt (dfa : Dfa) (state : Int) : Bool :=
  dfa.acceptStates.any fun accepting => (accepting.val : Int) == state

end Dfa

end AutomataKit
