import AutomataKit.Dfa.Basic

/-!
# Searching the states of an automaton

A breadth-first search keeps the states that were discovered and wait for their turn, and those
that have not been seen. Taking a state from the front of the queue moves its unseen successors,
in the order of the symbols, to the end. Every turn leaves one state fewer waiting or unseen, so
the search ends (`Frontier.size_advance?`).

The states reachable from the start are those that get a turn. The accepted language is empty
when no accepting state gets one; that search stops at the first accepting state.
-/

namespace AutomataKit

namespace Dfa

/-- The successors of a state, in the order of the symbols. -/
def successors (dfa : Dfa) (state : dfa.State) : List dfa.State :=
  (List.finRange dfa.alphabet.length).map (dfa.next state)

/-- The states that a search has still to deal with: those discovered, in the order of their turns,
and those not seen. -/
structure Frontier (dfa : Dfa) where
  waiting : List dfa.State
  unseen : List dfa.State

namespace Frontier

variable {dfa : Dfa}

/-- The number of states that wait or are unseen. -/
def size (frontier : dfa.Frontier) : Nat := frontier.waiting.length + frontier.unseen.length

/-- At the outset the start state waits and all others are unseen. -/
def initial (dfa : Dfa) : dfa.Frontier :=
  ⟨[dfa.start], (List.finRange dfa.states.length).erase dfa.start⟩

/-- Discover states from left to right: each one not yet seen joins the queue and is seen from then
on. -/
def discover (frontier : dfa.Frontier) (states : List dfa.State) : dfa.Frontier :=
  states.foldl (fun frontier state =>
    if state ∈ frontier.unseen then
      ⟨frontier.waiting ++ [state], frontier.unseen.erase state⟩
    else frontier) frontier

/-- The state whose turn it is, and the frontier after its successors are discovered. -/
def advance? (frontier : dfa.Frontier) : Option (dfa.State × dfa.Frontier) :=
  match frontier.waiting with
  | [] => none
  | state :: rest => some (state, discover ⟨rest, frontier.unseen⟩ (dfa.successors state))

/-- Discovery moves states and loses none. -/
theorem size_discover (frontier : dfa.Frontier) (states : List dfa.State) :
    (frontier.discover states).size = frontier.size := by
  unfold discover
  induction states generalizing frontier with
  | nil => rfl
  | cons state rest ih =>
    rw [List.foldl_cons, ih]
    split
    · rename_i unseen
      have positive : 0 < frontier.unseen.length := List.length_pos_of_mem unseen
      simp only [size, List.length_append, List.length_singleton,
        List.length_erase_of_mem unseen]
      omega
    · rfl

/-- Each turn leaves one state fewer to deal with. -/
theorem size_advance? {frontier onward : dfa.Frontier} {state : dfa.State}
    (turn : frontier.advance? = some (state, onward)) : onward.size + 1 = frontier.size := by
  unfold advance? at turn
  split at turn
  · cases turn
  · rename_i waiting
    simp only [Option.some.injEq, Prod.mk.injEq] at turn
    rw [← turn.2, size_discover]
    simp only [size, waiting, List.length_cons]
    omega

/-- The states that get a turn, in order, up to the first one at which the search stops. -/
def turns (stop : dfa.State → Bool) (frontier : dfa.Frontier) : List dfa.State :=
  match _turn : frontier.advance? with
  | none => []
  | some (state, onward) => if stop state then [state] else state :: onward.turns stop
termination_by frontier.size
decreasing_by
  have fewer := size_advance? _turn
  omega

end Frontier

/-- The states reachable from the start state, in breadth-first order. -/
def reachable (dfa : Dfa) : List dfa.State := (Frontier.initial dfa).turns fun _ => false

/-- The names of the reachable states in the order of the search. -/
def reachableNames (dfa : Dfa) : List String := dfa.reachable.map dfa.name

/-- The states that get a turn in the search for an accepting state. No search is made when there
is no accepting state. -/
def emptinessTurns (dfa : Dfa) : List dfa.State :=
  if dfa.acceptStates.isEmpty then [] else (Frontier.initial dfa).turns dfa.accepts

/-- Whether the automaton accepts no text: the search meets no accepting state. -/
def isEmpty (dfa : Dfa) : Bool := !dfa.emptinessTurns.any dfa.accepts

end Dfa

end AutomataKit
