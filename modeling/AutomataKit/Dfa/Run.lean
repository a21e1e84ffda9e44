import AutomataKit.Dfa.Basic

/-!
# Runs of an automaton

A run reads a text character by character. Each character has to be the name of a symbol; at the
first that is not, the run stops where it stands and rejects. A symbol whose name is not a
single character is never read.
-/

namespace AutomataKit

namespace Dfa

/-- The moves of a run from some state: the transitions taken, the state reached, and the
character, if any, that is no symbol and stopped the run. -/
structure Walk (dfa : Dfa) where
  steps : List (dfa.State × Char × dfa.State)
  last : dfa.State
  stoppedBy : Option Char

/-- The symbol whose name is a single character. -/
def symbolOf? (dfa : Dfa) (c : Char) : Option dfa.Symbol := dfa.symbol? (String.singleton c)

/-- Read characters from a state on. -/
def walk (dfa : Dfa) (state : dfa.State) : List Char → dfa.Walk
  | [] => ⟨[], state, none⟩
  | c :: rest =>
    match dfa.symbolOf? c with
    | none => ⟨[], state, some c⟩
    | some symbol =>
      let successor := dfa.next state symbol
      let onward := walk dfa successor rest
      { onward with steps := (state, c, successor) :: onward.steps }

/-- A character that stopped a run, and how many characters were read before it. -/
structure Rejection where
  symbol : Char
  position : Nat
  deriving DecidableEq, Repr

/-- The wording of a rejection. -/
def Rejection.reason (rejection : Rejection) : String :=
  "Symbol '" ++ String.singleton rejection.symbol ++ "' not in alphabet"

/-- A run as it is reported: its transitions, each from a state by a character to a state, the
state in which it ended, whether that is acceptance, and what stopped it. -/
structure Run where
  path : List (String × Char × String)
  finalState : String
  accepted : Bool
  rejection : Option Rejection
  deriving DecidableEq, Repr

/-- The report of a walk. A run accepts when it was not stopped and ends in an accepting state. -/
def Walk.report {dfa : Dfa} (walk : dfa.Walk) : Run where
  path := walk.steps.map fun (source, c, target) => (dfa.name source, c, dfa.name target)
  finalState := dfa.name walk.last
  accepted := walk.stoppedBy.isNone && dfa.accepts walk.last
  rejection := walk.stoppedBy.map (Rejection.mk · walk.steps.length)

/-- Run an automaton on a text. -/
def run (dfa : Dfa) (text : String) : Run := (dfa.walk dfa.start text.toList).report

end Dfa

end AutomataKit
