import AutomataKit.Machine.Basic
import AutomataKit.Machine.Tape

/-!
# Simulating a machine

A simulation runs a machine from its start state on a given input, the head on the first cell,
and records a configuration at the start and after every step. It ends when the machine halts,
when it has no transition, or when the bound on the number of steps is reached. A machine
without a transition rejects, and no further configuration is recorded for that.

The window of the tape grows only when a cell outside it is scanned, so in a recorded
configuration the head may stand next to the window.
-/

namespace AutomataKit

/-- What can be seen of a machine between two steps: its state, the stored cells, and the position
of the head relative to the first of them. -/
structure Configuration where
  state : String
  tape : List String
  head : Int
  deriving DecidableEq, Repr

/-- A machine at one moment of a run. -/
structure Instant where
  state : String
  tape : Tape
  head : Int

/-- The instant as it is recorded: the stored cells, and the head counted from the first of them. -/
def Instant.configuration (instant : Instant) : Configuration where
  state := instant.state
  tape := instant.tape.cells
  head := instant.head - instant.tape.start

/-- How a simulation ended. -/
inductive Outcome where
  | accept
  | reject
  | stepLimit
  deriving DecidableEq, Repr

/-- The word for an outcome. -/
def Outcome.word : Outcome → String
  | accept => "accept"
  | reject => "reject"
  | stepLimit => "step_limit"

/-- The record of a simulation. -/
structure Simulation where
  configurations : List Configuration
  steps : Nat
  outcome : Outcome
  deriving DecidableEq, Repr

/-- Whether the machine came to its accept state. -/
def Simulation.accepted (simulation : Simulation) : Bool := simulation.outcome == .accept

namespace TuringMachine

/-- The outcome of a run that ends in a halting state. When one state has both roles it accepts. -/
def verdict (machine : TuringMachine) (state : String) : Outcome :=
  if state = machine.accept then .accept else .reject

/-- The instant at which a machine begins on an input. -/
def initial (machine : TuringMachine) (input : String) : Instant where
  state := machine.start
  tape := .ofSymbols (input.toList.map String.singleton) machine.blank
  head := 0

/-- The next moment of a run, if there is a transition for the current state and the scanned
symbol. -/
def step? (machine : TuringMachine) (instant : Instant) : Option Instant :=
  let tape := instant.tape.extendTo instant.head
  have stored : tape.Stored instant.head := Tape.stored_extendTo instant.tape instant.head
  match machine.transition? instant.state (tape.read instant.head stored) with
  | none => none
  | some transition => some {
      state := transition.next
      tape := tape.write instant.head transition.write stored
      head := instant.head + transition.move.offset }

/-- Run a machine from some moment on, for at most a given number of steps. -/
def simulateFrom (machine : TuringMachine) (bound : Nat) (instant : Instant) : Simulation :=
  if machine.Halting instant.state then
    ⟨[instant.configuration], 0, machine.verdict instant.state⟩
  else
    match bound with
    | 0 => ⟨[instant.configuration], 0, .stepLimit⟩
    | bound + 1 =>
      match machine.step? instant with
      | none => ⟨[instant.configuration], 0, machine.verdict machine.reject⟩
      | some onward =>
        let rest := machine.simulateFrom bound onward
        ⟨instant.configuration :: rest.configurations, rest.steps + 1, rest.outcome⟩

/-- Simulate a machine on an input. A bound below zero allows no step. -/
def simulate (machine : TuringMachine) (input : String) (maxSteps : Int) : Simulation :=
  machine.simulateFrom maxSteps.toNat (machine.initial input)

/-- The bound on the number of steps when none is given. -/
def defaultMaxSteps : Int := 1000

end TuringMachine

end AutomataKit
