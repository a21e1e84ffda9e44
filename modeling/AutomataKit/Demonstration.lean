import AutomataKit.Dfa.Document
import AutomataKit.Dfa.Enumeration
import AutomataKit.Dfa.Reachability
import AutomataKit.Json.Printer
import AutomataKit.Machine.Document
import AutomataKit.Machine.OfDfa
import AutomataKit.Machine.Trace

/-!
# The printed demonstration

Four programs are shown one after the other: listing automata, checking descriptions, compiling
an automaton into a machine and running it, and deciding emptiness. What is shown is a sequence
of messages; each is followed by a line break unless it ends in one.
-/

namespace AutomataKit

namespace Demonstration

/-! ## The examples -/

/-- A state with the targets of its symbols. -/
def row (state : String) (targets : List (String × String)) :
    String × OrderedMap String String := (state, .ofList targets)

/-- An automaton that accepts the texts with an even number of the letter a. -/
def evenAs : Dfa.Description where
  states := ["q0", "q1"]
  alphabet := ["a", "b"]
  transitions := .ofList [
    row "q0" [("a", "q1"), ("b", "q0")],
    row "q1" [("a", "q0"), ("b", "q1")]]
  startState := "q0"
  acceptStates := ["q0"]

/-- Descriptions to check, each under a title. -/
def validationExamples : List (String × Dfa.Description) := [
  ("Valid DFA", {
    states := ["q0", "q1", "q2"]
    alphabet := ["a", "b"]
    transitions := .ofList [
      row "q0" [("a", "q1"), ("b", "q2")],
      row "q1" [("a", "q0"), ("b", "q2")],
      row "q2" [("a", "q2"), ("b", "q2")]]
    startState := "q0"
    acceptStates := ["q1"] }),
  ("Missing transitions", {
    states := ["q0", "q1"]
    alphabet := ["a", "b"]
    transitions := .ofList [row "q0" [("a", "q1"), ("b", "q0")]]
    startState := "q0"
    acceptStates := ["q1"] }),
  ("Invalid transition target", {
    states := ["q0", "q1"]
    alphabet := ["a", "b"]
    transitions := .ofList [
      row "q0" [("a", "q1"), ("b", "q0")],
      row "q1" [("a", "q2"), ("b", "q0")]]
    startState := "q0"
    acceptStates := ["q1"] }),
  ("Invalid start state", {
    states := ["q0", "q1"]
    alphabet := ["a", "b"]
    transitions := .ofList [
      row "q0" [("a", "q1"), ("b", "q0")],
      row "q1" [("a", "q0"), ("b", "q1")]]
    startState := "q2"
    acceptStates := ["q1"] })]

/-- Automata whose languages are to be decided, each under a title. -/
def emptinessExamples : List (String × Dfa.Description) := [
  ("DFA with reachable accept state", {
    states := ["q0", "q1", "q2"]
    alphabet := ["a", "b"]
    transitions := .ofList [
      row "q0" [("a", "q1"), ("b", "q0")],
      row "q1" [("a", "q1"), ("b", "q1")],
      row "q2" [("a", "q2"), ("b", "q2")]]
    startState := "q0"
    acceptStates := ["q1"] }),
  ("DFA with unreachable accept state", {
    states := ["q0", "q1", "q2"]
    alphabet := ["a", "b"]
    transitions := .ofList [
      row "q0" [("a", "q0"), ("b", "q0")],
      row "q1" [("a", "q1"), ("b", "q1")],
      row "q2" [("a", "q2"), ("b", "q2")]]
    startState := "q0"
    acceptStates := ["q2"] }),
  ("DFA with no accept states", {
    states := ["q0", "q1"]
    alphabet := ["a", "b"]
    transitions := .ofList [
      row "q0" [("a", "q1"), ("b", "q0")],
      row "q1" [("a", "q0"), ("b", "q1")]]
    startState := "q0"
    acceptStates := [] }),
  ("DFA where start state is accept state", {
    states := ["q0", "q1"]
    alphabet := ["a", "b"]
    transitions := .ofList [
      row "q0" [("a", "q1"), ("b", "q0")],
      row "q1" [("a", "q1"), ("b", "q1")]]
    startState := "q0"
    acceptStates := ["q0"] })]

/-! ## The messages -/

/-- The messages of a title between two rules. -/
def heading (title : String) : List String :=
  let rule := String.ofList (List.replicate 80 '=')
  [rule, title, rule]

/-- A description as it is printed. -/
def shown (description : Dfa.Description) : String := description.toJson.indented

/-- The messages of the first program, which lists automata over the letters a and b. -/
def enumeration (count : Int) : List String :=
  let listed := (Dfa.Enumeration.enumerate ["a", "b"] 2 count).toList
  heading "PROGRAM 1: ENUMERATE DFAs" ++
    ["Enumerating the first " ++ toString count ++ " DFAs over alphabet \x7ba, b\x7d:\n"] ++
    (listed.zipIdx 1).flatMap fun (description, index) =>
      ["DFA #" ++ toString index ++ ":", shown description, ""]

/-- The messages of the second program, which checks descriptions. -/
def validation : List String :=
  heading "PROGRAM 2: VALIDATE DFA" ++
    validationExamples.flatMap fun (title, description) =>
      let verdict := match Dfa.ofJson description.toJson with
        | .ok _ => "1"
        | .error _ => "0"
      ["\n" ++ title ++ ":", shown description, "Validation Result: " ++ verdict]

/-- The messages about one run of a machine. -/
def runMessages (machine : TuringMachine) (input : String) : List String :=
  let record := machine.simulate input TuringMachine.defaultMaxSteps
  ["\nSimulating TM on input string: \"" ++ input ++ "\"", "\nTape Configurations:"] ++
    record.configurations.zipIdx.map (fun (configuration, index) =>
      "Step " ++ toString index ++ ": " ++ configuration.render) ++
    [if record.accepted then "\nResult: ACCEPTED" else "\nResult: REJECTED"]

/-- The messages of the third program, which compiles an automaton and runs its machine. -/
def simulation (inputs : List String) : List String :=
  heading "PROGRAM 3: CONVERT DFA TO TM DECIDER AND SIMULATE" ++
    ["\nOriginal DFA (accepts strings with even number of 'a's):", shown evenAs] ++
    match Dfa.ofJson evenAs.toJson with
    | .error defect => [defect.message]
    | .ok dfa =>
      ["\nConverted Turing Machine:", dfa.toMachine.toJson.indented] ++
        inputs.flatMap (runMessages dfa.toMachine)

/-- The messages of the fourth program, which decides whether a language is empty. -/
def emptiness : List String :=
  heading "PROGRAM 4: DETERMINE IF DFA RECOGNIZES EMPTY LANGUAGE" ++
    emptinessExamples.flatMap fun (title, description) =>
      let verdict := match Dfa.ofJson description.toJson with
        | .ok dfa => if dfa.isEmpty then "true" else "false"
        | .error defect => defect.message
      ["\n" ++ title ++ ":", shown description, "Recognizes Empty Language: " ++ verdict]

/-- The number of automata that are listed when none is given. -/
def defaultCount : Int := 20

/-- The inputs that are run when none are given. -/
def defaultInputs : List String := ["aab", "aa"]

/-- All messages, program by program. -/
def messages (count : Int) (inputs : List String) : List String :=
  enumeration count ++ validation ++
    simulation (if inputs.isEmpty then defaultInputs else inputs) ++ emptiness ++
    heading "ALL PROGRAMS COMPLETED"

/-- A message as it is written: it ends in a line break. -/
def ended (message : String) : String :=
  if message.endsWith "\n" then message else message ++ "\n"

/-- All that is written. -/
def text (count : Int) (inputs : List String) : String :=
  String.join ((messages count inputs).map ended)

end Demonstration

end AutomataKit
