import AutomataKit.Demonstration
import AutomataKit.Text.Integer

/-!
# The command line

Prints the demonstration. `--count N` sets the number of automata that are listed, and each
`--input TEXT` adds an input for the simulation. An option and its value are two arguments, or one
with an equals sign between them.
-/

namespace AutomataKit

namespace CommandLine

/-- What the arguments ask for. -/
structure Options where
  count : Int
  inputs : List String

/-- Set the option of the given name. -/
def Options.set? (options : Options) (name value : String) : Option Options :=
  match name with
  | "--count" => (Text.readInt? value).map fun count => { options with count }
  | "--input" => some { options with inputs := options.inputs ++ [value] }
  | _ => none

/-- An option and its value in one argument, which stand before and behind the first equals sign. -/
def splitArgument (argument : String) : String × List Char :=
  let characters := argument.toList
  (String.ofList (characters.takeWhile (· ≠ '=')), characters.dropWhile (· ≠ '='))

/-- Take a list of arguments into account, if every one of them is known. What begins with two
dashes is no value of the option before it. -/
def Options.addAll? (options : Options) : List String → Option Options
  | [] => some options
  | argument :: rest =>
    match splitArgument argument, rest with
    | (name, _ :: value), rest => do
      let options ← options.set? name (String.ofList value)
      options.addAll? rest
    | (name, []), value :: rest =>
      if value.startsWith "--" then none
      else do
        let options ← options.set? name value
        options.addAll? rest
    | (_, []), [] => none

/-- What a list of arguments asks for. -/
def Options.ofArguments? (arguments : List String) : Option Options :=
  Options.addAll? ⟨Demonstration.defaultCount, []⟩ arguments

end CommandLine

end AutomataKit

/-- Print the demonstration that the arguments ask for. -/
def main (arguments : List String) : IO UInt32 := do
  match AutomataKit.CommandLine.Options.ofArguments? arguments with
  | some options =>
    IO.print (AutomataKit.Demonstration.text options.count options.inputs)
    return 0
  | none =>
    IO.eprintln "usage: [--count N] [--input TEXT]..."
    return 2
