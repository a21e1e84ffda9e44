import AutomataKit.Service.Handlers

/-!
# Requests that take a description

Four endpoints take a description of an automaton. All of them first ask whether there is one
(`Service.handle_obj`); then each does its own work on it (`Service.workOn`). The endpoints that
build the automaton differ in what they make of it, and refuse a description for the same reason
(`Service.exists_workOn_eq`).
-/

namespace AutomataKit

namespace Service

/-! ## What a body gives -/

/-- A body gives a description: a value that stands for something. -/
structure Gives (members : List (String × Json)) (description : Json) : Prop where
  entry : members.lookup "dfa" = some description
  stands : description.isBlank = false

/-- The input of a body, which is empty when there is none. -/
inductive GivesInput (members : List (String × Json)) : String → Prop
  | text {input : String} (entry : members.lookup "input" = some (.str input)) :
      GivesInput members input
  | absent (entry : members.lookup "input" = none) : GivesInput members ""

/-- The endpoints that build the automaton. -/
def Endpoint.builders : List Endpoint := [convert, simulate, checkEmpty]

/-- What an endpoint that takes a description does with it. -/
def workOn (endpoint : Endpoint) (maxSteps : Int) (members : List (String × Json))
    (description : Json) : Except Failure Answer :=
  match endpoint with
  | .validate => .ok (.validity (Dfa.defect? description))
  | .enumerate => enumerate members
  | .convert => (readDfa description).map fun dfa => .machine dfa.toMachine
  | .simulate =>
    match (members.lookup "input").getD (.str "") with
    | .str input =>
      (readDfa description).map fun dfa => .simulation (dfa.toMachine.simulate input maxSteps)
    | _ => .error .inputNotText
  | .checkEmpty =>
    (readDfa description).map fun dfa => .emptiness dfa.isEmpty dfa.reachableNames

variable {members : List (String × Json)} {description : Json} {endpoint : Endpoint}

/-! ## The order of the checks -/

/-- A description that is given is taken. -/
theorem givenDescription_of_gives (gives : Gives members description) :
    givenDescription members = .ok description := by
  unfold givenDescription
  rw [gives.entry]
  simp only [gives.stands, Bool.false_eq_true, ↓reduceIte]

/-- Where no description is given, that is the failure. -/
theorem givenDescription_of_missing (missing : ∀ description, ¬ Gives members description) :
    givenDescription members = .error .missingDfa := by
  unfold givenDescription
  cases entry : members.lookup "dfa" with
  | none => rfl
  | some value =>
    cases stands : value.isBlank with
    | true => simp only [stands, ↓reduceIte]
    | false => exact absurd ⟨entry, stands⟩ (missing value)

/-- The description comes first in every handler that takes one. -/
theorem handle_obj (takes : endpoint ≠ .enumerate) (maxSteps : Int) :
    handle endpoint maxSteps (.obj members) =
      givenDescription members >>= workOn endpoint maxSteps members := by
  cases endpoint with
  | enumerate => exact absurd rfl takes
  | validate =>
    change (givenDescription members >>= _) = _
    refine bind_congr fun description => ?_
    unfold workOn
    cases read : Dfa.ofJson description with
    | error defect =>
      rw [Dfa.ofJson_eq_error_iff.mp read]
      rfl
    | ok dfa =>
      rw [Dfa.exists_ofJson_eq_ok_iff.mp ⟨dfa, read⟩]
      rfl
  | convert => rfl
  | simulate =>
    change (givenDescription members >>= _) = _
    refine bind_congr fun description => ?_
    unfold workOn
    cases (members.lookup "input").getD (.str "") <;> rfl
  | checkEmpty => rfl

/-- Where no description is given, the handlers look no further. -/
theorem handle_of_missing (missing : ∀ description, ¬ Gives members description)
    (takes : endpoint ≠ .enumerate) (maxSteps : Int) :
    handle endpoint maxSteps (.obj members) = .error .missingDfa := by
  rw [handle_obj takes, givenDescription_of_missing missing]
  rfl

/-- Where a description is given, the endpoint works on it. -/
theorem handle_of_gives (gives : Gives members description) (takes : endpoint ≠ .enumerate)
    (maxSteps : Int) :
    handle endpoint maxSteps (.obj members) = workOn endpoint maxSteps members description := by
  rw [handle_obj takes, givenDescription_of_gives gives]
  rfl

/-- Where an input is given, the machine is run on it. -/
theorem workOn_simulate {input : String} (given : GivesInput members input) (maxSteps : Int)
    (description : Json) :
    workOn .simulate maxSteps members description =
      (readDfa description).map fun dfa =>
        .simulation (dfa.toMachine.simulate input maxSteps) := by
  have found : (members.lookup "input").getD (.str "") = .str input := by
    cases given with
    | text entry => rw [entry, Option.getD_some]
    | absent entry => rw [entry, Option.getD_none]
  simp only [workOn, found]

/-- An input that is no string is refused before the description is looked at. -/
theorem workOn_simulate_of_noText {value : Json} (entry : members.lookup "input" = some value)
    (noText : ∀ text, value ≠ .str text) (maxSteps : Int) (description : Json) :
    workOn .simulate maxSteps members description = .error .inputNotText := by
  simp only [workOn, entry, Option.getD_some]

theorem ne_enumerate_of_builds (builds : endpoint ∈ Endpoint.builders) :
    endpoint ≠ .enumerate := by
  rintro rfl
  exact absurd builds (by decide)

/-- An endpoint that builds the automaton makes something of it, or refuses its description. -/
theorem exists_workOn_eq {input : String} (given : GivesInput members input)
    (builds : endpoint ∈ Endpoint.builders) (maxSteps : Int) (description : Json) :
    ∃ result : Dfa → Answer,
      workOn endpoint maxSteps members description = (readDfa description).map result := by
  cases endpoint with
  | convert => exact ⟨_, rfl⟩
  | simulate => exact ⟨_, workOn_simulate given maxSteps description⟩
  | checkEmpty => exact ⟨_, rfl⟩
  | validate | enumerate => exact absurd builds (by decide)

end Service

end AutomataKit
