import AutomataKit.Proofs.Dfa.TableOperations
import AutomataKit.Proofs.Machine.TapeLookups
import AutomataKit.Service.Handlers

/-!
# Handlers whose operations can fail

The handlers of the service work with automata and tapes that cannot be misused, so whatever they
do after reading a description succeeds. Here the same handlers call the operations by look-ups that
can fail, and a `Trouble` says what came up. A defect that the checks report is the client's
trouble; any other fault is the service's own.

No other fault comes up: whatever bytes are posted, an attempt ends as the handler does
(`Service.attempt_eq`), and what is sent back is the same (`Service.ofAttempt_attempt`).
-/

namespace AutomataKit

namespace Service

/-! ## Attempts -/

/-- Why a request has no answer: it was refused, or an operation failed. -/
inductive Trouble where
  | refused (failure : Failure)
  | operation (fault : Dfa.Fault)
  | tape (fault : Tape.Fault)

namespace Trouble

/-- A defect that the checks report has the status 400, any other fault 500. -/
def status : Trouble → Nat
  | refused failure => failure.status
  | operation (.invalid _) => 400
  | operation _ => 500
  | tape _ => 500

/-- The wording of a trouble. Faults that are not foreseen have none here. -/
def message? : Trouble → Option String
  | refused failure => some failure.message
  | operation (.invalid reason) => some reason
  | operation _ => none
  | tape _ => none

/-- A failure as it comes up. The checks refuse a description, and not the handler itself. -/
def ofFailure : Failure → Trouble
  | .invalidDfa defect => operation (.invalid defect.message)
  | failure => refused failure

end Trouble

/-- The description in a body, or the refusal of a body without one. -/
def attemptDescription (members : List (String × Json)) : Except Trouble Json :=
  (givenDescription members).mapError .refused

/-- The machine of a described automaton, read off its tables with every look-up at risk. -/
def attemptMachine (description : Json) : Except Trouble TuringMachine :=
  (Dfa.attempt description Dfa.Tables.toMachine).mapError .operation

/-- Simulate the machine of the described automaton, with its tape in two lists that are read by
index. -/
def attemptSimulation (maxSteps : Int) (members : List (String × Json)) :
    Except Trouble Answer := do
  let description ← attemptDescription members
  match (members.lookup "input").getD (.str "") with
  | .str input =>
    let machine ← attemptMachine description
    return .simulation (← (machine.simulateByIndex input maxSteps).mapError .tape)
  | _ => .error (.refused .inputNotText)

/-- Answer the request that a value makes of an endpoint, with every operation at risk. -/
def attemptAnswer (endpoint : Endpoint) (maxSteps : Int) (body : Json) :
    Except Trouble Answer := do
  let members ← (bodyMembers body).mapError .refused
  match endpoint with
  | .validate =>
    return .validity (← (Dfa.check (← attemptDescription members)).mapError .operation)
  | .enumerate => (enumerate members).mapError .refused
  | .convert => return .machine (← attemptMachine (← attemptDescription members))
  | .simulate => attemptSimulation maxSteps members
  | .checkEmpty =>
    let description ← attemptDescription members
    let empty ← (Dfa.attempt description Dfa.Tables.isEmpty).mapError .operation
    let reachable ← (Dfa.attempt description Dfa.Tables.reachableNames).mapError .operation
    return .emptiness empty reachable

/-- Answer a body that is posted to an endpoint, with every operation at risk. -/
def attempt (endpoint : Endpoint) (maxSteps : Int) (body : ByteArray) : Except Trouble Answer := do
  attemptAnswer endpoint maxSteps (← (readBody body).mapError .refused)

/-! ## Attempts and handlers -/

/-- Errors may be reworded before or after the next step. -/
theorem mapError_bind {ε δ α β : Type} (first : Except ε α) (next : α → Except ε β)
    (reword : ε → δ) :
    (first >>= next).mapError reword =
      first.mapError reword >>= fun value => (next value).mapError reword := by
  cases first <;> rfl

/-! ### Steps that refuse a request by themselves -/

/-- A body is refused before there is a description, so its failure comes up as it is. -/
theorem refused_readBody (body : ByteArray) :
    (readBody body).mapError .refused = (readBody body).mapError Trouble.ofFailure := by
  unfold readBody
  split
  · rfl
  · split
    · rfl
    · split <;> rfl
    · rfl

/-- A value that is no object is refused before there is a description. -/
theorem refused_bodyMembers (body : Json) :
    (bodyMembers body).mapError .refused = (bodyMembers body).mapError Trouble.ofFailure := by
  cases body <;> rfl

theorem refused_integer (value : Json) :
    (integer value).mapError .refused = (integer value).mapError Trouble.ofFailure := by
  cases value with
  | float value => cases value <;> rfl
  | str text =>
    simp only [integer]
    cases Text.readInt? text <;> rfl
  | null | bool value | int value | arr items | obj members => rfl

theorem refused_givenAlphabet (members : List (String × Json)) :
    (givenAlphabet members).mapError .refused =
      (givenAlphabet members).mapError Trouble.ofFailure := by
  unfold givenAlphabet
  split
  · simp only
    split
    · rfl
    · split <;> rfl
  · rfl

/-- Listing automata looks at no description, so every refusal is the handler's own. -/
theorem refused_enumerate (members : List (String × Json)) :
    (enumerate members).mapError .refused = (enumerate members).mapError Trouble.ofFailure := by
  unfold enumerate
  simp only [mapError_bind, refused_givenAlphabet, refused_integer]
  refine bind_congr fun alphabet => bind_congr fun count => bind_congr fun maxStates => ?_
  split <;> rfl

/-- A missing description is found missing in both readings of a handler. -/
theorem attemptDescription_eq (members : List (String × Json)) :
    attemptDescription members =
      (givenDescription members).mapError Trouble.ofFailure := by
  unfold attemptDescription givenDescription
  split
  · rfl
  · split <;> rfl

/-! ### Steps that work on an automaton -/

/-- Working on the tables of a described automaton gives the result for the automaton, and fails
only with the defect of the description. -/
theorem attempt_eq_mapError {α : Type} {operation : Dfa.Tables → Except Dfa.Fault α}
    {result : Dfa → α} (performs : Dfa.Performs operation result) (description : Json) :
    (Dfa.attempt description operation).mapError .operation =
      ((readDfa description).map result).mapError Trouble.ofFailure := by
  unfold readDfa
  cases read : Dfa.ofJson description with
  | error defect =>
    rw [Dfa.attempt_of_defect (Dfa.ofJson_eq_error_iff.mp read)]
    rfl
  | ok dfa =>
    rw [Dfa.attempt_of_read performs read]
    rfl

/-- The machine of a described automaton is built, or the description is refused. -/
theorem attemptMachine_eq (description : Json) :
    attemptMachine description =
      ((readDfa description).map Dfa.toMachine).mapError Trouble.ofFailure :=
  attempt_eq_mapError (fun _ _ represents => represents.toMachine_eq_ok) description

/-- A simulation with every look-up at risk ends as the simulation of the handler. -/
theorem attemptSimulation_eq (maxSteps : Int) (members : List (String × Json)) :
    attemptSimulation maxSteps members =
      (simulate maxSteps members).mapError Trouble.ofFailure := by
  unfold attemptSimulation simulate
  rw [attemptDescription_eq, mapError_bind]
  refine bind_congr fun description => ?_
  cases (members.lookup "input").getD (.str "") with
  | str input =>
    simp only [attemptMachine_eq, TuringMachine.simulateByIndex_eq_ok]
    cases readDfa description <;> rfl
  | null | bool value | int value | float value | arr items | obj members => rfl

/-- Whatever value makes the request, an attempt ends as the handler does. -/
theorem attemptAnswer_eq (endpoint : Endpoint) (maxSteps : Int) (body : Json) :
    attemptAnswer endpoint maxSteps body =
      (handle endpoint maxSteps body).mapError Trouble.ofFailure := by
  unfold attemptAnswer handle
  rw [refused_bodyMembers, mapError_bind]
  refine bind_congr fun members => ?_
  cases endpoint with
  | validate =>
    simp only [attemptDescription_eq, mapError_bind, Dfa.check_eq_ok]
    refine bind_congr fun description => ?_
    cases read : Dfa.ofJson description with
    | error defect =>
      rw [Dfa.ofJson_eq_error_iff.mp read]
      rfl
    | ok dfa =>
      rw [Dfa.exists_ofJson_eq_ok_iff.mp ⟨dfa, read⟩]
      rfl
  | enumerate => exact refused_enumerate members
  | convert =>
    simp only [attemptDescription_eq, mapError_bind]
    refine bind_congr fun description => ?_
    rw [attemptMachine_eq]
    cases readDfa description <;> rfl
  | simulate => exact attemptSimulation_eq maxSteps members
  | checkEmpty =>
    simp only [attemptDescription_eq, mapError_bind]
    refine bind_congr fun description => ?_
    rw [attempt_eq_mapError fun _ _ represents => represents.isEmpty_eq_ok,
      attempt_eq_mapError fun _ _ represents => represents.reachableNames_eq_ok]
    cases readDfa description <;> rfl

/-- **No trouble comes up but the failures of the handlers.** -/
theorem attempt_eq (endpoint : Endpoint) (maxSteps : Int) (body : ByteArray) :
    attempt endpoint maxSteps body =
      (readBody body >>= handle endpoint maxSteps).mapError Trouble.ofFailure := by
  unfold attempt
  rw [refused_readBody, mapError_bind]
  exact bind_congr fun value => attemptAnswer_eq endpoint maxSteps value

/-! ## Replies -/

/-- What is sent back. -/
structure Reply where
  status : Nat
  body? : Option Json

namespace Reply

/-- The reply that gives an answer. -/
def answer (answer : Answer) : Reply := ⟨200, some answer.toJson⟩

/-- The reply that names an error. -/
def error (status : Nat) (message : String) : Reply :=
  ⟨status, some (.obj [("error", .str message)])⟩

/-- The reply to the result of a handler. -/
def ofResult : Except Failure Answer → Reply
  | .ok given => answer given
  | .error failure => error failure.status failure.message

/-- The reply to an attempt. There is no body where a fault has no wording. -/
def ofAttempt : Except Trouble Answer → Reply
  | .ok given => answer given
  | .error trouble =>
    ⟨trouble.status, trouble.message?.map fun message => .obj [("error", .str message)]⟩

end Reply

/-- What is sent back as a response. -/
def Response.reply (response : Response) : Reply := ⟨response.status, response.body?⟩

/-- What is sent back when a body is posted to an endpoint. A body of more than `uploadLimit` bytes
is refused unread, and an object in whose texts a surrogate stands alone is not served. -/
def post (endpoint : Endpoint) (maxSteps : Int) (body : ByteArray) : Reply :=
  (respond maxSteps ⟨"POST", endpoint.path, body⟩).reply

/-- Every endpoint is found at its path. -/
theorem ofPath?_path (endpoint : Endpoint) : Endpoint.ofPath? endpoint.path = some endpoint := by
  cases endpoint <;> decide

/-- A posted body is answered by the handler of its endpoint. -/
theorem post_eq (endpoint : Endpoint) (maxSteps : Int) (body : ByteArray) :
    post endpoint maxSteps body = .ofResult (readBody body >>= handle endpoint maxSteps) := by
  have posted : Text.isWordInAnyCase "POST" "POST" = true := by decide +kernel
  unfold post respond
  simp only [ofPath?_path, posted, ↓reduceIte]
  cases readBody body >>= handle endpoint maxSteps <;> rfl

/-- Once a body is read, the handler of the endpoint decides on the reply. -/
theorem post_of_readBody {body : ByteArray} {value : Json} (read : readBody body = .ok value)
    (endpoint : Endpoint) (maxSteps : Int) :
    post endpoint maxSteps body = .ofResult (handle endpoint maxSteps value) := by
  rw [post_eq, read]
  rfl

/-- Bytes that give back a text hold what is read of it. -/
theorem ofBytes?_of_read? {text : String} {reading : Json.Reading}
    (decoded : Text.decode? text.toUTF8 = some ⟨text, true⟩)
    (read : Json.read? text = some reading) : Json.ofBytes? text.toUTF8 = some reading := by
  simp only [Json.ofBytes?, decoded, read, Option.bind_eq_bind, Option.bind_some, Bool.true_and]
  rfl

/-- A text that its bytes give back is read as its JSON value. -/
theorem readBody_of_read? {text : String} {value : Json} (small : text.toUTF8.size ≤ uploadLimit)
    (decoded : Text.decode? text.toUTF8 = some ⟨text, true⟩)
    (read : Json.read? text = some ⟨value, true⟩) : readBody text.toUTF8 = .ok value := by
  unfold readBody
  rw [if_neg (Nat.not_lt.mpr small), ofBytes?_of_read? decoded read]
  cases value <;> rfl

/-- **Attempts are replied to as the service responds.** -/
theorem ofAttempt_attempt (endpoint : Endpoint) (maxSteps : Int) (body : ByteArray) :
    Reply.ofAttempt (attempt endpoint maxSteps body) = post endpoint maxSteps body := by
  rw [attempt_eq, post_eq]
  cases readBody body >>= handle endpoint maxSteps with
  | ok given => rfl
  | error failure => cases failure <;> rfl

end Service

end AutomataKit
