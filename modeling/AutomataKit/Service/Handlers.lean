import AutomataKit.Dfa.Document
import AutomataKit.Dfa.Enumeration
import AutomataKit.Dfa.Reachability
import AutomataKit.Json.Reader
import AutomataKit.Machine.OfDfa
import AutomataKit.Service.Basic
import AutomataKit.Text.Uppercase

/-!
# Answering requests

Four endpoints take a description of an automaton, the fifth lists the automata with two states
over an alphabet. `Service.handle` answers the request that a JSON value makes of an endpoint,
and `Service.respond` a whole request.
-/

namespace AutomataKit

namespace Service

/-- The members of a body, which has to be an object. -/
def bodyMembers : Json → Except Failure (List (String × Json))
  | .obj members => .ok members
  | value => .error (.notObject value)

/-- The description in a body. One that stands for nothing counts as missing. -/
def givenDescription (members : List (String × Json)) : Except Failure Json :=
  match members.lookup "dfa" with
  | none => .error .missingDfa
  | some value => if value.isBlank then .error .missingDfa else .ok value

/-- The automaton that a value describes. -/
def readDfa (value : Json) : Except Failure Dfa := (Dfa.ofJson value).mapError .invalidDfa

/-- A value as a whole number: truth values count one and zero, fractions are cut off, and a string
may hold a written number. -/
def integer : Json → Except Failure Int
  | .bool value => .ok value.toInt
  | .int value => .ok value
  | .float value =>
    match value.truncate with
    | .whole value => .ok value
    | .infinite => .error .infiniteCount
    | .notANumber => .error .notIntegers
  | .str text =>
    match Text.readInt? text with
    | some value => .ok value
    | none => .error .notIntegers
  | _ => .error .notIntegers

/-- The alphabet in a body: a list of texts, no two of them the same. -/
def givenAlphabet (members : List (String × Json)) : Except Failure (List String) :=
  match members.lookup "alphabet" with
  | some (.arr items) =>
    let texts := items.filterMap Json.text?
    if texts.length ≠ items.length then .error .alphabetNotTexts
    else if texts.Nodup then .ok texts
    else .error .alphabetRepeated
  | _ => .error .alphabetNotTexts

/-- The number of automata that is listed when none is requested. -/
def defaultCount : Int := 20

/-- Answer a request to list automata. The number of states is read and has no effect. -/
def enumerate (members : List (String × Json)) : Except Failure Answer := do
  let alphabet ← givenAlphabet members
  let count ← integer ((members.lookup "count").getD (.int defaultCount))
  let maxStates ← integer ((members.lookup "max_states").getD (.int 2))
  let total := Dfa.Enumeration.size alphabet
  if Nat.pow 10 Text.digitLimit ≤ total then .error .totalTooLong
  else .ok (.automata (Dfa.Enumeration.enumerate alphabet maxStates count).toList total)

/-- Answer a request to simulate the machine of an automaton, with a bound on the number of steps.
-/
def simulate (maxSteps : Int) (members : List (String × Json)) : Except Failure Answer := do
  let description ← givenDescription members
  match (members.lookup "input").getD (.str "") with
  | .str input =>
    let dfa ← readDfa description
    return .simulation (dfa.toMachine.simulate input maxSteps)
  | _ => .error .inputNotText

/-- Answer the request that a body makes of an endpoint. -/
def handle (endpoint : Endpoint) (maxSteps : Int) (body : Json) : Except Failure Answer := do
  let members ← bodyMembers body
  match endpoint with
  | .validate =>
    let description ← givenDescription members
    match Dfa.ofJson description with
    | .ok _ => return .validity none
    | .error defect => return .validity (some defect)
  | .enumerate => enumerate members
  | .convert =>
    let dfa ← readDfa (← givenDescription members)
    return .machine dfa.toMachine
  | .simulate => simulate maxSteps members
  | .checkEmpty =>
    let dfa ← readDfa (← givenDescription members)
    return .emptiness dfa.isEmpty dfa.reachableNames

/-- The number of bytes up to which a body is taken in. -/
def uploadLimit : Nat := 2621440

/-- The JSON value that a body holds. An object has to be given with its own texts; of any other
value only the kind counts, so that it may stand for one whose texts hold more than characters. -/
def readBody (body : ByteArray) : Except Failure Json :=
  if uploadLimit < body.size then .error .tooLarge
  else
    match Json.ofBytes? body with
    | none => .error .malformed
    | some ⟨.obj members, whole⟩ => if whole then .ok (.obj members) else .error .loneSurrogate
    | some ⟨value, _⟩ => .ok value

/-- Answer a request. Paths have to match exactly, and only the method `POST`, in any case, is
allowed. -/
def respond (maxSteps : Int) (request : Request) : Response :=
  match Endpoint.ofPath? request.path with
  | none => .notFound
  | some endpoint =>
    if Text.isWordInAnyCase "POST" request.method then
      match readBody request.body >>= handle endpoint maxSteps with
      | .ok answer => .answered answer
      | .error failure => .failed failure
    else .methodNotAllowed

end Service

end AutomataKit
