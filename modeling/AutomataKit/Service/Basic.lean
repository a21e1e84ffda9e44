import AutomataKit.Dfa.Defect
import AutomataKit.Dfa.Description
import AutomataKit.Machine.Document

/-!
# Requests and responses of the service

The service has five endpoints. A request that reaches one of them is given an `Answer`, or
there is a `Failure`, which has a status and a wording: a body that is too large or no object and a
request for infinitely many automata count as failures of the service, all others as failures of
the request.

Two things about bodies are left open here. The wording for a body that is no JSON text does not say
what is wrong with it. And an object with a text that has a surrogate standing alone is not served:
such a text is made of more than characters.
-/

namespace AutomataKit

namespace Service

/-- The endpoints of the service. -/
inductive Endpoint where
  | validate
  | enumerate
  | convert
  | simulate
  | checkEmpty
  deriving DecidableEq, Repr

namespace Endpoint

/-- Where an endpoint is reached. -/
def path : Endpoint → String
  | validate => "/api/validate-dfa/"
  | enumerate => "/api/enumerate-dfas/"
  | convert => "/api/convert-dfa-to-tm/"
  | simulate => "/api/simulate-tm/"
  | checkEmpty => "/api/check-empty-language/"

/-- Every endpoint once. -/
def all : List Endpoint := [validate, enumerate, convert, simulate, checkEmpty]

/-- The endpoint at a path. -/
def ofPath? (path : String) : Option Endpoint := all.find? fun endpoint => endpoint.path == path

end Endpoint

/-- Why a request has no answer. -/
inductive Failure where
  /-- The body is larger than any that is taken in. -/
  | tooLarge
  /-- The body is no JSON text. -/
  | malformed
  /-- The body is an object, and a surrogate stands alone in one of its texts. The strings here hold
  characters only, so this library does not serve such a body. -/
  | loneSurrogate
  /-- The body is some other value than an object. -/
  | notObject (value : Json)
  | missingDfa
  | invalidDfa (defect : Dfa.Defect)
  | inputNotText
  | alphabetNotTexts
  | alphabetRepeated
  | notIntegers
  | infiniteCount
  /-- The number of automata has too many digits to be written. -/
  | totalTooLong

/-- The word for the kind of a value in a message. -/
def kindWord : Json → String
  | .null => "NoneType"
  | .bool _ => "bool"
  | .int _ => "int"
  | .float _ => "float"
  | .str _ => "str"
  | .arr _ => "list"
  | .obj _ => "dict"

namespace Failure

/-- The status of a failure: 500 for one of the service, 400 for one of the request, and 501 for a
body that is not served. -/
def status : Failure → Nat
  | tooLarge | notObject _ | infiniteCount => 500
  | loneSurrogate => 501
  | _ => 400

/-- The wording of a failure. That of a body which is no JSON text stands for any description of
what is wrong with it. -/
def message : Failure → String
  | tooLarge => "Server error: Request body exceeded settings.DATA_UPLOAD_MAX_MEMORY_SIZE."
  | malformed => "<malformed JSON>"
  | loneSurrogate => "Lone surrogates are not supported"
  | notObject value => "Server error: '" ++ kindWord value ++ "' object has no attribute 'get'"
  | missingDfa => "Missing DFA definition"
  | invalidDfa defect => defect.message
  | inputNotText => "input must be a string"
  | alphabetNotTexts => "alphabet must be a list of strings"
  | alphabetRepeated => "alphabet must not contain duplicates"
  | notIntegers => "count and max_states must be integers"
  | infiniteCount => "Server error: cannot convert float infinity to integer"
  | totalTooLong => "Exceeds the limit (4300 digits) for integer string conversion; " ++
      "use sys.set_int_max_str_digits() to increase the limit"

end Failure

/-- What a request is answered. -/
inductive Answer where
  /-- Whether a description is sound, and if not, why. -/
  | validity (defect : Option Dfa.Defect)
  /-- Automata with two states, and how many there are in all. -/
  | automata (listed : List Dfa.Description) (total : Nat)
  | machine (compiled : TuringMachine)
  | simulation (record : Simulation)
  /-- Whether a language is empty, and the names of the reachable states. -/
  | emptiness (empty : Bool) (reachable : List String)

/-- The body of the response that gives an answer. -/
def Answer.toJson : Answer → Json
  | validity none => .obj [("valid", .bool true)]
  | validity (some defect) => .obj [("valid", .bool false), ("error", .str defect.message)]
  | automata listed total =>
    .obj [
      ("dfas", .arr (listed.map Dfa.Description.toJson)),
      ("count", .int listed.length),
      ("total", .int total)]
  | machine compiled => .obj [("tm", compiled.toJson)]
  | simulation record => record.toJson
  | emptiness empty reachable =>
    .obj [("empty", .bool empty), ("reachable_states", .ofTexts reachable)]

/-- What is asked of the service. -/
structure Request where
  method : String
  path : String
  body : ByteArray

/-- What the service says to a request. -/
inductive Response where
  | answered (answer : Answer)
  | failed (failure : Failure)
  /-- There is no endpoint at the path. -/
  | notFound
  | methodNotAllowed

namespace Response

/-- The status of a response. -/
def status : Response → Nat
  | answered _ => 200
  | failed failure => failure.status
  | notFound => 404
  | methodNotAllowed => 405

/-- The methods that a response names as allowed. -/
def allow? : Response → Option String
  | methodNotAllowed => some "POST"
  | _ => none

/-- The body of a response that has one. -/
def body? : Response → Option Json
  | answered answer => some answer.toJson
  | failed failure => some (.obj [("error", .str failure.message)])
  | _ => none

end Response

end Service

end AutomataKit
