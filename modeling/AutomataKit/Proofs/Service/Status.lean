import AutomataKit.Proofs.Service.Attempts
import AutomataKit.Proofs.Service.Descriptions
import AutomataKit.Proofs.Text.Integer

/-!
# When the service fails

A reply has the status 500 when the service itself fails. That is so for a body that is a JSON value
but no object, and for a request to list automata that names an infinite number, unless the alphabet
or, before the number of states, the count is refused first (`Service.Breaks`). Every other body is
answered or refused, whatever the endpoint (`Service.status_post`).

Two kinds of bodies are left out (`Service.Admitted`): those that are too large to be taken in, and
objects in whose texts a surrogate stands alone, which this library does not serve
(`Service.post_of_not_admitted`).
-/

namespace AutomataKit

namespace Service

/-! ## Whole numbers -/

/-- The whole number for which a value counts. -/
inductive Converts : Json → Int → Prop
  | bool (value : Bool) : Converts (.bool value) value.toInt
  | int (value : Int) : Converts (.int value) value
  /-- The fraction is dropped, whatever the sign. -/
  | float (negative : Bool) (units : Nat) :
      Converts (.float (.finite negative units))
        ((if negative then -units else units : Int).tdiv Binary64.unitsPerOne)
  | text {text : String} {value : Int} (denotes : Text.Denotes text value) :
      Converts (.str text) value

/-- Truncating a finite number drops what remains of its units below a whole, whatever its sign. -/
theorem truncate_finite (negative : Bool) (units : Nat) :
    (Binary64.finite negative units).truncate =
      .whole ((if negative then -units else units : Int).tdiv Binary64.unitsPerOne) := by
  cases negative with
  | false => rfl
  | true =>
    simp only [↓reduceIte, Int.neg_tdiv]
    rfl

/-- Values are counted as the relation says. -/
theorem integer_eq_ok_iff {value : Json} {number : Int} :
    integer value = .ok number ↔ Converts value number := by
  constructor
  · intro counted
    cases value with
    | bool value =>
      cases counted
      exact .bool value
    | int value =>
      cases counted
      exact .int _
    | float value =>
      cases value with
      | finite negative units =>
        simp only [integer, truncate_finite] at counted
        cases counted
        exact .float negative units
      | notANumber | infinite negative => cases counted
    | str text =>
      simp only [integer] at counted
      cases found : Text.readInt? text with
      | none =>
        rw [found] at counted
        cases counted
      | some value =>
        rw [found] at counted
        cases counted
        exact .text (Text.readInt?_eq_some_iff.mp found)
    | null | arr items | obj members => cases counted
  · intro converts
    cases converts with
    | bool value => rfl
    | int value => rfl
    | float negative units => simp only [integer, truncate_finite]
    | text denotes => simp only [integer, Text.readInt?_eq_some_iff.mpr denotes]

/-! ## Failures of the service -/

/-- A result is a failure of the service itself. -/
def Fails {α : Type} (result : Except Failure α) : Prop :=
  ∃ failure, result = .error failure ∧ failure.status = 500

/-- A failure is one of the service exactly when its status is 500. -/
theorem fails_error_iff {α : Type} {failure : Failure} :
    Fails (.error failure : Except Failure α) ↔ failure.status = 500 := by
  constructor
  · rintro ⟨_, ⟨⟩, status⟩
    exact status
  · exact fun status => ⟨failure, rfl, status⟩

theorem not_fails_ok {α : Type} (value : α) : ¬ Fails (.ok value) := nofun

/-- A failure with the status 400 is one of the request. -/
theorem not_fails_error {α : Type} {failure : Failure} (status : failure.status = 400) :
    ¬ Fails (.error failure : Except Failure α) := by
  rw [fails_error_iff, status]
  decide

/-- Steps one after the other fail at the first that does. -/
theorem fails_bind_iff {α β : Type} {first : Except Failure α} {next : α → Except Failure β} :
    Fails (first >>= next) ↔ Fails first ∨ ∃ value, first = .ok value ∧ Fails (next value) := by
  cases first with
  | ok value =>
    constructor
    · exact fun fails => .inr ⟨value, rfl, fails⟩
    · rintro (fails | ⟨_, ⟨⟩, fails⟩)
      · exact absurd fails (not_fails_ok value)
      · exact fails
  | error failure =>
    constructor
    · exact fun fails => .inl (fails_error_iff.mpr (fails_error_iff.mp fails))
    · rintro (fails | ⟨_, ⟨⟩, _⟩)
      exact fails_error_iff.mpr (fails_error_iff.mp fails)

/-! ## Statuses -/

/-- The status of a result, if it is a failure, is one of those given. -/
def StatusIn {α : Type} (statuses : List Nat) (result : Except Failure α) : Prop :=
  ∀ failure, result = .error failure → failure.status ∈ statuses

section

variable {α β : Type} {statuses : List Nat}

theorem statusIn_ok (value : α) : StatusIn statuses (.ok value) := nofun

theorem statusIn_error {failure : Failure} (here : failure.status ∈ statuses) :
    StatusIn statuses (.error failure : Except Failure α) := by
  rintro _ ⟨⟩
  exact here

theorem StatusIn.mono {more : List Nat} {result : Except Failure α}
    (within : StatusIn statuses result) (wider : statuses ⊆ more) : StatusIn more result :=
  fun failure failed => wider (within failure failed)

theorem StatusIn.map {result : Except Failure α} (within : StatusIn statuses result)
    (change : α → β) : StatusIn statuses (result.map change) := by
  cases result with
  | ok value => exact statusIn_ok _
  | error failure => exact statusIn_error (within failure rfl)

/-- Steps one after the other have no statuses but their own. -/
theorem StatusIn.bind {first : Except Failure α} {next : α → Except Failure β}
    (within : StatusIn statuses first) (onward : ∀ value, StatusIn statuses (next value)) :
    StatusIn statuses (first >>= next) := by
  cases first with
  | ok value => exact onward value
  | error failure => exact statusIn_error (within failure rfl)

/-- What is refused with the status 400 is no failure of the service. -/
theorem StatusIn.not_fails {result : Except Failure α} (within : StatusIn [400] result) :
    ¬ Fails result := by
  rintro ⟨failure, failed, status⟩
  have refused := List.mem_singleton.mp (within failure failed)
  omega

end

/-- The status 500 is that of a failure of the service. -/
theorem status_ofResult_iff {result : Except Failure Answer} :
    (Reply.ofResult result).status = 500 ↔ Fails result := by
  cases result with
  | ok answer => exact iff_of_false nofun (not_fails_ok answer)
  | error failure => exact fails_error_iff.symm

/-- Where the service does not fail, the status is 200 or 400. -/
theorem status_ofResult_of_not_fails {result : Except Failure Answer}
    (within : StatusIn [400, 500] result) (holds : ¬ Fails result) :
    (Reply.ofResult result).status = 200 ∨ (Reply.ofResult result).status = 400 := by
  cases result with
  | ok answer => exact .inl rfl
  | error failure =>
    have status := List.mem_pair.mp (within failure rfl)
    exact .inr (status.resolve_right fun broken => holds (fails_error_iff.mpr broken))

/-! ## Steps of the handlers -/

/-- The service fails on any value that is no object. -/
theorem fails_bodyMembers_iff {value : Json} :
    Fails (bodyMembers value) ↔ ∀ members, value ≠ .obj members := by
  cases value with
  | obj members => exact iff_of_false (not_fails_ok members) fun other => other members rfl
  | null | bool value | int value | float value | str text | arr items =>
    exact iff_of_true (fails_error_iff.mpr rfl) nofun

/-- A missing description is the client's failure. -/
theorem statusIn_givenDescription (members : List (String × Json)) :
    StatusIn [400] (givenDescription members) := by
  unfold givenDescription
  split
  · exact statusIn_error (List.mem_singleton.mpr rfl)
  · split
    · exact statusIn_error (List.mem_singleton.mpr rfl)
    · exact statusIn_ok _

/-- A defect of a description is the client's failure. -/
theorem statusIn_readDfa (description : Json) : StatusIn [400] (readDfa description) := by
  unfold readDfa
  cases Dfa.ofJson description with
  | ok dfa => exact statusIn_ok dfa
  | error defect => exact statusIn_error (List.mem_singleton.mpr rfl)

/-- A value that is no alphabet is the client's failure. -/
theorem statusIn_givenAlphabet (members : List (String × Json)) :
    StatusIn [400] (givenAlphabet members) := by
  unfold givenAlphabet
  split
  · simp only
    split
    · exact statusIn_error (List.mem_singleton.mpr rfl)
    · split
      · exact statusIn_ok _
      · exact statusIn_error (List.mem_singleton.mpr rfl)
  · exact statusIn_error (List.mem_singleton.mpr rfl)

theorem statusIn_integer (value : Json) : StatusIn [400, 500] (integer value) := by
  have refused : StatusIn [400, 500] (.error .notIntegers : Except Failure Int) :=
    statusIn_error (by decide)
  cases value with
  | bool value | int value => exact statusIn_ok _
  | float value =>
    cases value with
    | finite negative units => exact statusIn_ok _
    | infinite negative => exact statusIn_error (by decide)
    | notANumber => exact refused
  | str text =>
    simp only [integer]
    cases Text.readInt? text with
    | none => exact refused
    | some value => exact statusIn_ok value
  | null | arr items | obj members => exact refused

/-- No request to list automata is left unserved. -/
theorem statusIn_enumerate (members : List (String × Json)) :
    StatusIn [400, 500] (enumerate members) := by
  have alphabet := (statusIn_givenAlphabet members).mono (by decide : [400] ⊆ [400, 500])
  unfold enumerate
  refine alphabet.bind fun texts => ?_
  refine (statusIn_integer _).bind fun count => (statusIn_integer _).bind fun maxStates => ?_
  simp only
  split
  · exact statusIn_error (by decide)
  · exact statusIn_ok _

/-- An alphabet is taken when it is a list of distinct strings. -/
theorem givenAlphabet_eq_ok_iff {members : List (String × Json)} {texts : List String} :
    givenAlphabet members = .ok texts ↔
      members.lookup "alphabet" = some (.ofTexts texts) ∧ texts.Nodup := by
  unfold givenAlphabet
  constructor
  · intro accepted
    split at accepted
    · rename_i items entry
      simp only [ne_eq, ite_not] at accepted
      split at accepted
      · rename_i complete
        split at accepted
        · rename_i distinct
          cases accepted
          refine ⟨?_, distinct⟩
          have strings : ∀ value ∈ items, ∃ text, value = .str text := fun value member =>
            (Option.isSome_iff_exists.mp (List.filterMap_length_eq_length.mp complete value
              member)).imp fun _ => Json.text?_eq_some_iff.mp
          rw [entry, Json.ofTexts, ← Json.eq_map_str strings]
        · cases accepted
      · cases accepted
    · cases accepted
  · rintro ⟨entry, distinct⟩
    simp only [entry, Json.ofTexts, Json.filterMap_text?_map_str, List.length_map, ne_eq,
      not_true_eq_false, ↓reduceIte, distinct]

/-- Of all values only the infinite numbers make the service fail. -/
theorem fails_integer_iff {value : Json} :
    Fails (integer value) ↔ ∃ negative, value = .float (.infinite negative) := by
  constructor
  · intro fails
    cases value with
    | float value =>
      cases value with
      | infinite negative => exact ⟨negative, rfl⟩
      | finite negative units => exact absurd fails (not_fails_ok _)
      | notANumber => exact absurd fails (not_fails_error rfl)
    | str text =>
      simp only [integer] at fails
      cases found : Text.readInt? text with
      | none =>
        rw [found] at fails
        exact absurd fails (not_fails_error rfl)
      | some value =>
        rw [found] at fails
        exact absurd fails (not_fails_ok _)
    | bool value | int value => exact absurd fails (not_fails_ok _)
    | null | arr items | obj members => exact absurd fails (not_fails_error rfl)
  · rintro ⟨negative, rfl⟩
    exact fails_error_iff.mpr rfl

/-! ## Failures of the handlers -/

/-- The bodies on which the service fails. -/
inductive Breaks : Endpoint → Json → Prop
  | notObject {endpoint : Endpoint} {value : Json} (other : ∀ members, value ≠ .obj members) :
      Breaks endpoint value
  | count {members : List (String × Json)} {alphabet : List String} {negative : Bool}
      (listed : members.lookup "alphabet" = some (.ofTexts alphabet)) (distinct : alphabet.Nodup)
      (infinite : members.lookup "count" = some (.float (.infinite negative))) :
      Breaks .enumerate (.obj members)
  /-- The count is read first, and must not be refused. -/
  | maxStates {members : List (String × Json)} {alphabet : List String} {negative : Bool}
      (listed : members.lookup "alphabet" = some (.ofTexts alphabet)) (distinct : alphabet.Nodup)
      (counted : ∀ value, members.lookup "count" = some value → ∃ count, Converts value count)
      (infinite : members.lookup "max_states" = some (.float (.infinite negative))) :
      Breaks .enumerate (.obj members)

/-- An entry is an infinite number only when it is there: what stands in for it is finite. -/
theorem fails_integer_getD_iff {entry : Option Json} {standard : Int} :
    Fails (integer (entry.getD (.int standard))) ↔
      ∃ negative, entry = some (.float (.infinite negative)) := by
  rw [fails_integer_iff]
  cases entry with
  | none => exact iff_of_false nofun nofun
  | some value => simp only [Option.getD_some, Option.some.injEq]

/-- An entry is counted unless it is there and counts for nothing. -/
theorem exists_integer_getD_iff {entry : Option Json} {standard : Int} :
    (∃ number, integer (entry.getD (.int standard)) = .ok number) ↔
      ∀ value, entry = some value → ∃ number, Converts value number := by
  simp only [integer_eq_ok_iff]
  cases entry with
  | none => exact iff_of_true ⟨standard, .int standard⟩ nofun
  | some value => simp only [Option.getD_some, Option.some.injEq, forall_eq']

/-- Listing automata fails at an infinite number that is read. -/
theorem fails_enumerate_iff {members : List (String × Json)} :
    Fails (enumerate members) ↔ Breaks .enumerate (.obj members) := by
  have total : ∀ (alphabet : List String) (maxStates count : Int),
      ¬ Fails (if Nat.pow 10 Text.digitLimit ≤ Dfa.Enumeration.size alphabet then
        .error .totalTooLong else .ok (.automata (Dfa.Enumeration.enumerate alphabet maxStates
          count).toList (Dfa.Enumeration.size alphabet)) : Except Failure Answer) := by
    intro alphabet maxStates count
    split
    · exact not_fails_error rfl
    · exact not_fails_ok _
  unfold enumerate
  simp only [fails_bind_iff, fails_integer_getD_iff, total, and_false, exists_false, or_false,
    (statusIn_givenAlphabet members).not_fails, false_or, givenAlphabet_eq_ok_iff]
  constructor
  · rintro ⟨alphabet, ⟨listed, distinct⟩,
      ⟨negative, infinite⟩ | ⟨count, counted, negative, infinite⟩⟩
    · exact .count listed distinct infinite
    · exact .maxStates listed distinct (exists_integer_getD_iff.mp ⟨count, counted⟩) infinite
  · intro breaks
    cases breaks with
    | notObject other => exact absurd rfl (other members)
    | count listed distinct infinite => exact ⟨_, ⟨listed, distinct⟩, .inl ⟨_, infinite⟩⟩
    | maxStates listed distinct counted infinite =>
      obtain ⟨count, counted⟩ := exists_integer_getD_iff.mpr counted
      exact ⟨_, ⟨listed, distinct⟩, .inr ⟨count, counted, _, infinite⟩⟩

/-- Whatever is wrong with a description or an input is the client's failure. -/
theorem statusIn_workOn {endpoint : Endpoint} (takes : endpoint ≠ .enumerate) (maxSteps : Int)
    (members : List (String × Json)) (description : Json) :
    StatusIn [400] (workOn endpoint maxSteps members description) := by
  have works : ∀ result : Dfa → Answer, StatusIn [400] ((readDfa description).map result) :=
    (statusIn_readDfa description).map
  cases endpoint with
  | validate => exact statusIn_ok _
  | enumerate => exact absurd rfl takes
  | convert => exact works _
  | simulate =>
    unfold workOn
    simp only
    split
    · exact works _
    · exact statusIn_error (List.mem_singleton.mpr rfl)
  | checkEmpty => exact works _

/-- Where a description is taken, nothing fails once the body is an object. -/
theorem statusIn_handle_obj {endpoint : Endpoint} (takes : endpoint ≠ .enumerate) (maxSteps : Int)
    (members : List (String × Json)) :
    StatusIn [400] (handle endpoint maxSteps (.obj members)) := by
  rw [handle_obj takes]
  exact (statusIn_givenDescription members).bind (statusIn_workOn takes maxSteps members)

/-- A handler answers, or fails with one of two statuses. -/
theorem statusIn_handle (endpoint : Endpoint) (maxSteps : Int) (value : Json) :
    StatusIn [400, 500] (handle endpoint maxSteps value) := by
  cases value with
  | obj members =>
    by_cases listing : endpoint = .enumerate
    · subst listing
      exact statusIn_enumerate members
    · exact (statusIn_handle_obj listing maxSteps members).mono (by decide)
  | null | bool value | int value | float value | str text | arr items =>
    change StatusIn [400, 500] (.error (.notObject _) : Except Failure Answer)
    exact statusIn_error (by decide : 500 ∈ [400, 500])

/-- **The service fails on exactly these bodies.** -/
theorem fails_handle_iff (endpoint : Endpoint) (maxSteps : Int) (value : Json) :
    Fails (handle endpoint maxSteps value) ↔ Breaks endpoint value := by
  by_cases object : ∃ members, value = .obj members
  · obtain ⟨members, rfl⟩ := object
    by_cases listing : endpoint = .enumerate
    · subst listing
      exact fails_enumerate_iff
    · refine iff_of_false (statusIn_handle_obj listing maxSteps members).not_fails fun breaks => ?_
      cases breaks with
      | notObject other => exact other members rfl
      | count | maxStates => exact listing rfl
  · have other : ∀ members, value ≠ .obj members := not_exists.mp object
    exact iff_of_true (fails_bind_iff.mpr (.inl (fails_bodyMembers_iff.mpr other)))
      (.notObject other)

/-! ## Posts -/

/-- What is taken for granted of a body: it is not too large to be taken in, and if it is an object,
no surrogate stands alone in its texts. -/
structure Admitted (body : ByteArray) : Prop where
  size_le : body.size ≤ uploadLimit
  whole : ∀ members, Json.ofBytes? body ≠ some ⟨.obj members, false⟩

section

variable {body : ByteArray}

/-- A small body is admitted when it is no JSON text. -/
theorem admitted_of_malformed (small : body.size ≤ uploadLimit)
    (malformed : Json.ofBytes? body = none) : Admitted body := by
  refine ⟨small, fun members read => ?_⟩
  cases malformed.symm.trans read

/-- A small body is admitted when no surrogate stands alone in it, or when it is no object. -/
theorem admitted_of_read {reading : Json.Reading} (small : body.size ≤ uploadLimit)
    (read : Json.ofBytes? body = some reading)
    (whole : reading.whole = true ∨ ∀ members, reading.value ≠ .obj members) : Admitted body := by
  refine ⟨small, fun members other => ?_⟩
  cases read.symm.trans other
  rcases whole with complete | noObject
  · cases complete
  · exact noObject members rfl

variable (admitted : Admitted body)

include admitted

/-- What is no JSON text is refused as such. -/
theorem readBody_of_malformed (malformed : Json.ofBytes? body = none) :
    readBody body = .error .malformed := by
  unfold readBody
  rw [if_neg (Nat.not_lt.mpr admitted.size_le), malformed]

/-- An admitted body gives the value that its bytes hold. -/
theorem readBody_of_admitted {reading : Json.Reading} (read : Json.ofBytes? body = some reading) :
    readBody body = .ok reading.value := by
  have whole := admitted.whole
  obtain ⟨value, complete⟩ := reading
  unfold readBody
  rw [if_neg (Nat.not_lt.mpr admitted.size_le), read]
  cases value with
  | obj members =>
    cases complete with
    | true => rfl
    | false => exact absurd read (whole members)
  | null | bool value | int value | float value | str text | arr items => rfl

end

/-- What becomes of the bodies that are left out. -/
theorem post_of_not_admitted (endpoint : Endpoint) (maxSteps : Int) {body : ByteArray}
    (out : ¬ Admitted body) :
    (uploadLimit < body.size ∧ post endpoint maxSteps body = .error 500
      "Server error: Request body exceeded settings.DATA_UPLOAD_MAX_MEMORY_SIZE.") ∨
      (∃ members, Json.ofBytes? body = some ⟨.obj members, false⟩) ∧
        (post endpoint maxSteps body).status = 501 := by
  by_cases large : uploadLimit < body.size
  · refine .inl ⟨large, ?_⟩
    have refused : readBody body = .error .tooLarge := if_pos large
    rw [post_eq, refused]
    rfl
  · have broken : ∃ members, Json.ofBytes? body = some ⟨.obj members, false⟩ := by
      by_contra whole
      exact out ⟨Nat.not_lt.mp large, not_exists.mp whole⟩
    refine .inr ⟨broken, ?_⟩
    obtain ⟨members, read⟩ := broken
    have refused : readBody body = .error .loneSurrogate := by
      unfold readBody
      rw [if_neg large, read]
      rfl
    rw [post_eq, refused]
    rfl

/-- **When a post is replied to with the status 500.** Otherwise the status is 200 or 400, and it is
400 whenever the body is no JSON text. No trouble comes up on the way. -/
theorem status_post (endpoint : Endpoint) (maxSteps : Int) {body : ByteArray}
    (admitted : Admitted body) :
    Reply.ofAttempt (attempt endpoint maxSteps body) = post endpoint maxSteps body ∧
      (Json.ofBytes? body = none → (post endpoint maxSteps body).status = 400) ∧
      ∀ reading, Json.ofBytes? body = some reading →
        ((post endpoint maxSteps body).status = 500 ↔ Breaks endpoint reading.value) ∧
          (¬ Breaks endpoint reading.value →
            (post endpoint maxSteps body).status = 200 ∨
              (post endpoint maxSteps body).status = 400) := by
  refine ⟨ofAttempt_attempt endpoint maxSteps body, ?_, ?_⟩
  · intro malformed
    rw [post_eq, readBody_of_malformed admitted malformed]
    rfl
  · intro reading read
    rw [post_of_readBody (readBody_of_admitted admitted read),
      ← fails_handle_iff endpoint maxSteps reading.value]
    exact ⟨status_ofResult_iff,
      status_ofResult_of_not_fails (statusIn_handle endpoint maxSteps reading.value)⟩

/-- A request for infinitely many automata. -/
def endlessBody : ByteArray := "\x7b\"alphabet\":[],\"count\":Infinity\x7d".toUTF8

/-- A request with an infinite number of states, and a list where the count should be. -/
def miscountBody : ByteArray :=
  "\x7b\"alphabet\":[],\"count\":[],\"max_states\":Infinity\x7d".toUTF8

/-- A list with a text that is half of a surrogate pair. -/
def halfBody : ByteArray := "[\"\\ud800\"]".toUTF8

/-- A list is no object, not even one with half of a surrogate pair, and there is no listing
infinitely many automata. But a count that is no number is refused before the number of states is
read, and so is a list that is left open. -/
theorem status_post_listing :
    (post .validate 5 halfBody).status = 500 ∧ (post .enumerate 5 endlessBody).status = 500 ∧
      (post .enumerate 5 miscountBody).status ≠ 500 ∧
      (post .convert 5 "[".toUTF8).status = 400 := by
  refine ⟨?_, ?_, ?_, ?_⟩
  · have read : Json.ofBytes? halfBody = some ⟨.arr [.str "\uFFFD"], false⟩ :=
      ofBytes?_of_read? (by decide +kernel) rfl
    have noObject (members : List (String × Json)) :
        Json.arr [.str "\uFFFD"] ≠ .obj members := by
      intro same
      cases same
    have admitted := admitted_of_read (by decide +kernel) read (.inr noObject)
    exact ((status_post .validate 5 admitted).2.2 _ read).1.mpr (.notObject noObject)
  · have read : Json.ofBytes? endlessBody =
        some ⟨.obj [("alphabet", .ofTexts []), ("count", .float (.infinite false))], true⟩ :=
      ofBytes?_of_read? (by decide +kernel) rfl
    have admitted := admitted_of_read (by decide +kernel) read (.inl rfl)
    exact ((status_post .enumerate 5 admitted).2.2 _ read).1.mpr (.count rfl .nil rfl)
  · have read : Json.ofBytes? miscountBody =
        some ⟨.obj [("alphabet", .ofTexts []), ("count", .arr []),
          ("max_states", .float (.infinite false))], true⟩ :=
      ofBytes?_of_read? (by decide +kernel) rfl
    have admitted := admitted_of_read (by decide +kernel) read (.inl rfl)
    intro status
    have breaks := ((status_post .enumerate 5 admitted).2.2 _ read).1.mp status
    cases breaks with
    | notObject other => exact other _ rfl
    | count listed distinct infinite => cases infinite
    | maxStates listed distinct counted infinite =>
      obtain ⟨count, converts⟩ := counted (.arr []) rfl
      cases converts
  · have malformed : Json.ofBytes? "[".toUTF8 = none := by
      have decoded : Text.decode? "[".toUTF8 = some ⟨"[", true⟩ := by decide +kernel
      rw [Json.ofBytes?, decoded]
      rfl
    have admitted := admitted_of_malformed (by decide +kernel) malformed
    exact (status_post .convert 5 admitted).2.1 malformed

end Service

end AutomataKit
