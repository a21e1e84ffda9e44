import AutomataKit.Proofs.Dfa.RunReading
import AutomataKit.Proofs.Dfa.Variation

/-!
# Runs in parts

A run over a text followed by another reads the first text and goes on from where that ended, unless
it was stopped before. What it reports of the second text is what the automaton started in that
state reports, with the transitions of the first part before and the position of a rejection counted
from the beginning (`Dfa.run_append`). An automaton started in another of its states is described by
naming that state as the start state; so the two runs can be asked for with descriptions alone
(`Dfa.run_append_ofJson`).
-/

namespace AutomataKit

namespace Dfa

/-- The report of a run of which a part was read before: so many characters, with these transitions.
-/
def Run.resumed (run : Run) (position : Nat) (path : List (String × Char × String)) : Run :=
  { run with
    path := path ++ run.path
    rejection := run.rejection.map fun rejection =>
      ⟨rejection.symbol, position + rejection.position⟩ }

theorem Run.resumed_nil (run : Run) : run.resumed 0 [] = run := by
  obtain ⟨path, last, accepted, rejection⟩ := run
  cases rejection <;> simp [Run.resumed]

theorem Run.resumed_resumed (run : Run) (before position : Nat)
    (earlier path : List (String × Char × String)) :
    (run.resumed position path).resumed before earlier =
      run.resumed (before + position) (earlier ++ path) := by
  obtain ⟨later, last, accepted, rejection⟩ := run
  cases rejection <;> simp [Run.resumed, Nat.add_assoc]

variable {dfa : Dfa}

theorem report_walk_cons_of_some {c : Char} {symbol : dfa.Symbol}
    (known : dfa.symbolOf? c = some symbol) (state : dfa.State) (rest : List Char) :
    (dfa.walk state (c :: rest)).report =
      (dfa.walk (dfa.next state symbol) rest).report.resumed 1
        [(dfa.name state, c, dfa.name (dfa.next state symbol))] := by
  rw [walk_cons_of_some known]
  simp [Walk.report, Run.resumed, Function.comp_def, Nat.add_comm]

/-! ## Walks over one text after another -/

/-- What stops a walk stops it whatever comes after. -/
theorem walk_append_of_stopped {state : dfa.State} {first : List Char}
    (stopped : (dfa.walk state first).stoppedBy ≠ none) (second : List Char) :
    dfa.walk state (first ++ second) = dfa.walk state first := by
  induction first generalizing state with
  | nil => exact absurd rfl stopped
  | cons c rest ih =>
    rw [List.cons_append]
    cases found : dfa.symbolOf? c with
    | none => rw [walk_cons_of_none found, walk_cons_of_none found]
    | some symbol =>
      rw [walk_cons_of_some found] at stopped
      rw [walk_cons_of_some found, walk_cons_of_some found, ih stopped]

/-- A walk that was not stopped goes on from where it stands. -/
theorem report_walk_append {state : dfa.State} {first : List Char}
    (unstopped : (dfa.walk state first).stoppedBy = none) (second : List Char) :
    (dfa.walk state (first ++ second)).report =
      (dfa.walk (dfa.walk state first).last second).report.resumed first.length
        (dfa.walk state first).report.path := by
  induction first generalizing state with
  | nil => exact (Run.resumed_nil _).symm
  | cons c rest ih =>
    cases found : dfa.symbolOf? c with
    | none =>
      rw [walk_cons_of_none found] at unstopped
      cases unstopped
    | some symbol =>
      have last : (dfa.walk state (c :: rest)).last =
          (dfa.walk (dfa.next state symbol) rest).last := by
        rw [walk_cons_of_some found]
      rw [walk_cons_of_some found] at unstopped
      -- The reports of both parts are resumed after the first character.
      rw [List.cons_append, report_walk_cons_of_some found, ih unstopped, Run.resumed_resumed,
        report_walk_cons_of_some found, last, List.length_cons, Nat.add_comm]
      rfl

/-! ## Starting in another state -/

variable (dfa)

/-- The automaton with another start state. -/
def startingIn (state : dfa.State) : Dfa := { dfa with start := state }

/-- Walks of the two automata are of different types; what they report is the same. -/
theorem report_walk_startingIn (start state : dfa.State) (chars : List Char) :
    ((dfa.startingIn start).walk state chars).report = (dfa.walk state chars).report := by
  induction chars generalizing state with
  | nil => rfl
  | cons c rest ih =>
    cases found : dfa.symbolOf? c with
    | none =>
      have same : (dfa.startingIn start).symbolOf? c = none := found
      rw [walk_cons_of_none found]
      exact congrArg Walk.report (walk_cons_of_none same state rest)
    | some symbol =>
      have same : (dfa.startingIn start).symbolOf? c = some symbol := found
      rw [report_walk_cons_of_some found, ← ih]
      exact report_walk_cons_of_some same state rest

/-- **Runs compose.** Where the first text was read to its end, the rest is a run of the automaton
started in the state reached. -/
theorem run_append {first : String} {last : dfa.State}
    (ends : (dfa.walk dfa.start first.toList).stoppedBy = none ∧
      (dfa.walk dfa.start first.toList).last = last) (second : String) :
    dfa.run (first ++ second) =
      ((dfa.startingIn last).run second).resumed first.length (dfa.run first).path := by
  obtain ⟨unstopped, rfl⟩ := ends
  have onward := dfa.report_walk_startingIn (dfa.walk dfa.start first.toList).last
    (dfa.walk dfa.start first.toList).last second.toList
  unfold run
  rw [String.toList_append, report_walk_append unstopped, String.length_toList, ← onward]
  rfl

/-- What comes after the symbol that stops a run is not read. -/
theorem run_append_of_stopped {first : String} (stopped : (dfa.run first).rejection.isSome)
    (second : String) : dfa.run (first ++ second) = dfa.run first := by
  unfold run at stopped ⊢
  rw [String.toList_append, walk_append_of_stopped]
  intro unstopped
  simp [Walk.report, unstopped] at stopped

variable {dfa}

/-! ## Descriptions with another start state -/

/-- Any state can be the start state. -/
theorem Document.defect?_withEntry_start {doc : Document} (valid : doc.defect? = none)
    {name : String} (known : name ∈ doc.stateNames) :
    (doc.withEntry (.str name) .startState).defect? = none := by
  obtain ⟨states, alphabet, transitions, -, accept⟩ := defect?_eq_none_iff.mp valid
  have among : (Json.str name).Among doc.states.items := by
    rw [(wellFormed_of_defect? valid).states_eq]
    exact (Json.str_among_iff name doc.stateNames).mpr known
  exact defect?_eq_none_iff.mpr
    ⟨states, alphabet, transitions, startDefect?_eq_none_iff.mpr among, accept⟩

theorem ofDocument_withEntry_start {doc : Document} (sound : doc.WellFormed)
    (state : (ofDocument doc sound).State)
    (otherSound :
      (doc.withEntry (.str ((ofDocument doc sound).name state)) .startState).WellFormed) :
    ofDocument _ otherSound = (ofDocument doc sound).startingIn state := by
  have start : (ofDocument _ otherSound).start = state :=
    (ofDocument doc sound).name_injective (name_start_ofDocument otherSound)
  exact congrArg (ofDocument doc sound).startingIn start

/-- **Runs over two texts, of two descriptions.** A run that was rejected at a character of the
first text is the whole run. After any other, naming the final state as the start state describes an
automaton, and the second text is read as that one reads it. -/
theorem run_append_ofJson {value : Json} {dfa : Dfa} (read : ofJson value = .ok dfa)
    (first second : String) :
    ((dfa.run first).rejection.isSome → dfa.run (first ++ second) = dfa.run first) ∧
      ((dfa.run first).rejection = none →
        ∃ onward,
          ofJson (value.withMember "start_state" (.str (dfa.run first).finalState)) =
            .ok onward ∧
          (dfa.run (first ++ second)).accepted = (onward.run second).accepted ∧
          (dfa.run (first ++ second)).finalState = (onward.run second).finalState ∧
          (dfa.run (first ++ second)).path = (dfa.run first).path ++ (onward.run second).path ∧
          (dfa.run (first ++ second)).rejection.map Rejection.reason =
            (onward.run second).rejection.map Rejection.reason ∧
          (dfa.run (first ++ second)).rejection.map Rejection.position =
            (onward.run second).rejection.map fun rejection =>
              first.length + rejection.position) := by
  refine ⟨fun stopped => dfa.run_append_of_stopped stopped second, fun unstopped => ?_⟩
  obtain ⟨doc, sound, entries, valid, rfl⟩ := ofJson_eq_ok_iff.mp read
  have ended : ((ofDocument doc sound).walk (ofDocument doc sound).start first.toList).stoppedBy =
      none := Option.map_eq_none_iff.mp unstopped
  generalize reached :
    ((ofDocument doc sound).walk (ofDocument doc sound).start first.toList).last = last
  have final : ((ofDocument doc sound).run first).finalState = (ofDocument doc sound).name last :=
    congrArg (ofDocument doc sound).name reached
  have otherValid := Document.defect?_withEntry_start valid (List.getElem_mem last.isLt)
  have otherSound := Document.wellFormed_of_defect? otherValid
  have onward : ofJson (value.withMember "start_state"
      (.str ((ofDocument doc sound).name last))) = .ok ((ofDocument doc sound).startingIn last) :=
    ofJson_eq_ok_iff.mpr ⟨_, otherSound, Document.ofJson_withMember entries .startState _,
      otherValid, ofDocument_withEntry_start sound last otherSound⟩
  rw [final]
  refine ⟨_, onward, ?_⟩
  rw [(ofDocument doc sound).run_append ⟨ended, reached⟩ second]
  exact ⟨rfl, rfl, rfl, Option.map_map .., Option.map_map ..⟩

/-- The run over the first two characters ends elsewhere than it began, so the second text is read
by another automaton. -/
theorem run_append_stammer :
    ofJson stammerDescription.toJson = .ok stammer ∧
      stammer.run ("b?" ++ "ab") = ⟨[("out", 'b', "out")], "out", false, some ⟨'?', 1⟩⟩ ∧
      ∃ onward, ofJson (stammerDescription.toJson.withMember "start_state" (.str "in")) =
          .ok onward ∧
        onward.run "a?" = ⟨[("in", 'a', "out")], "out", false, some ⟨'?', 1⟩⟩ ∧
        (stammer.run ("ab" ++ "a?")).path =
          [("out", 'a', "in"), ("in", 'b', "in")] ++ [("in", 'a', "out")] ∧
        (stammer.run ("ab" ++ "a?")).rejection.map Rejection.position = some 3 := by
  have read : ofJson stammerDescription.toJson = .ok stammer := rfl
  have rejected : stammer.run "b?" = ⟨[("out", 'b', "out")], "out", false, some ⟨'?', 1⟩⟩ := by
    decide +kernel
  have report : stammer.run "ab" =
    ⟨[("out", 'a', "in"), ("in", 'b', "in")], "in", true, none⟩ := by decide +kernel
  obtain ⟨stays, -⟩ := run_append_ofJson read "b?" "ab"
  obtain ⟨-, goes⟩ := run_append_ofJson read "ab" "a?"
  rw [report] at goes
  obtain ⟨onward, other, -, -, path, -, position⟩ := goes rfl
  have started : onward = stammer.startingIn ⟨1, by decide⟩ := by
    cases other
    rfl
  have later : onward.run "a?" = ⟨[("in", 'a', "out")], "out", false, some ⟨'?', 1⟩⟩ := by
    rw [started]
    decide +kernel
  rw [later] at path position
  refine ⟨read, ?_, onward, other, later, path, position⟩
  rw [stays (by rw [rejected]; rfl), rejected]

end Dfa

end AutomataKit
