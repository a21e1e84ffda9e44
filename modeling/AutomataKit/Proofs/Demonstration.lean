import AutomataKit.Proofs.Machine.Parity

/-!
# What the demonstration says of a run

The third program of the demonstration reports on one run after the other: a line for each moment,
with the next letter in brackets, and a line for the result. A message may begin with a line break,
which makes an empty line. For the letters a and b the report says after each of them whether the
letter a occurred an even number of times (`Demonstration.text_parity`).
-/

namespace AutomataKit

/-- A line shows the cell at the place of the head in brackets, if there is one. -/
theorem Configuration.render_at (state : String) (tape : List String) (place : Nat) :
    render ⟨state, tape, place⟩ = "State=" ++ state ++ ", Tape: " ++
      " ".intercalate (tape.modify place fun symbol => "[" ++ symbol ++ "]") := by
  unfold render
  refine congrArg ("State=" ++ state ++ ", Tape: " ++ " ".intercalate ·) ?_
  refine List.ext_getElem (by simp) fun index _ _ => ?_
  have under : (index : Int) = place ↔ place = index := by omega
  simp only [List.getElem_map, List.getElem_zipIdx, List.getElem_modify, cellText, Nat.zero_add,
    under]

namespace Demonstration

/-! ## Lines -/

/-- What is written for messages. -/
def written (messages : List String) : String := String.join (messages.map ended)

/-- Lines as they are printed, each with a line break behind it. -/
def printed (lines : List String) : String := String.join (lines.map (· ++ "\n"))

/-- A text without a line break. -/
def OneLine (text : String) : Prop := '\n' ∉ text.toList

instance (text : String) : Decidable (OneLine text) := inferInstanceAs (Decidable (_ ∉ _))

theorem written_append (first second : List String) :
    written (first ++ second) = written first ++ written second := by
  rw [written, List.map_append, String.join_append, written, written]

theorem printed_append (first second : List String) :
    printed (first ++ second) = printed first ++ printed second := by
  rw [printed, List.map_append, String.join_append, printed, printed]

/-- Two texts make one line when both have no break. -/
@[simp] theorem oneLine_append {first second : String} :
    OneLine (first ++ second) ↔ OneLine first ∧ OneLine second := by
  rw [OneLine, String.toList_append, List.mem_append, not_or, OneLine, OneLine]

/-- A number is written without a break. -/
theorem oneLine_toString (number : Nat) : OneLine (toString number) := by
  rw [OneLine, Nat.toString_eq_ofList_toDigits, String.toList_ofList]
  intro member
  exact absurd (Nat.isDigit_of_mem_toDigits (by decide) (by decide) member) (by decide)

/-- Joining texts without a break by a mark without one gives no break. -/
theorem oneLine_intercalate {mark : String} (between : OneLine mark) {parts : List String}
    (all : ∀ part ∈ parts, OneLine part) : OneLine (mark.intercalate parts) := by
  induction parts with
  | nil => exact List.not_mem_nil
  | cons part rest ih =>
    have first := all part List.mem_cons_self
    have others := ih fun other member => all other (List.mem_cons_of_mem part member)
    by_cases none : rest = []
    · rw [none, String.intercalate_singleton]
      exact first
    · rw [String.intercalate_cons_of_ne_nil none]
      exact oneLine_append.mpr ⟨oneLine_append.mpr ⟨first, between⟩, others⟩

/-- A message ends in a line break when its last character is one. -/
theorem endsWith_break_iff {message : String} :
    message.endsWith "\n" = true ↔ ['\n'] <:+ message.toList := by
  rw [String.endsWith_eq_endsWith_toSlice, String.Slice.endsWith_string_iff, String.copy_toSlice]
  rfl

/-- A line ends in no break, because it has none. -/
theorem not_endsWith_of_oneLine {line : String} (one : OneLine line) :
    ¬ ['\n'] <:+ line.toList := fun behind =>
  one (behind.subset List.mem_cons_self)

/-- A message of one line is written as that line. -/
theorem written_of_oneLine {message : String} (one : OneLine message) :
    written [message] = printed [message] := by
  have ends : ended message = message ++ "\n" :=
    if_neg (mt endsWith_break_iff.mp (not_endsWith_of_oneLine one))
  rw [written, printed, List.map_singleton, ends, List.map_singleton]

/-- A line break before a line is written as an empty line. -/
theorem written_break_append {line : String} (one : OneLine line) (nonempty : line ≠ "") :
    written ["\n" ++ line] = printed ["", line] := by
  have inside : ¬ ['\n'] <:+ ("\n" ++ line).toList := by
    rw [String.toList_append]
    intro behind
    rcases List.suffix_cons_iff.mp behind with whole | behind
    · exact nonempty (String.toList_injective (List.cons.inj whole).2.symm)
    · exact not_endsWith_of_oneLine one behind
  have ends : ended ("\n" ++ line) = "\n" ++ line ++ "\n" :=
    if_neg (mt endsWith_break_iff.mp inside)
  rw [written, List.map_singleton, ends, printed]
  simp [String.append_assoc]

/-- Messages of one line each are written as these lines. -/
theorem written_of_forall {messages : List String} (all : ∀ message ∈ messages, OneLine message) :
    written messages = printed messages := by
  induction messages with
  | nil => rfl
  | cons message rest ih =>
    have first := written_of_oneLine (all message List.mem_cons_self)
    have others := ih fun other member => all other (List.mem_cons_of_mem message member)
    rw [← List.singleton_append, written_append, first, others, printed_append]

/-! ## The report on a run -/

/-- The line of a moment. -/
def stepLine (number : Nat) (state : String) (cells : List String) : String :=
  "Step " ++ toString number ++ ": State=" ++ state ++ ", Tape: " ++ " ".intercalate cells

/-- The line of the moment at which some characters are read. The cell with the next one is in
brackets, and none is after the last. -/
def momentLine (input : String) (count : Nat) : String :=
  stepLine count (if Even ((input.toList.take count).count 'a') then "q0" else "q1")
    ((Dfa.letterCells input.toList).modify count fun symbol => "[" ++ symbol ++ "]")

/-- The line of the moment after the decision. -/
def decisionLine (input : String) : String :=
  stepLine (input.length + 1) (if Even (input.toList.count 'a') then "q_accept" else "q_reject")
    (input.toList.map String.singleton ++ ["_"])

/-- The lines on the run: one before each character, one behind the last, and that of the decision.
-/
def stepLines (input : String) : List String :=
  (List.range (input.length + 1)).map (momentLine input) ++ [decisionLine input]

/-- The line on the verdict. -/
def resultLine (input : String) : String :=
  if Even (input.toList.count 'a') then "Result: ACCEPTED" else "Result: REJECTED"

/-- All lines about the run on an input. -/
def reportLines (input : String) : List String :=
  ["", "Simulating TM on input string: \"" ++ input ++ "\"", "", "Tape Configurations:"] ++
    stepLines input ++ ["", resultLine input]

/-- A rendered configuration marks the symbol under the head with brackets. -/
theorem stepLine_render (number : Nat) (state : String) (tape : List String) (place : Nat) :
    "Step " ++ toString number ++ ": " ++ Configuration.render ⟨state, tape, place⟩ =
      stepLine number state (tape.modify place fun symbol => "[" ++ symbol ++ "]") := by
  have joined : ": " ++ "State=" = ": State=" := rfl
  rw [Configuration.render_at, stepLine, ← joined]
  simp only [String.append_assoc]

/-- The line on a configuration has no break when its state and its symbols have none. -/
theorem oneLine_stepLine {number : Nat} {state : String} {cells : List String}
    (named : OneLine state) (all : ∀ cell ∈ cells, OneLine cell) :
    OneLine (stepLine number state cells) := by
  have blank : OneLine " " := by decide
  have marks : OneLine "Step " ∧ OneLine ": State=" ∧ OneLine ", Tape: " := by decide
  unfold stepLine
  simp only [oneLine_append, marks, named, oneLine_toString, oneLine_intercalate blank all,
    and_self]

/-- Brackets around one of several symbols bring no break. -/
theorem oneLine_of_mem_modify {cells : List String} (all : ∀ cell ∈ cells, OneLine cell)
    {place : Nat} :
    ∀ cell ∈ cells.modify place fun symbol => "[" ++ symbol ++ "]", OneLine cell := by
  have brackets : OneLine "[" ∧ OneLine "]" := by decide
  intro cell member
  obtain ⟨index, found⟩ := List.mem_iff_getElem?.mp member
  rw [List.getElem?_modify] at found
  obtain ⟨symbol, stored, rfl⟩ := Option.map_eq_some_iff.mp found
  have kept := all symbol (List.mem_of_getElem? stored)
  split
  · exact oneLine_append.mpr ⟨oneLine_append.mpr ⟨brackets.1, kept⟩, brackets.2⟩
  · exact kept

/-- The lines of the moments of a run on letters. -/
theorem map_zipIdx_moments (input : String) :
    (((List.range (input.length + 1)).map (Dfa.parityMoment input.toList) ++
        [Dfa.parityDecision input.toList]).zipIdx.map fun (configuration, index) =>
      "Step " ++ toString index ++ ": " ++ configuration.render) = stepLines input := by
  have long : (input.toList.map String.singleton ++ ["_"]).length = input.length + 1 := by
    rw [List.length_append, List.length_map, String.length_toList, List.length_singleton]
  have behind := stepLine_render (input.length + 1)
    (if Even (input.toList.count 'a') then "q_accept" else "q_reject")
    (input.toList.map String.singleton ++ ["_"]) (input.toList.length + 1)
  rw [List.modify_eq_self (by rw [long, String.length_toList])] at behind
  rw [List.zipIdx_append, zipIdx_map_range, List.map_append, List.map_map, List.length_map,
    List.length_range, Nat.zero_add]
  refine congrArg₂ (· ++ ·) (List.map_congr_left fun count _ => ?_) (congrArg ([·]) behind)
  exact stepLine_render count _ _ count

theorem oneLine_resultLine (input : String) : OneLine (resultLine input) := by
  unfold resultLine
  split
  · decide
  · decide

section

variable {input : String} (letters : ∀ c ∈ input.toList, c = 'a' ∨ c = 'b')

include letters

/-- The messages about a run on letters. -/
theorem runMessages_letters (short : input.length ≤ 999) :
    runMessages Dfa.evenAs.toMachine input =
      ["\n" ++ ("Simulating TM on input string: \"" ++ input ++ "\""),
        "\n" ++ "Tape Configurations:"] ++ stepLines input ++ ["\n" ++ resultLine input] := by
  have opening : "\n" ++ ("Simulating TM on input string: \"" ++ input ++ "\"") =
      "\nSimulating TM on input string: \"" ++ input ++ "\"" := by
    rw [← String.append_assoc, ← String.append_assoc]
    rfl
  unfold runMessages resultLine
  rw [Dfa.simulate_evenAs letters short, opening, ← map_zipIdx_moments]
  by_cases even : Even (input.toList.count 'a')
  · simp only [if_pos even]
    rfl
  · simp only [if_neg even]
    rfl

theorem oneLine_opening :
    OneLine ("Simulating TM on input string: \"" ++ input ++ "\"") := by
  have inside : OneLine input := fun member => (letters '\n' member).elim nofun nofun
  exact oneLine_append.mpr ⟨oneLine_append.mpr ⟨by decide, inside⟩, by decide⟩

theorem oneLine_stepLines : ∀ line ∈ stepLines input, OneLine line := by
  have cells : ∀ cell ∈ input.toList.map String.singleton, OneLine cell := by
    intro cell member
    obtain ⟨c, known, rfl⟩ := List.mem_map.mp member
    rcases letters c known with rfl | rfl
    · decide
    · decide
  have blank : ∀ cell ∈ ["_"], OneLine cell := by decide
  have start : ∀ cell ∈ Dfa.letterCells input.toList, OneLine cell := by
    unfold Dfa.letterCells
    split
    · exact blank
    · exact cells
  intro line member
  rcases List.mem_append.mp member with member | member
  · obtain ⟨count, -, rfl⟩ := List.mem_map.mp member
    exact oneLine_stepLine (by split <;> decide) (oneLine_of_mem_modify start)
  · obtain rfl := List.mem_singleton.mp member
    refine oneLine_stepLine (by split <;> decide) fun cell member => ?_
    exact (List.mem_append.mp member).elim (cells cell) (blank cell)

/-- Over the two letters no line of a report has a break. -/
theorem oneLine_reportLines : ∀ line ∈ reportLines input, OneLine line := by
  intro line member
  rcases List.mem_append.mp member with member | member
  · rcases List.mem_append.mp member with member | member
    · have first := oneLine_opening letters
      have others : OneLine "" ∧ OneLine "Tape Configurations:" := by decide
      simp only [List.mem_cons, List.not_mem_nil, or_false] at member
      rcases member with rfl | rfl | rfl | rfl
      exacts [others.1, first, others.1, others.2]
    · exact oneLine_stepLines letters line member
  · rcases List.mem_cons.mp member with rfl | member
    · exact (by decide : OneLine "")
    · obtain rfl := List.mem_singleton.mp member
      exact oneLine_resultLine input

/-- What is written about a run on letters. -/
theorem written_runMessages (short : input.length ≤ 999) :
    written (runMessages Dfa.evenAs.toMachine input) = printed (reportLines input) := by
  have result : resultLine input ≠ "" := by
    unfold resultLine
    split
    · decide
    · decide
  have first := written_break_append (oneLine_opening letters) (by simp)
  have second : written ["\n" ++ "Tape Configurations:"] = printed ["", "Tape Configurations:"] :=
    written_break_append (by decide) (by decide)
  have steps := written_of_forall (oneLine_stepLines letters)
  have last := written_break_append (oneLine_resultLine input) result
  rw [runMessages_letters letters short, written_append, written_append, ← List.singleton_append,
    written_append, first, second, steps, last, ← printed_append, ← printed_append,
    ← printed_append]
  rfl

end

theorem startsWith_stepLine (number : Nat) (state : String) (cells : List String) :
    (stepLine number state cells).startsWith "Step " = true := by
  rw [String.startsWith_string_iff, stepLine]
  simp only [String.append_assoc]
  rw [String.toList_append]
  exact List.prefix_append _ _

/-- Among the lines about a run only those of its moments begin like one. -/
theorem filter_reportLines (input : String) :
    (reportLines input).filter (·.startsWith "Step ") = stepLines input := by
  have empty : "".startsWith "Step " = false := by decide +kernel
  have opening : ("Simulating TM on input string: \"" ++ input ++ "\"").startsWith "Step " =
      false := by
    rw [String.startsWith_string_eq_false_iff, String.append_assoc, String.toList_append]
    rintro ⟨rest, same⟩
    cases same
  have title : "Tape Configurations:".startsWith "Step " = false := by decide +kernel
  have result : (resultLine input).startsWith "Step " = false := by
    unfold resultLine
    split <;> decide +kernel
  have steps : (stepLines input).filter (·.startsWith "Step ") = stepLines input := by
    refine List.filter_eq_self.mpr fun line member => ?_
    rcases List.mem_append.mp member with member | member
    · obtain ⟨count, -, rfl⟩ := List.mem_map.mp member
      exact startsWith_stepLine _ _ _
    · obtain rfl := List.mem_singleton.mp member
      exact startsWith_stepLine _ _ _
  rw [reportLines, List.filter_append, List.filter_append, steps]
  simp [empty, opening, title, result]

/-! ## The demonstration -/

/-- The inputs are reported on one after the other, behind what precedes the first. -/
theorem simulation_eq (inputs : List String) :
    simulation inputs =
      simulation [] ++ inputs.flatMap (runMessages Dfa.evenAs.toMachine) := by
  have built : Dfa.ofJson evenAs.toJson = .ok Dfa.evenAs := rfl
  unfold simulation
  rw [built]
  simp

/-- The programs are shown one after the other, the third for the inputs that are given. -/
theorem text_eq (count : Int) {inputs : List String} (nonempty : inputs ≠ []) :
    text count inputs =
      written (enumeration count ++ validation) ++ written (simulation inputs) ++
        written (emptiness ++ heading "ALL PROGRAMS COMPLETED") := by
  have given : inputs.isEmpty = false := List.isEmpty_eq_false_iff.mpr nonempty
  rw [← written_append, ← written_append, ← List.append_assoc, written, text, messages, given]
  rfl

/-- What is written of the simulations are the lines of the reports. -/
theorem written_simulation {inputs : List String}
    (letters : ∀ input ∈ inputs, ∀ c ∈ input.toList, c = 'a' ∨ c = 'b')
    (short : ∀ input ∈ inputs, input.length ≤ 999) :
    written (simulation inputs) =
      written (simulation []) ++ printed (inputs.flatMap reportLines) := by
  rw [simulation_eq, written_append]
  refine congrArg (written (simulation []) ++ ·) ?_
  induction inputs with
  | nil => rfl
  | cons input rest ih =>
    have here := written_runMessages (letters input List.mem_cons_self) (short input
      List.mem_cons_self)
    have later := ih (fun other member => letters other (List.mem_cons_of_mem input member))
      fun other member => short other (List.mem_cons_of_mem input member)
    rw [List.flatMap_cons, written_append, here, later, ← printed_append, List.flatMap_cons]

/-- **The demonstration decides parity.** Behind its opening, which is the same for all inputs, the
third program prints one report for each input, and no other lines. In a report there is one line
for each number of letters that are read, and one for the decision. -/
theorem text_parity (count : Int) {inputs : List String} (nonempty : inputs ≠ [])
    (letters : ∀ input ∈ inputs, ∀ c ∈ input.toList, c = 'a' ∨ c = 'b')
    (short : ∀ input ∈ inputs, input.length ≤ 999) :
    text count inputs =
        written (enumeration count ++ validation) ++ written (simulation inputs) ++
          written (emptiness ++ heading "ALL PROGRAMS COMPLETED") ∧
      written (simulation inputs) =
        written (simulation []) ++ printed (inputs.flatMap reportLines) ∧
      (∀ line ∈ inputs.flatMap reportLines, OneLine line) ∧
      (inputs.flatMap reportLines).filter (·.startsWith "Step ") = inputs.flatMap stepLines ∧
      ∀ input ∈ inputs, (stepLines input).length = input.length + 2 := by
  refine ⟨text_eq count nonempty, written_simulation letters short, ?_, ?_, ?_⟩
  · intro line member
    obtain ⟨input, given, member⟩ := List.mem_flatMap.mp member
    exact oneLine_reportLines (letters input given) line member
  · rw [List.filter_flatMap]
    exact congrArg inputs.flatMap (funext filter_reportLines)
  · intro input _
    rw [stepLines, List.length_append, List.length_map, List.length_range, List.length_singleton]

/-- An input with one letter a, and one without letters. -/
theorem text_parity_two :
    written (simulation ["ab", ""]) = written (simulation []) ++ printed [
      "", "Simulating TM on input string: \"ab\"", "", "Tape Configurations:",
      "Step 0: State=q0, Tape: [a] b", "Step 1: State=q1, Tape: a [b]",
      "Step 2: State=q1, Tape: a b", "Step 3: State=q_reject, Tape: a b _",
      "", "Result: REJECTED",
      "", "Simulating TM on input string: \"\"", "", "Tape Configurations:",
      "Step 0: State=q0, Tape: [_]", "Step 1: State=q_accept, Tape: _",
      "", "Result: ACCEPTED"] := by
  have letters : ∀ input ∈ ["ab", ""], ∀ c ∈ input.toList, c = 'a' ∨ c = 'b' := by simp
  have short : ∀ input ∈ ["ab", ""], input.length ≤ 999 := by decide
  obtain ⟨-, shown, -⟩ := text_parity 7 (by decide) letters short
  refine shown.trans (congrArg (written (simulation []) ++ printed ·) ?_)
  decide +kernel

end Demonstration

end AutomataKit
