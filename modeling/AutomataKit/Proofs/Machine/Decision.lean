import AutomataKit.Demonstration
import AutomataKit.Proofs.Machine.Replay

/-!
# What the machine of an automaton decides

A run of the machine ends in one of three ways: the bound is reached while the automaton still has
characters to read, a character is no symbol, or the machine comes to a blank and decides. So it
decides by what the automaton says of the text before the first blank
(`Dfa.accepted_simulate_toMachine`). The automaton itself knows no blank and is stopped by it; the
two disagree on an input in which a blank follows a text that the automaton accepts, and on no
other.
-/

namespace AutomataKit

namespace Dfa

variable (dfa : Dfa)

/-- A text up to the first character that is the machine's blank. -/
def legible (text : String) : String := String.ofList (dfa.beforeBlank text.toList)

variable {dfa}

/-! ## The three endings -/

/-- The states that a walk visits end in its last state. -/
theorem getLast?_visited (state : dfa.State) (chars : List Char) :
    ((dfa.walk state chars).visited state).getLast? = some (dfa.walk state chars).last := by
  induction chars generalizing state with
  | nil => rfl
  | cons c rest ih =>
    cases found : dfa.symbolOf? c with
    | none =>
      rw [walk_cons_of_none found]
      rfl
    | some symbol =>
      rw [walk_cons_of_some found]
      unfold Walk.visited
      rw [List.map_cons, List.getLast?_cons_cons]
      exact ih (dfa.next state symbol)

theorem map_state_trace (chars : List Char) (place : Nat) (visited : List dfa.State) :
    (dfa.trace chars place visited).map Configuration.state = visited.map dfa.name := by
  unfold trace
  rw [List.map_map]
  conv => rhs; rw [← List.zipIdx_map_fst place visited, List.map_map]
  rfl

theorem getLast?_trace (chars : List Char) (place : Nat) (state : dfa.State) (read : List Char) :
    (dfa.trace chars place ((dfa.walk state read).visited state)).getLast?.map
        Configuration.state = some (dfa.name (dfa.walk state read).last) := by
  rw [← List.getLast?_map, map_state_trace, List.getLast?_map, getLast?_visited]
  rfl

section

variable {text : String} {maxSteps : Int}

theorem run_legible (text : String) :
    dfa.run (dfa.legible text) =
      (dfa.walk dfa.start (dfa.beforeBlank text.toList)).report := by
  unfold run legible
  rw [String.toList_ofList]

theorem length_path_run_legible (text : String) :
    (dfa.run (dfa.legible text)).path.length =
      (dfa.walk dfa.start (dfa.beforeBlank text.toList)).steps.length := by
  rw [run_legible]
  exact List.length_map _

/-- The bound is reached while the automaton has characters to read. -/
theorem simulate_toMachine_of_le
    (short : maxSteps ≤ (dfa.run (dfa.legible text)).path.length) :
    (dfa.toMachine.simulate text maxSteps).outcome = .stepLimit ∧
      (dfa.toMachine.simulate text maxSteps).steps = maxSteps.toNat := by
  rw [length_path_run_legible] at short
  rw [simulate_toMachine, replay, if_pos (Int.toNat_le.mpr short)]
  exact ⟨rfl, rfl⟩

/-- The run is stopped by a character that is no symbol. -/
theorem simulate_toMachine_of_stopped
    (enough : (dfa.run (dfa.legible text)).path.length + 1 ≤ maxSteps) {rejection : Rejection}
    (stopped : (dfa.run (dfa.legible text)).rejection = some rejection) :
    (dfa.toMachine.simulate text maxSteps).outcome = .reject ∧
      (dfa.toMachine.simulate text maxSteps).steps = (dfa.run (dfa.legible text)).path.length ∧
      rejection.position = (dfa.run (dfa.legible text)).path.length ∧
      (dfa.toMachine.simulate text maxSteps).configurations.getLast?.map Configuration.state =
        some (dfa.run (dfa.legible text)).finalState := by
  rw [length_path_run_legible] at enough ⊢
  have beyond : ¬ maxSteps.toNat ≤
      (dfa.walk dfa.start (dfa.beforeBlank text.toList)).steps.length := by omega
  rw [run_legible] at stopped ⊢
  obtain ⟨c, stoppedBy, position⟩ := Option.map_eq_some_iff.mp stopped
  rw [simulate_toMachine, replay, if_neg beyond, if_pos (Option.isSome_of_mem stoppedBy)]
  exact ⟨rfl, rfl, position ▸ rfl, getLast?_trace _ _ _ _⟩

/-- All characters up to the blank are read, and the machine decides. -/
theorem simulate_toMachine_of_read
    (enough : (dfa.run (dfa.legible text)).path.length + 1 ≤ maxSteps)
    (unstopped : (dfa.run (dfa.legible text)).rejection = none) :
    let accepted := (dfa.run (dfa.legible text)).accepted
    (dfa.toMachine.simulate text maxSteps).outcome = (if accepted then .accept else .reject) ∧
      (dfa.toMachine.simulate text maxSteps).steps =
        (dfa.run (dfa.legible text)).path.length + 1 ∧
      (dfa.toMachine.simulate text maxSteps).configurations.getLast?.map Configuration.state =
        some (if accepted then dfa.toMachine.accept else dfa.toMachine.reject) := by
  intro accepted
  rw [length_path_run_legible] at enough ⊢
  have beyond : ¬ maxSteps.toNat ≤
      (dfa.walk dfa.start (dfa.beforeBlank text.toList)).steps.length := by omega
  rw [run_legible] at unstopped
  have stoppedBy : (dfa.walk dfa.start (dfa.beforeBlank text.toList)).stoppedBy = none :=
    Option.map_eq_none_iff.mp unstopped
  have decides : accepted =
      dfa.accepts (dfa.walk dfa.start (dfa.beforeBlank text.toList)).last := by
    change (dfa.run (dfa.legible text)).accepted = _
    rw [run_legible, Walk.report, stoppedBy]
    rfl
  rw [simulate_toMachine, replay, if_neg beyond, if_neg (by rw [stoppedBy]; exact Bool.noConfusion),
    decides]
  refine ⟨rfl, rfl, ?_⟩
  rw [List.getLast?_concat]
  rfl

end

variable (dfa) in
/-- **How a run of the machine ends.** When the bound is no greater than the number of characters
that the automaton reads before the first blank, the machine makes exactly as many steps as the
bound allows. Otherwise it stops on a character that is no symbol, in the state in which the
automaton stops, or it takes one step more than the automaton and halts in its decision. -/
theorem simulate_toMachine_ending (text : String) (maxSteps : Int) :
    let record := dfa.toMachine.simulate text maxSteps
    let run := dfa.run (dfa.legible text)
    let last := record.configurations.getLast?.map Configuration.state
    (maxSteps ≤ run.path.length →
      record.outcome = .stepLimit ∧ (record.steps : Int) = max maxSteps 0) ∧
    (∀ rejection, run.path.length + 1 ≤ maxSteps → run.rejection = some rejection →
      record.outcome = .reject ∧ record.steps = run.path.length ∧
        rejection.position = run.path.length ∧
        last = some run.finalState ∧ run.finalState ≠ dfa.toMachine.reject) ∧
    (run.path.length + 1 ≤ maxSteps → run.rejection = none →
      record.outcome = (if run.accepted then .accept else .reject) ∧
        record.steps = run.path.length + 1 ∧
        last = some (if run.accepted then dfa.toMachine.accept else dfa.toMachine.reject)) := by
  intro record run last
  refine ⟨?_, ?_, ?_⟩
  · intro short
    obtain ⟨outcome, steps⟩ := simulate_toMachine_of_le short
    refine ⟨outcome, ?_⟩
    rw [steps, Int.ofNat_toNat]
  · intro rejection enough stopped
    obtain ⟨outcome, steps, position, state⟩ := simulate_toMachine_of_stopped enough stopped
    refine ⟨outcome, steps, position, state, ?_⟩
    exact dfa.name_ne_rejectName (dfa.walk dfa.start (dfa.legible text).toList).last
  · intro enough unstopped
    exact simulate_toMachine_of_read enough unstopped

/-- The automaton for an even number of the letter a, as the validator reads its description
`Demonstration.evenAs`. -/
def evenAs : Dfa where
  states := ["q0", "q1"]
  alphabet := ["a", "b"]
  table := #v[#v[1, 0], #v[0, 1]]
  start := 0
  accepting := #v[true, false]
  states_nodup := by decide
  alphabet_nodup := by decide

/-- Each of the three endings occurs. A blank in the input ends the run as the one after it does. -/
theorem simulate_evenAs_endings :
    (evenAs.toMachine.simulate "aab" 2).outcome = .stepLimit ∧
      (evenAs.toMachine.simulate "ax_" 2).configurations.getLast?.map Configuration.state =
        some "q1" ∧
      (evenAs.toMachine.simulate "aa_x" 3).outcome = .accept := by
  obtain ⟨bounded, -, -⟩ := evenAs.simulate_toMachine_ending "aab" 2
  obtain ⟨-, stopped, -⟩ := evenAs.simulate_toMachine_ending "ax_" 2
  obtain ⟨-, -, decided⟩ := evenAs.simulate_toMachine_ending "aa_x" 3
  have stops : evenAs.run (evenAs.legible "ax_") =
      ⟨[("q0", 'a', "q1")], "q1", false, some ⟨'x', 1⟩⟩ := by decide +kernel
  have reads : evenAs.run (evenAs.legible "aa_x") =
      ⟨[("q0", 'a', "q1"), ("q1", 'a', "q0")], "q0", true, none⟩ := by decide +kernel
  rw [stops] at stopped
  rw [reads] at decided
  obtain ⟨outcome, -⟩ := bounded (by decide +kernel)
  obtain ⟨-, -, -, state, -⟩ := stopped ⟨'x', 1⟩ (by decide) rfl
  obtain ⟨accepted, -⟩ := decided (by decide) rfl
  exact ⟨outcome, state, accepted⟩

/-! ## Agreement with the automaton -/

/-- With a step for each character and one to decide, the machine decides by what the automaton
says of the text before the first blank. -/
theorem accepted_simulate_toMachine {text : String} {maxSteps : Int}
    (enough : (text.length : Int) + 1 ≤ maxSteps) :
    (dfa.toMachine.simulate text maxSteps).outcome ≠ .stepLimit ∧
      (dfa.toMachine.simulate text maxSteps).accepted =
        (dfa.run (dfa.legible text)).accepted := by
  have read : (dfa.run (dfa.legible text)).path.length ≤ text.length := by
    rw [length_path_run_legible, ← String.length_toList]
    exact Nat.le_trans (length_steps_walk_le _ _) (List.takeWhile_prefix _).length_le
  have room : (dfa.run (dfa.legible text)).path.length + 1 ≤ maxSteps := by omega
  unfold Simulation.accepted
  cases stopped : (dfa.run (dfa.legible text)).rejection with
  | some rejection =>
    obtain ⟨outcome, -⟩ := simulate_toMachine_of_stopped room stopped
    have rejected : (dfa.run (dfa.legible text)).accepted = false := by
      obtain ⟨c, stoppedBy, -⟩ := Option.map_eq_some_iff.mp stopped
      change ((dfa.walk _ _).stoppedBy.isNone && _) = false
      rw [stoppedBy]
      rfl
    rw [outcome, rejected]
    exact ⟨Outcome.noConfusion, rfl⟩
  | none =>
    obtain ⟨outcome, -⟩ := simulate_toMachine_of_read room stopped
    rw [outcome]
    cases (dfa.run (dfa.legible text)).accepted
    · exact ⟨Outcome.noConfusion, rfl⟩
    · exact ⟨Outcome.noConfusion, rfl⟩

variable (dfa) in
theorem beforeBlank_eq_or_blank (chars : List Char) :
    dfa.beforeBlank chars = chars ∨
      ∃ (blank : Char) (after : List Char), dfa.blankName = String.singleton blank ∧
        chars = dfa.beforeBlank chars ++ blank :: after := by
  induction chars with
  | nil => exact .inl rfl
  | cons c rest ih =>
    by_cases blank : String.singleton c = dfa.blankName
    · rw [beforeBlank_cons_of_blank blank]
      exact .inr ⟨c, rest, blank.symm, rfl⟩
    · rw [beforeBlank_cons_of_ne blank]
      rcases ih with whole | ⟨first, after, single, split⟩
      · exact .inl (congrArg _ whole)
      · exact .inr ⟨first, after, single, congrArg _ split⟩

variable (dfa) in
/-- A text is legible to its end, or up to a blank in it. -/
theorem legible_eq_or_blank (text : String) :
    dfa.legible text = text ∨
      ∃ (blank : Char) (after : String), dfa.blankName = String.singleton blank ∧
        text = dfa.legible text ++ dfa.blankName ++ after := by
  unfold legible
  rcases dfa.beforeBlank_eq_or_blank text.toList with whole | ⟨blank, after, single, split⟩
  · left
    rw [whole, String.ofList_toList]
  · right
    refine ⟨blank, String.ofList after, single, ?_⟩
    apply String.toList_injective
    rw [single]
    simpa using split

/-- What stands before a blank is legible when every character of it is a symbol. -/
theorem legible_append_blank {before after : String} {blank : Char}
    (single : dfa.blankName = String.singleton blank)
    (symbols : ∀ c ∈ before.toList, String.singleton c ∈ dfa.alphabet) :
    dfa.legible (before ++ dfa.blankName ++ after) = before := by
  have others : ∀ c ∈ before.toList, decide (String.singleton c ≠ dfa.blankName) = true := by
    intro c member
    apply decide_eq_true
    intro same
    exact dfa.blankName_not_mem (same ▸ symbols c member)
  have read : dfa.beforeBlank (before.toList ++ blank :: after.toList) = before.toList := by
    rw [beforeBlank, List.takeWhile_append_of_pos others, ← beforeBlank,
      beforeBlank_cons_of_blank single.symm, List.append_nil]
  unfold legible
  rw [String.toList_append, String.toList_append, List.append_assoc, single,
    String.toList_singleton, List.singleton_append, read, String.ofList_toList]

/-- The automaton accepts no text with a blank in it. -/
theorem accepted_run_of_blank {before after : String} {blank : Char}
    (single : dfa.blankName = String.singleton blank) :
    (dfa.run (before ++ dfa.blankName ++ after)).accepted = false := by
  apply Bool.eq_false_iff.mpr
  intro accepted
  apply dfa.blankName_not_mem
  have member : blank ∈ (before ++ dfa.blankName ++ after).toList := by
    rw [single]
    simp
  have symbol := mem_alphabet_of_accepted accepted member
  rwa [← single] at symbol

variable (dfa) in
/-- **Where machine and automaton agree.** The machine comes to a decision on every text, and it is
the decision of the automaton unless a blank follows a text that the automaton accepts. The
machine then takes the blank for the end of its input. -/
theorem accepted_simulate_toMachine_iff (text : String) (maxSteps : Int)
    (enough : (text.length : Int) + 1 ≤ maxSteps) :
    (dfa.toMachine.simulate text maxSteps).outcome ≠ .stepLimit ∧
      ((dfa.toMachine.simulate text maxSteps).accepted = (dfa.run text).accepted ↔
        ¬ ∃ (before after : String) (blank : Char),
          dfa.toMachine.blank = String.singleton blank ∧
            text = before ++ dfa.toMachine.blank ++ after ∧
              (dfa.run before).accepted = true) := by
  obtain ⟨decided, accepted⟩ := accepted_simulate_toMachine enough
  refine ⟨decided, ?_⟩
  rw [accepted]
  constructor
  · rintro agree ⟨before, after, blank, single, rfl, acceptedBefore⟩
    have read : dfa.legible (before ++ dfa.toMachine.blank ++ after) = before :=
      legible_append_blank single fun _ member => mem_alphabet_of_accepted acceptedBefore member
    have rejected : (dfa.run (before ++ dfa.toMachine.blank ++ after)).accepted = false :=
      accepted_run_of_blank single
    rw [read, acceptedBefore, rejected] at agree
    cases agree
  · intro clean
    rcases dfa.legible_eq_or_blank text with whole | ⟨blank, after, single, split⟩
    · rw [whole]
    · have rejected : (dfa.run text).accepted = false := by
        rw [split]
        exact accepted_run_of_blank single
      rw [rejected]
      apply Bool.eq_false_iff.mpr
      intro acceptedBefore
      exact clean ⟨dfa.legible text, after, blank, single, split, acceptedBefore⟩

/-- A blank after a text that is rejected, here one with an odd number of the letter a, does no
harm. -/
theorem accepted_simulate_evenAs_odd :
    (("a_".length : Int) + 1 ≤ 3) ∧
      (evenAs.toMachine.simulate "a_" 3).accepted = (evenAs.run "a_").accepted ∧
      (evenAs.toMachine.simulate "a_" 3).outcome ≠ .stepLimit ∧
      ((evenAs.toMachine.simulate "a_" 3).accepted = (evenAs.run "a_").accepted ↔
        ¬ ∃ (before after : String) (blank : Char),
          evenAs.toMachine.blank = String.singleton blank ∧
            "a_" = before ++ evenAs.toMachine.blank ++ after ∧
              (evenAs.run before).accepted = true) := by
  have enough : ("a_".length : Int) + 1 ≤ 3 := by decide
  refine ⟨enough, ?_, evenAs.accepted_simulate_toMachine_iff "a_" 3 enough⟩
  decide +kernel

/-- On the blank alone the machine accepts, since the empty text before it is accepted; the
automaton knows no blank and rejects. -/
theorem accepted_simulate_evenAs_blank :
    ofJson Demonstration.evenAs.toJson = .ok evenAs ∧
      (("_".length : Int) + 1 ≤ 2) ∧
      (evenAs.toMachine.simulate "_" 2).accepted = true ∧ (evenAs.run "_").accepted = false := by
  refine ⟨rfl, by decide, ?_, rfl⟩
  decide +kernel

end Dfa

end AutomataKit
