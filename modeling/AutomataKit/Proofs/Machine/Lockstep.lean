import AutomataKit.Proofs.Machine.Decision

/-!
# The machine of an automaton in lockstep with it

While the automaton reads the text before the first blank, the machine is in its state, has its head
on the next character, and leaves the tape as it is. The record has one configuration for each state
of the run, as far as the bound allows, and one more when the machine decides
(`Dfa.simulate_toMachine_lockstep`). Only then may the tape have grown, by the blank that was
scanned after the last character.
-/

namespace AutomataKit

namespace Dfa

/-- The state of a run at a number of characters read, when it began in the given state. -/
def Run.stateAt? (run : Run) (first : String) : Nat → Option String
  | 0 => some first
  | count + 1 => run.path[count]?.map fun (_, _, target) => target

variable {dfa : Dfa}

theorem length_visited (walk : dfa.Walk) (first : dfa.State) :
    (walk.visited first).length = walk.steps.length + 1 := by
  rw [Walk.visited, List.length_cons, List.length_map]

/-- The states of a run are those that its walk visits. -/
theorem stateAt?_report (walk : dfa.Walk) (first : dfa.State) (count : Nat) :
    walk.report.stateAt? (dfa.name first) count = ((walk.visited first)[count]?).map dfa.name := by
  cases count with
  | zero => rfl
  | succ count =>
    simp only [Run.stateAt?, Walk.report, Walk.visited, List.getElem?_map, List.getElem?_cons_succ,
      Option.map_map]
    rfl

section

variable (chars : List Char) (place : Nat)

theorem length_trace (visited : List dfa.State) :
    (dfa.trace chars place visited).length = visited.length := by
  rw [trace, List.length_map, List.length_zipIdx]

theorem getElem?_trace (visited : List dfa.State) (count : Nat) :
    (dfa.trace chars place visited)[count]? = visited[count]?.map fun state =>
      ⟨dfa.name state, dfa.inputCells chars, ((place + count : Nat) : Int)⟩ := by
  simp only [trace, List.getElem?_map, List.getElem?_zipIdx, Option.map_map]
  rfl

variable (first : dfa.State) (walk : dfa.Walk) (bound : Nat)

/-- A replay is cut by the bound, or it has a moment for each state of the walk, and one more unless
the walk was stopped. -/
theorem replay_cases :
    let moments := dfa.trace chars place (walk.visited first)
    let record := dfa.replay chars place first walk bound
    (bound ≤ walk.steps.length ∧ record.steps = bound ∧
        record.configurations = moments.take (bound + 1)) ∨
      (record.steps = walk.steps.length ∧ record.configurations = moments) ∨
      (record.steps = walk.steps.length + 1 ∧ walk.stoppedBy = none ∧ record.configurations =
        moments ++ [dfa.decision chars (place + walk.steps.length) walk.last]) := by
  intro moments record
  by_cases cut : bound ≤ walk.steps.length
  · have short : record = ⟨moments.take (bound + 1), bound, .stepLimit⟩ := if_pos cut
    rw [short]
    exact .inl ⟨cut, rfl, rfl⟩
  · right
    have long : record = _ := if_neg cut
    cases stopped : walk.stoppedBy with
    | some c =>
      rw [stopped] at long
      rw [long]
      exact .inl ⟨rfl, rfl⟩
    | none =>
      rw [stopped] at long
      rw [long]
      exact .inr ⟨rfl, rfl, rfl⟩

theorem length_replay :
    (dfa.replay chars place first walk bound).configurations.length =
      (dfa.replay chars place first walk bound).steps + 1 := by
  have moments : (dfa.trace chars place (walk.visited first)).length = walk.steps.length + 1 := by
    rw [length_trace, length_visited]
  rcases replay_cases chars place first walk bound with
    ⟨cut, steps, record⟩ | ⟨steps, record⟩ | ⟨steps, -, record⟩
  · rw [record, steps, List.length_take, moments]
    omega
  · rw [record, steps, moments]
  · rw [record, steps, List.length_append, moments, List.length_singleton]

/-- The machine takes at most one step more than the automaton. -/
theorem steps_replay_le :
    (dfa.replay chars place first walk bound).steps ≤ walk.steps.length + 1 := by
  rcases replay_cases chars place first walk bound with
    ⟨cut, steps, -⟩ | ⟨steps, -⟩ | ⟨steps, -, -⟩
  all_goals omega

/-- Up to the last state of the walk, a replay has its moments. -/
theorem getElem?_replay {count : Nat}
    (recorded : count ≤ (dfa.replay chars place first walk bound).steps)
    (inside : count ≤ walk.steps.length) :
    (dfa.replay chars place first walk bound).configurations[count]? =
      (dfa.trace chars place (walk.visited first))[count]? := by
  rcases replay_cases chars place first walk bound with
    ⟨cut, steps, record⟩ | ⟨steps, record⟩ | ⟨steps, -, record⟩
  · rw [record, List.getElem?_take_of_lt (by omega)]
  · rw [record]
  · rw [record, List.getElem?_append_left]
    rw [length_trace, length_visited]
    omega

/-- A replay with one moment more ends in the decision. -/
theorem getLast?_replay
    (decided : (dfa.replay chars place first walk bound).steps = walk.steps.length + 1) :
    walk.stoppedBy = none ∧
      (dfa.replay chars place first walk bound).configurations.getLast? =
        some (dfa.decision chars (place + walk.steps.length) walk.last) := by
  rcases replay_cases chars place first walk bound with
    ⟨cut, steps, -⟩ | ⟨steps, -⟩ | ⟨steps, unstopped, record⟩
  · omega
  · omega
  · rw [record, List.getLast?_concat]
    exact ⟨unstopped, rfl⟩

end

variable (dfa)

/-- **Configuration by configuration.** -/
theorem simulate_toMachine_lockstep (text : String) (maxSteps : Int) :
    let record := dfa.toMachine.simulate text maxSteps
    let run := dfa.run (dfa.legible text)
    let symbols := text.toList.map String.singleton
    let cells := if symbols.isEmpty then [dfa.toMachine.blank] else symbols
    record.configurations.length = record.steps + 1 ∧
      record.steps ≤ run.path.length + 1 ∧
      (∀ count ≤ min record.steps run.path.length, ∃ state,
        run.stateAt? dfa.toMachine.start count = some state ∧
          record.configurations[count]? = some ⟨state, cells, count⟩) ∧
      (record.steps = run.path.length + 1 →
        record.configurations.getLast? = some
          { state := if run.accepted then dfa.toMachine.accept else dfa.toMachine.reject
            tape := if 0 < run.path.length ∧ run.path.length = text.length then
              cells ++ [dfa.toMachine.blank] else cells
            head := run.path.length + 1 }) := by
  intro record run symbols cells
  have length := dfa.length_path_run_legible text
  have reported := dfa.run_legible text
  have replayed := dfa.simulate_toMachine text maxSteps
  generalize dfa.walk dfa.start (dfa.beforeBlank text.toList) = walk at length reported replayed
  have steps : record.steps = (dfa.replay text.toList 0 dfa.start walk maxSteps.toNat).steps :=
    congrArg Simulation.steps replayed
  have configurations : record.configurations =
      (dfa.replay text.toList 0 dfa.start walk maxSteps.toNat).configurations :=
    congrArg Simulation.configurations replayed
  rw [length, steps, configurations]
  refine ⟨length_replay _ _ _ _ _, steps_replay_le _ _ _ _ _, ?_, ?_⟩
  · intro count within
    obtain ⟨recorded, inside⟩ := Nat.le_min.mp within
    have visits : count < (walk.visited dfa.start).length := by
      rw [length_visited]
      exact Nat.lt_succ_of_le inside
    refine ⟨dfa.name (walk.visited dfa.start)[count], ?_, ?_⟩
    · refine (congrArg (Run.stateAt? · _ _) reported).trans ?_
      refine (stateAt?_report walk dfa.start count).trans ?_
      rw [List.getElem?_eq_getElem visits, Option.map_some]
    · rw [getElem?_replay _ _ _ _ _ recorded inside, getElem?_trace,
        List.getElem?_eq_getElem visits, Option.map_some, Nat.zero_add]
      rfl
  · intro decided
    obtain ⟨unstopped, last⟩ := getLast?_replay _ _ _ _ _ decided
    have accepted : run.accepted = dfa.accepts walk.last := by
      refine (congrArg Run.accepted reported).trans ?_
      rw [Walk.report, unstopped]
      rfl
    rw [last, accepted, Nat.zero_add, decision, String.length_toList]
    rfl

/-- A blank in the input is where the machine decides, and the tape is as it was. After the last
character it decides on a new blank, and after an empty input on the one with which it began. -/
theorem simulate_evenAs_lockstep :
    (evenAs.toMachine.simulate "ab_a" 9).configurations.getLast? =
        some ⟨"q_reject", ["a", "b", "_", "a"], 3⟩ ∧
      (evenAs.toMachine.simulate "aa" 9).configurations[1]? = some ⟨"q1", ["a", "a"], 1⟩ ∧
      (evenAs.toMachine.simulate "aa" 9).configurations.getLast? =
        some ⟨"q_accept", ["a", "a", "_"], 3⟩ ∧
      (evenAs.toMachine.simulate "" 9).configurations.getLast? =
        some ⟨"q_accept", ["_"], 1⟩ := by
  obtain ⟨-, -, -, inside⟩ := evenAs.simulate_toMachine_lockstep "ab_a" 9
  obtain ⟨-, -, moments, behind⟩ := evenAs.simulate_toMachine_lockstep "aa" 9
  obtain ⟨-, -, -, empty⟩ := evenAs.simulate_toMachine_lockstep "" 9
  obtain ⟨state, entered, second⟩ := moments 1 (by decide +kernel)
  have named :
      (evenAs.run (evenAs.legible "aa")).stateAt? evenAs.toMachine.start 1 = some "q1" := by
    decide +kernel
  obtain rfl := Option.some.inj (named.symm.trans entered)
  exact ⟨(inside (by decide +kernel)).trans (by decide +kernel), second.trans (by decide +kernel),
    (behind (by decide +kernel)).trans (by decide +kernel),
    (empty (by decide +kernel)).trans (by decide +kernel)⟩

end Dfa

end AutomataKit
