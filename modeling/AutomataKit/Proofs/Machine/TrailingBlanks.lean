import AutomataKit.Proofs.Machine.EndlessTape
import Mathlib.Data.List.GetD

/-!
# Blanks behind the input

On a tape without an end the input is followed by blanks, so a few blanks more make no difference.
They are stored from the beginning, while otherwise blanks are stored when they are scanned. Two
runs on the same endless tape show the same situations, and their windows begin together and end
at most so many cells apart (`Instant.Padded`). So the records differ only in blanks at the end of
the recorded tapes (`TuringMachine.simulate_append_blanks`).
-/

namespace AutomataKit

/-- Two configurations that show one situation from the same origin differ in blanks at the end. -/
theorem Configuration.Frames.eq_append {shorter longer : Configuration} {blank : String}
    {origin : Int} {situation : Situation} (frames : shorter.Frames blank origin situation)
    (others : longer.Frames blank origin situation)
    (within : shorter.tape.length ≤ longer.tape.length) :
    longer = { shorter with
      tape := shorter.tape ++
        List.replicate (longer.tape.length - shorter.tape.length) blank } := by
  have tape : longer.tape = shorter.tape ++
      List.replicate (longer.tape.length - shorter.tape.length) blank := by
    refine List.ext_getElem ?_ fun place inside _ => ?_
    · rw [List.length_append, List.length_replicate, Nat.add_sub_cancel' within]
    · rw [others.cell_eq place inside, List.getElem_append]
      split
      · rename_i short
        rw [frames.cell_eq place short]
      · rw [List.getElem_replicate]
        apply frames.blank_outside
        omega
  have state : longer.state = shorter.state := others.state_eq.trans frames.state_eq.symm
  have head : longer.head = shorter.head := others.head_eq.trans frames.head_eq.symm
  cases longer
  cases state
  cases head
  exact congrArg (Configuration.mk shorter.state · shorter.head) tape

/-- Two moments with the same endless tape, of which the second has some more cells stored on the
right. -/
structure Instant.Padded (count : Nat) (instant padded : Instant) : Prop where
  situation_eq : padded.situation = instant.situation
  blank_eq : padded.tape.blank = instant.tape.blank
  start_eq : padded.tape.start = instant.tape.start
  le_stop : instant.tape.stop ≤ padded.tape.stop
  stop_le : padded.tape.stop ≤ instant.tape.stop + count

namespace Instant.Padded

variable {count : Nat} {instant padded : Instant}

/-- What is recorded of the two moments. -/
theorem exists_configuration_eq (pads : Padded count instant padded) :
    ∃ extra ≤ count, padded.configuration = { instant.configuration with
      tape := instant.configuration.tape ++ List.replicate extra instant.tape.blank } := by
  have frames := instant.frames_configuration
  have others := padded.frames_configuration
  rw [pads.situation_eq, pads.blank_eq, pads.start_eq] at others
  have length : (instant.configuration.tape.length : Int) =
      instant.tape.stop - instant.tape.start := instant.tape.length_cells
  have otherLength : (padded.configuration.tape.length : Int) =
      padded.tape.stop - padded.tape.start := padded.tape.length_cells
  have start := pads.start_eq
  have lower := pads.le_stop
  have upper := pads.stop_le
  exact ⟨_, by omega, frames.eq_append others (by omega)⟩

end Instant.Padded

namespace TuringMachine

variable {machine : TuringMachine} {instant : Instant}

/-- A step stores the scanned cell and no other. -/
theorem window_of_step? {onward : Instant} (moved : machine.step? instant = some onward) :
    onward.tape.start = min instant.tape.start instant.head ∧
      onward.tape.stop = max instant.tape.stop (instant.head + 1) := by
  unfold step? at moved
  simp only at moved
  split at moved
  · cases moved
  · cases moved
    simp only [Tape.start_write, Tape.stop_write, Tape.start_extendTo, Tape.stop_extendTo,
      and_self]

theorem proceed_of_none (stuck : machine.step? instant = none) :
    machine.proceed instant = instant := by
  unfold proceed
  rw [stuck]
  exact ite_self _

variable {count : Nat} {padded : Instant}

/-- One step of both runs. -/
theorem padded_proceed (pads : instant.Padded count padded) :
    (machine.proceed instant).Padded count (machine.proceed padded) := by
  have situation : (machine.proceed padded).situation = (machine.proceed instant).situation := by
    rw [machine.situation_proceed padded, machine.situation_proceed instant, pads.situation_eq]
  have state : padded.state = instant.state := congrArg Situation.state pads.situation_eq
  have head : padded.head = instant.head := congrArg Situation.head pads.situation_eq
  by_cases halting : machine.Halting instant.state
  · rw [proceed, if_pos halting, proceed, if_pos (state ▸ halting)]
    exact pads
  · -- What a step looks up belongs to the situation, so either both runs make a step or none.
    have stuck : machine.step? padded = none ↔ machine.step? instant = none := by
      rw [step?_eq_none_iff, step?_eq_none_iff, pads.situation_eq]
    cases stepped : machine.step? instant with
    | none =>
      rw [proceed_of_none stepped, proceed_of_none (stuck.mpr stepped)]
      exact pads
    | some onward =>
      obtain ⟨other, moved⟩ := Option.ne_none_iff_exists'.mp fun none =>
        Option.some_ne_none onward (stepped.symm.trans (stuck.mp none))
      obtain ⟨start, stop⟩ := window_of_step? stepped
      obtain ⟨otherStart, otherStop⟩ := window_of_step? moved
      have begins := pads.start_eq
      have lower := pads.le_stop
      have upper := pads.stop_le
      refine ⟨situation, ?_, ?_, ?_, ?_⟩
      · rw [tape_proceed.1, tape_proceed.1, pads.blank_eq]
      all_goals rw [proceed_of_some halting stepped, proceed_of_some (state ▸ halting) moved]
      all_goals omega

/-- All steps of both runs. -/
theorem padded_moment (pads : instant.Padded count padded) (steps : Nat) :
    (machine.moment instant steps).Padded count (machine.moment padded steps) := by
  induction steps with
  | zero => exact pads
  | succ steps ih =>
    rw [moment_succ, moment_succ]
    exact padded_proceed ih

/-! ## Inputs -/

theorem getD_append_blanks (symbols : List String) (count place : Nat) (blank : String) :
    (symbols ++ List.replicate count blank).getD place blank = symbols.getD place blank := by
  by_cases inside : place < symbols.length
  · rw [List.getD_append _ _ _ _ inside]
  · have beyond := Nat.le_of_not_lt inside
    rw [List.getD_append_right _ _ _ _ beyond, List.getD_eq_default _ _ beyond]
    exact List.getElem?_getD_replicate_default_eq blank count _

/-- The symbols of an input with blanks behind it. -/
theorem symbols_append_blanks {b : Char} (single : machine.blank = String.singleton b)
    (input : String) (count : Nat) :
    (input ++ String.ofList (List.replicate count b)).toList.map String.singleton =
      input.toList.map String.singleton ++ List.replicate count machine.blank := by
  rw [String.toList_append, String.toList_ofList, List.map_append, List.map_replicate, single]

/-- Blanks behind the input are on the endless tape anyway. -/
theorem outset_append_blanks {b : Char} (single : machine.blank = String.singleton b)
    (input : String) (count : Nat) :
    machine.outset (input ++ String.ofList (List.replicate count b)) = machine.outset input := by
  unfold outset
  simp only [symbols_append_blanks single, getD_append_blanks]

theorem course_append_blanks {b : Char} (single : machine.blank = String.singleton b)
    (input : String) (count : Nat) :
    machine.course (input ++ String.ofList (List.replicate count b)) = machine.course input := by
  funext steps
  rw [course, course, outset_append_blanks single]

variable (machine) in
theorem stop_initial (input : String) :
    (machine.initial input).tape.stop = max input.toList.length 1 := by
  unfold initial Tape.stop Tape.ofSymbols
  cases input.toList with
  | nil => rfl
  | cons c rest => simp

theorem padded_initial {b : Char} (single : machine.blank = String.singleton b)
    (input : String) (count : Nat) :
    (machine.initial input).Padded count
      (machine.initial (input ++ String.ofList (List.replicate count b))) := by
  have length : (input ++ String.ofList (List.replicate count b)).toList.length =
      input.toList.length + count := by
    rw [String.toList_append, String.toList_ofList, List.length_append, List.length_replicate]
  refine ⟨?_, rfl, rfl, ?_, ?_⟩
  · rw [situation_initial, situation_initial, outset_append_blanks single]
  all_goals
    rw [stop_initial, stop_initial, length]
    omega

/-! ## Records -/

/-- **Blanks behind the input are not noticed.** The run takes as many steps and ends alike. At each
point it is in the same state, with the head at the same place, and the tapes differ in blanks at
the end, of which there are at most as many as were put behind the input. -/
theorem simulate_append_blanks (machine : TuringMachine) {b : Char}
    (single : machine.blank = String.singleton b) (input : String) (count : Nat)
    (maxSteps : Int) :
    let record := machine.simulate input maxSteps
    let padded := machine.simulate (input ++ String.ofList (List.replicate count b)) maxSteps
    padded.outcome = record.outcome ∧ padded.accepted = record.accepted ∧
      padded.steps = record.steps ∧
      padded.configurations.length = record.configurations.length ∧
      ∀ (place : Nat) (inside : place < record.configurations.length), ∃ extra ≤ count,
        padded.configurations[place]? = some { record.configurations[place] with
          tape := record.configurations[place].tape ++ List.replicate extra machine.blank } := by
  intro record padded
  have recorded : machine.Recorded (machine.initial input) maxSteps.toNat record :=
    machine.recorded_simulateFrom _ _
  have others : machine.Recorded (machine.initial (input ++ String.ofList (List.replicate count b)))
      maxSteps.toNat padded := machine.recorded_simulateFrom _ _
  have steps : padded.steps = record.steps := by
    apply Nat.cast_injective (R := ℕ∞)
    rw [recorded.steps_eq, others.steps_eq, duration, duration, course_append_blanks single]
  have outcome : padded.outcome = record.outcome := by
    rw [recorded.outcome_eq_course, others.outcome_eq_course, steps, course_append_blanks single]
  have length : padded.configurations.length = record.configurations.length := by
    rw [recorded.length_configurations, others.length_configurations, steps]
  refine ⟨outcome, congrArg (· == Outcome.accept) outcome, steps, length, ?_⟩
  intro place inside
  obtain ⟨extra, few, same⟩ :=
    (padded_moment (padded_initial single input count) place).exists_configuration_eq
  refine ⟨extra, few, ?_⟩
  rw [List.getElem?_eq_getElem (length.symm ▸ inside), others.getElem_configurations,
    recorded.getElem_configurations, same, blank_moment]

/-- A machine that changes the blanks behind its input, then turns to the left. -/
def overrunner : TuringMachine where
  states := ["out", "back", "yes", "no"]
  alphabet := ["a", "b", "_"]
  transitions := .ofList [
    (("out", "a"), ⟨"out", "a", .right⟩),
    (("out", "_"), ⟨"back", "b", .left⟩),
    (("back", "a"), ⟨"back", "b", .left⟩),
    (("back", "_"), ⟨"yes", "_", .stay⟩)]
  start := "out"
  accept := "yes"
  reject := "no"
  blank := "_"

/-- With two blanks behind the input one run has a cell already that the other one adds. -/
theorem simulate_overrunner_blanks :
    overrunner.blank = String.singleton '_' ∧
      (overrunner.simulate "a__" 9).outcome = .accept ∧
      (overrunner.simulate "a__" 9).steps = 4 ∧
      ∃ extra ≤ 2, (overrunner.simulate "a__" 9).configurations[4]? =
        some ⟨"yes", ["_", "b", "b"] ++ List.replicate extra "_", 0⟩ := by
  have single : overrunner.blank = String.singleton '_' := rfl
  have record : overrunner.simulate "a" 9 =
      ⟨[⟨"out", ["a"], 0⟩, ⟨"out", ["a"], 1⟩, ⟨"back", ["a", "b"], 0⟩, ⟨"back", ["b", "b"], -1⟩,
        ⟨"yes", ["_", "b", "b"], 0⟩], 4, .accept⟩ := by
    decide +kernel
  obtain ⟨outcome, -, steps, -, shown⟩ := overrunner.simulate_append_blanks single "a" 2 9
  simp only [record] at outcome steps shown
  exact ⟨single, outcome, steps, shown 4 (by decide)⟩

end TuringMachine

end AutomataKit
