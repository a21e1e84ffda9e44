import AutomataKit.Proofs.Machine.Moments
import AutomataKit.Proofs.Machine.Window
import Mathlib.Data.ENat.Lattice
import Mathlib.Data.Int.ConditionallyCompleteOrder

/-!
# Machines on a tape without an end

In the usual account of a machine the tape is a function from all positions to symbols, and a run
goes from situation to situation until it halts or has no transition, if it ever does. The
simulation stores a window of the tape. It takes the same course, and every configuration it records
shows the situation at that point: outside the window all cells hold the blank
(`TuringMachine.simulate_course`).
-/

namespace AutomataKit

/-- A machine at one moment of a run, with its whole tape. -/
structure Situation where
  state : String
  cells : Int → String
  head : Int

/-- The situation after a transition was taken. -/
def Situation.after (situation : Situation) (transition : Transition) : Situation where
  state := transition.next
  cells := Function.update situation.cells situation.head transition.write
  head := situation.head + transition.move.offset

/-- The configuration shows a situation: its state, its head, and its tape from some position on,
which is the origin. The cells that are not shown are blank. -/
structure Configuration.Frames (configuration : Configuration) (blank : String) (origin : Int)
    (situation : Situation) : Prop where
  state_eq : configuration.state = situation.state
  head_eq : configuration.head = situation.head - origin
  cell_eq : ∀ (place : Nat) (inside : place < configuration.tape.length),
    configuration.tape[place] = situation.cells (origin + place)
  blank_outside : ∀ position : Int,
    position < origin ∨ origin + configuration.tape.length ≤ position →
      situation.cells position = blank

/-- The situation at a moment of a simulation. -/
def Instant.situation (instant : Instant) : Situation where
  state := instant.state
  cells := instant.tape.cell
  head := instant.head

/-- A recorded configuration shows its moment from the start of the window on. -/
theorem Instant.frames_configuration (instant : Instant) :
    instant.configuration.Frames instant.tape.blank instant.tape.start instant.situation where
  state_eq := rfl
  head_eq := rfl
  cell_eq _ inside := Tape.getElem_cells inside
  blank_outside := by
    intro position outside
    have length := instant.tape.length_cells
    change _ ∨ _ + (instant.tape.cells.length : Int) ≤ position at outside
    refine dif_neg fun stored => ?_
    have lower := stored.1
    have upper := stored.2
    omega

namespace TuringMachine

variable (machine : TuringMachine)

/-- The transition for a situation, if there is one. -/
def scan? (situation : Situation) : Option Transition :=
  machine.transition? situation.state (situation.cells situation.head)

/-- The run ends here: in a halting state, or where there is no transition. -/
def Final (situation : Situation) : Prop :=
  machine.Halting situation.state ∨ machine.scan? situation = none

/-- The next situation. A final one is not left. -/
def onward (situation : Situation) : Situation :=
  if machine.Halting situation.state then situation
  else ((machine.scan? situation).map situation.after).getD situation

/-- The situation in which a run begins: the input stands from position `0` on. -/
def outset (input : String) : Situation where
  state := machine.start
  cells position :=
    if 0 ≤ position then (input.toList.map String.singleton).getD position.toNat machine.blank
    else machine.blank
  head := 0

/-- The situations of a run, which stays in a final one. -/
def course (input : String) (count : Nat) : Situation :=
  machine.onward^[count] (machine.outset input)

/-- After how many steps a run comes to a final situation, infinitely many if it never does. -/
noncomputable def duration (input : String) : ℕ∞ :=
  ⨅ (count : ℕ) (_ : machine.Final (machine.course input count)), (count : ℕ∞)

variable {machine} {instant : Instant}

/-! ## One step -/

variable (machine instant) in
/-- What the simulation does in a step is what happens to the whole tape. -/
theorem map_situation_step? :
    (machine.step? instant).map Instant.situation =
      (machine.scan? instant.situation).map instant.situation.after := by
  have scanned : (instant.tape.extendTo instant.head).read instant.head
      (Tape.stored_extendTo instant.tape instant.head) = instant.tape.cell instant.head := by
    rw [← Tape.cell_extendTo instant.tape instant.head instant.head, Tape.cell,
      dif_pos (Tape.stored_extendTo instant.tape instant.head)]
  unfold step?
  simp only [scanned]
  change _ = (machine.transition? instant.state (instant.tape.cell instant.head)).map _
  cases machine.transition? instant.state (instant.tape.cell instant.head) with
  | none => rfl
  | some transition =>
    have written (position : Int) :
        Tape.cell (((instant.tape.extendTo instant.head).write instant.head transition.write
            (Tape.stored_extendTo instant.tape instant.head))) position =
          Function.update instant.tape.cell instant.head transition.write position := by
      rw [Tape.cell_write, Tape.cell_extendTo, Function.update_apply]
    exact congrArg (fun cells => some (Situation.mk transition.next cells _)) (funext written)

theorem step?_eq_none_iff :
    machine.step? instant = none ↔ machine.scan? instant.situation = none := by
  rw [← Option.map_eq_none_iff (f := Instant.situation), map_situation_step?,
    Option.map_eq_none_iff]

theorem stopped_iff : machine.Stopped instant ↔ machine.Final instant.situation :=
  or_congr Iff.rfl step?_eq_none_iff

variable (machine) in
/-- **One step on both tapes.** -/
theorem situation_proceed :
    Function.Semiconj Instant.situation machine.proceed machine.onward := by
  intro instant
  have step := machine.map_situation_step? instant
  unfold proceed onward
  by_cases halting : machine.Halting instant.state
  · rw [if_pos halting]
    exact (if_pos halting).symm
  · rw [if_neg halting, ← step]
    refine Eq.trans ?_ (if_neg halting).symm
    cases machine.step? instant with
    | none => rfl
    | some onward => rfl

/-- A step keeps the blank, and moves the start of the window to the left only. -/
theorem tape_proceed :
    (machine.proceed instant).tape.blank = instant.tape.blank ∧
      (machine.proceed instant).tape.start ≤ instant.tape.start := by
  unfold proceed
  split
  · exact ⟨rfl, Int.le_refl _⟩
  · unfold step?
    simp only
    split
    · exact ⟨rfl, Int.le_refl _⟩
    · simp only [Option.getD_some, Tape.blank_write, Tape.blank_extendTo, Tape.start_write,
        Tape.start_extendTo, true_and]
      exact Int.min_le_left _ _

/-! ## Whole runs -/

variable (machine)

theorem situation_initial (input : String) :
    (machine.initial input).situation = machine.outset input := by
  have begins (position : Int) :
      (machine.initial input).tape.cell position = (machine.outset input).cells position :=
    Tape.cell_ofSymbols position (input.toList.map String.singleton) machine.blank
  exact congrArg (Situation.mk machine.start · 0) (funext begins)

/-- The moments of a simulation show the situations of the run. -/
theorem situation_moment (input : String) (count : Nat) :
    (machine.moment (machine.initial input) count).situation = machine.course input count := by
  rw [course, ← situation_initial]
  exact machine.situation_proceed.iterate_right count (machine.initial input)

theorem blank_moment (input : String) (count : Nat) :
    (machine.moment (machine.initial input) count).tape.blank = machine.blank := by
  induction count with
  | zero => rfl
  | succ count ih => rw [moment_succ, tape_proceed.1, ih]

theorem antitone_start_moment (instant : Instant) :
    Antitone fun count => (machine.moment instant count).tape.start := by
  refine antitone_nat_of_succ_le fun count => ?_
  rw [moment_succ]
  exact tape_proceed.2

variable {machine} {input : String} {bound : Nat} {record : Simulation}

/-- A run that has not ended before some moment, and has ended there or at the bound, was as long as
the bound allows. -/
theorem eq_min_duration {steps : Nat} (within : steps ≤ bound)
    (going : ∀ count < steps, ¬ machine.Final (machine.course input count))
    (ended : steps = bound ∨ machine.Final (machine.course input steps)) :
    (steps : ℕ∞) = min (machine.duration input) bound := by
  apply le_antisymm
  · refine le_min (le_iInf₂ fun count final => ?_) (Nat.cast_le.mpr within)
    apply Nat.cast_le.mpr
    by_contra before
    exact going count (Nat.lt_of_not_le before) final
  · rcases ended with rfl | final
    · exact min_le_right _ _
    · exact (min_le_left _ _).trans (iInf₂_le steps final)

/-- The number of steps of a record. -/
theorem Recorded.steps_eq (recorded : machine.Recorded (machine.initial input) bound record) :
    (record.steps : ℕ∞) = min (machine.duration input) bound := by
  have shown := machine.situation_moment input
  refine eq_min_duration recorded.steps_le ?_ ?_
  · intro count before
    rw [← shown, ← stopped_iff]
    exact recorded.going count before
  · rw [← shown, ← stopped_iff]
    exact recorded.ended

/-- Every recorded configuration shows a situation of the run. -/
theorem Recorded.frames (recorded : machine.Recorded (machine.initial input) bound record)
    (count : Nat) (inside : count < record.configurations.length) :
    record.configurations[count].Frames machine.blank
      (machine.moment (machine.initial input) count).tape.start (machine.course input count) := by
  have frames := (machine.moment (machine.initial input) count).frames_configuration
  rw [situation_moment, blank_moment] at frames
  simp only [recorded.configurations_eq, List.getElem_map, List.getElem_range]
  exact frames

/-- The outcome of a record depends on the last situation and on whether a step was left. -/
theorem Recorded.outcome_eq_course
    (recorded : machine.Recorded (machine.initial input) bound record) :
    record.outcome =
      let last := machine.course input record.steps
      if machine.Halting last.state then machine.verdict last.state
      else if machine.scan? last = none ∧ record.steps < bound then machine.verdict machine.reject
      else .stepLimit := by
  have shown := machine.situation_moment input record.steps
  have state : (machine.moment (machine.initial input) record.steps).state =
      (machine.course input record.steps).state := congrArg Situation.state shown
  have stuck : machine.step? (machine.moment (machine.initial input) record.steps) = none ↔
      machine.scan? (machine.course input record.steps) = none := by
    rw [step?_eq_none_iff, shown]
  have outcome := recorded.outcome_eq
  simp only [state, stuck] at outcome
  exact outcome

/-- When the two halting states differ, the outcome is one of three cases. -/
theorem Recorded.outcome_course (recorded : machine.Recorded (machine.initial input) bound record)
    (distinct : machine.accept ≠ machine.reject) :
    let last := machine.course input record.steps
    record.outcome =
      if last.state = machine.accept then .accept
      else if last.state = machine.reject ∨ machine.scan? last = none ∧ record.steps < bound then
        .reject
      else .stepLimit := by
  intro last
  have outcome := recorded.outcome_eq_course
  change _ = if machine.Halting last.state then _ else _ at outcome
  by_cases accepting : last.state = machine.accept
  · have halting : machine.Halting last.state := .inl accepting
    rw [outcome, if_pos halting, if_pos accepting, verdict, if_pos accepting]
  · rw [if_neg accepting]
    by_cases rejecting : last.state = machine.reject
    · have halting : machine.Halting last.state := .inr rejecting
      rw [outcome, if_pos halting, verdict, if_neg accepting, if_pos (.inl rejecting)]
    · have going : ¬ machine.Halting last.state := not_or.mpr ⟨accepting, rejecting⟩
      rw [outcome, if_neg going, verdict, if_neg distinct.symm]
      simp only [last, rejecting, false_or]

/-- **The simulation takes the course of the machine.** -/
theorem simulate_course (machine : TuringMachine) (distinct : machine.accept ≠ machine.reject)
    (input : String) (maxSteps : Int) :
    let record := machine.simulate input maxSteps
    let last := machine.course input record.steps
    (record.steps : ℕ∞) = min (machine.duration input) maxSteps.toNat ∧
      record.configurations.length = record.steps + 1 ∧
      (∃ origin : Nat → Int, Antitone origin ∧ (∀ count, origin count ≤ 0) ∧
        ∀ (count : Nat) (recorded : count < record.configurations.length),
          record.configurations[count].Frames machine.blank (origin count)
            (machine.course input count)) ∧
      record.outcome =
        if last.state = machine.accept then .accept
        else if last.state = machine.reject ∨
          machine.scan? last = none ∧ (record.steps : Int) < maxSteps then .reject
        else .stepLimit := by
  intro record last
  have recorded : machine.Recorded (machine.initial input) maxSteps.toNat record :=
    machine.recorded_simulateFrom _ _
  have leftward := machine.antitone_start_moment (machine.initial input)
  refine ⟨recorded.steps_eq, ?_, ⟨_, leftward, ?_, recorded.frames⟩, ?_⟩
  · rw [recorded.configurations_eq, List.length_map, List.length_range]
  · exact fun count => leftward (Nat.zero_le count)
  · have room : record.steps < maxSteps.toNat ↔ (record.steps : Int) < maxSteps := Int.lt_toNat
    have outcome := recorded.outcome_course distinct
    simp only [room] at outcome
    exact outcome

/-- A machine that leaves its input to the left, comes back and finds no transition. -/
def leftward : TuringMachine where
  states := ["go", "back", "yes", "no"]
  alphabet := ["a", "b", "c", "_"]
  transitions := .ofList [
    (("go", "a"), ⟨"go", "b", .left⟩),
    (("go", "_"), ⟨"back", "c", .right⟩)]
  start := "go"
  accept := "yes"
  reject := "no"
  blank := "_"

/-- The run ends after two steps, of which the first leaves the stored cells and the second makes
them grow to the left. -/
theorem simulate_leftward :
    leftward.accept ≠ leftward.reject ∧ leftward.duration "a" = 2 ∧
      (∃ origin ≤ 0, (⟨"back", ["c", "b"], 1⟩ : Configuration).Frames "_" origin
        (leftward.course "a" 2)) ∧
      (leftward.simulate "a" 3).outcome = .reject ∧
      (leftward.simulate "a" 2).outcome = .stepLimit := by
  have distinct : leftward.accept ≠ leftward.reject := by decide
  obtain ⟨steps, -, ⟨origin, -, left, frames⟩, -⟩ := leftward.simulate_course distinct "a" 3
  have record : leftward.simulate "a" 3 =
      ⟨[⟨"go", ["a"], 0⟩, ⟨"go", ["b"], -1⟩, ⟨"back", ["c", "b"], 1⟩], 2, .reject⟩ := by
    decide +kernel
  rw [record] at steps frames
  refine ⟨distinct, ?_, ⟨origin 2, left 2, frames 2 (by decide)⟩, by rw [record], ?_⟩
  · rcases min_choice (leftward.duration "a") ((3 : Int).toNat : ℕ∞) with short | long
    · rw [← short, ← steps]
      rfl
    · rw [long] at steps
      exact absurd (Nat.cast_injective steps) (by decide)
  · decide +kernel

end TuringMachine

end AutomataKit
