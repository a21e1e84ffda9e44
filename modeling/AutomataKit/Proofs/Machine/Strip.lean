import AutomataKit.Proofs.Machine.Simulation
import AutomataKit.Proofs.Machine.Window

/-!
# Machines on a plain list of cells

A strip is a machine at one moment of a run, its tape one list of cells and its head an index that
may stand next to the list on either side. A blank is put before the cells, and the index reset to
`0`, when a cell left of them is scanned, and after them when one right of them is. The loop
`TuringMachine.simulateStrip` runs a machine in this way.

An instant of the simulation with its signed positions shows a strip when both are seen as the same
configuration. A step keeps that relation (`TuringMachine.Shows.step?`), and so both runs record
the same.
-/

namespace AutomataKit

/-- A machine at one moment of a run on a list of cells. -/
@[ext] structure Strip where
  state : String
  cells : List String
  head : Int
  head_ge : -1 ≤ head
  head_le : head ≤ cells.length

/-- A list of cells one of which is scanned. -/
structure Scan where
  cells : List String
  place : Fin cells.length

/-- The symbol in the cell that is scanned. -/
def Scan.symbol (scan : Scan) : String := scan.cells[scan.place]

namespace Strip

/-- The strip as it is recorded. -/
def configuration (strip : Strip) : Configuration := ⟨strip.state, strip.cells, strip.head⟩

/-- Make the cell under the head exist. -/
def scan (strip : Strip) (blank : String) : Scan :=
  if before : strip.head < 0 then ⟨blank :: strip.cells, ⟨0, by simp⟩⟩
  else if after : (strip.cells.length : Int) ≤ strip.head then
    ⟨strip.cells ++ [blank], ⟨strip.head.toNat, by
      have last := strip.head_le
      rw [List.length_append, List.length_singleton]
      omega⟩⟩
  else ⟨strip.cells, ⟨strip.head.toNat, by omega⟩⟩

/-- A head on one of the cells scans it, and no cell is added. -/
theorem scan_of_lt {strip : Strip} {place : Nat} (head : strip.head = place)
    (inside : place < strip.cells.length) (blank : String) :
    strip.scan blank = ⟨strip.cells, ⟨place, inside⟩⟩ := by
  unfold scan
  rw [dif_neg (by omega), dif_neg (by omega)]
  simp [head]

theorem length_lt_length_concat (cells : List String) (blank : String) :
    cells.length < (cells ++ [blank]).length := by
  rw [List.length_append, List.length_singleton]
  exact Nat.lt_succ_self _

/-- A head after the cells scans a blank put there. -/
theorem scan_of_eq {strip : Strip} (head : strip.head = strip.cells.length) (blank : String) :
    strip.scan blank =
      ⟨strip.cells ++ [blank], ⟨strip.cells.length, length_lt_length_concat _ _⟩⟩ := by
  unfold scan
  rw [dif_neg (by omega), dif_pos (by omega)]
  simp [head]

/-- The strip after a cell was scanned and a transition taken. -/
def after (scan : Scan) (transition : Transition) : Strip where
  state := transition.next
  cells := scan.cells.set scan.place transition.write
  head := scan.place + transition.move.offset
  head_ge := by cases transition.move <;> simp only [Move.offset] <;> omega
  head_le := by
    rw [List.length_set]
    cases transition.move <;> simp only [Move.offset] <;> omega

/-- A transition that writes the scanned symbol leaves the cells as they are. -/
theorem cells_after_of_write_eq {scan : Scan} {transition : Transition}
    (kept : transition.write = scan.symbol) : (after scan transition).cells = scan.cells := by
  change scan.cells.set scan.place transition.write = scan.cells
  rw [kept]
  exact List.set_getElem_self _

/-- A strip that holds symbols from index `0` on, or one blank if there are none. -/
def initial (state : String) (symbols : List String) (blank : String) : Strip where
  state := state
  cells := if symbols.isEmpty then [blank] else symbols
  head := 0
  head_ge := by omega
  head_le := by omega

end Strip

namespace TuringMachine

variable (machine : TuringMachine)

/-- The next strip of a run, if there is a transition for the state and the scanned symbol. -/
def stripStep? (strip : Strip) : Option Strip :=
  let scan := strip.scan machine.blank
  (machine.transition? strip.state scan.symbol).map (Strip.after scan)

/-- The outcome of a run by the state in which it was left. -/
def outcomeIn (state : String) : Outcome :=
  if state = machine.accept then .accept
  else if state = machine.reject then .reject
  else .stepLimit

/-- Go on with a run while it has not halted and steps are left. Without a transition the machine is
put into its reject state, and nothing is recorded. -/
def stripLoop (maxSteps : Int) (strip : Strip) (steps : Nat) (recorded : List Configuration) :
    Simulation :=
  if _going : ¬ machine.Halting strip.state ∧ (steps : Int) < maxSteps then
    match machine.stripStep? strip with
    | none => ⟨recorded, steps, machine.outcomeIn machine.reject⟩
    | some next => stripLoop maxSteps next (steps + 1) (recorded ++ [next.configuration])
  else ⟨recorded, steps, machine.outcomeIn strip.state⟩
termination_by (maxSteps - steps).toNat

/-- Simulate a machine on an input, with its tape in one list of cells. -/
def simulateStrip (input : String) (maxSteps : Int) : Simulation :=
  let strip := Strip.initial machine.start (input.toList.map String.singleton) machine.blank
  machine.stripLoop maxSteps strip 0 [strip.configuration]

variable {machine}

/-- A step takes the transition from the state and the symbol that is scanned. -/
theorem stripStep?_of_scan {strip : Strip} {scan : Scan}
    (scanned : strip.scan machine.blank = scan) :
    machine.stripStep? strip =
      (machine.transition? strip.state scan.symbol).map (Strip.after scan) := by
  subst scanned
  rfl

/-- An instant and a strip are seen as one configuration, and new cells hold the same blank. -/
structure Shows (machine : TuringMachine) (instant : Instant) (strip : Strip) : Prop where
  blank_eq : instant.tape.blank = machine.blank
  configuration_eq : instant.configuration = strip.configuration

namespace Shows

variable {instant : Instant} {strip : Strip} (shows : machine.Shows instant strip)

include shows

/-- What is shown has the state of the strip. -/
theorem state_eq : instant.state = strip.state :=
  congrArg Configuration.state shows.configuration_eq

/-- The stored window is the cells of the strip. -/
theorem cells_eq : instant.tape.cells = strip.cells :=
  congrArg Configuration.tape shows.configuration_eq

/-- The distance from the start of the window to the head is the index of the strip's head. -/
theorem head_eq : instant.head - instant.tape.start = strip.head :=
  congrArg Configuration.head shows.configuration_eq

/-- Extending the tape to the head gives the cells of the scan, and the head its place in them. -/
theorem scan_eq :
    (instant.tape.extendTo instant.head).cells = (strip.scan machine.blank).cells ∧
      instant.head - (instant.tape.extendTo instant.head).start =
        (strip.scan machine.blank).place := by
  have head := shows.head_eq
  have length := instant.tape.length_cells
  have lower := strip.head_ge
  have upper := strip.head_le
  rw [shows.cells_eq] at length
  rw [Tape.cells_extendTo, Tape.start_extendTo, shows.blank_eq, shows.cells_eq]
  unfold Strip.scan
  by_cases before : strip.head < 0
  · have left : (instant.tape.start - instant.head).toNat = 1 := by omega
    have right : (instant.head + 1 - instant.tape.stop).toNat = 0 := by omega
    rw [dif_pos before, left, right]
    refine ⟨by simp, ?_⟩
    change _ = ((0 : Nat) : Int)
    omega
  · have left : (instant.tape.start - instant.head).toNat = 0 := by omega
    rw [dif_neg before, left]
    by_cases behind : (strip.cells.length : Int) ≤ strip.head
    · have right : (instant.head + 1 - instant.tape.stop).toNat = 1 := by omega
      rw [dif_pos behind, right]
      refine ⟨by simp, ?_⟩
      change _ = ((strip.head.toNat : Nat) : Int)
      omega
    · have right : (instant.head + 1 - instant.tape.stop).toNat = 0 := by omega
      rw [dif_neg behind, right]
      refine ⟨by simp, ?_⟩
      change _ = ((strip.head.toNat : Nat) : Int)
      omega

/-- The same symbol is read from the tape and scanned on the strip. -/
theorem read_eq :
    (instant.tape.extendTo instant.head).read instant.head
        (Tape.stored_extendTo instant.tape instant.head) =
      (strip.scan machine.blank).symbol := by
  obtain ⟨cells, place⟩ := shows.scan_eq
  have found := Tape.getElem?_cells (Tape.stored_extendTo instant.tape instant.head)
  rw [cells, place, Int.toNat_natCast] at found
  exact (Option.some.inj ((List.getElem?_eq_getElem _).symm.trans found)).symm

/-- Taking a transition on both sides gives an instant and a strip that are again seen as one
configuration. -/
theorem after (transition : Transition) :
    machine.Shows
      { state := transition.next
        tape := (instant.tape.extendTo instant.head).write instant.head transition.write
          (Tape.stored_extendTo instant.tape instant.head)
        head := instant.head + transition.move.offset }
      (Strip.after (strip.scan machine.blank) transition) := by
  obtain ⟨cells, place⟩ := shows.scan_eq
  refine ⟨?_, ?_⟩
  · rw [Tape.blank_write, Tape.blank_extendTo, shows.blank_eq]
  · have written := Tape.cells_write transition.write
      (Tape.stored_extendTo instant.tape instant.head)
    rw [cells, place, Int.toNat_natCast] at written
    have head : instant.head + transition.move.offset -
        (instant.tape.extendTo instant.head).start =
          (strip.scan machine.blank).place + transition.move.offset := by
      omega
    unfold Instant.configuration Strip.configuration Strip.after
    rw [written, Tape.start_write]
    exact congrArg (Configuration.mk transition.next _) head

/-- **One step on both sides.** A step of the strip is matched by a step of the instant, and when
the strip has no step the instant has none. -/
theorem step? :
    match machine.stripStep? strip with
    | none => machine.step? instant = none
    | some next => ∃ onward, machine.step? instant = some onward ∧ machine.Shows onward next := by
  unfold stripStep? TuringMachine.step?
  simp only [shows.read_eq, shows.state_eq]
  cases machine.transition? strip.state (strip.scan machine.blank).symbol with
  | none => rfl
  | some transition => exact ⟨_, rfl, shows.after transition⟩

end Shows

/-- Both runs begin with the characters of the input in the cells and the head on the first. -/
theorem shows_initial (input : String) :
    machine.Shows (machine.initial input)
      (Strip.initial machine.start (input.toList.map String.singleton) machine.blank) := by
  refine ⟨rfl, ?_⟩
  unfold Instant.configuration Strip.configuration initial Strip.initial Tape.ofSymbols
  cases input.toList <;> simp [Tape.cells, Tape.start]

theorem outcomeIn_of_halting {state : String} (halting : machine.Halting state) :
    machine.outcomeIn state = machine.verdict state := by
  unfold outcomeIn verdict
  rcases halting with accepting | rejecting
  · rw [if_pos accepting, if_pos accepting]
  · by_cases accepting : state = machine.accept
    · rw [if_pos accepting, if_pos accepting]
    · rw [if_neg accepting, if_neg accepting, if_pos rejecting]

/-- In any other state the steps have run out. -/
theorem outcomeIn_of_not_halting {state : String} (going : ¬ machine.Halting state) :
    machine.outcomeIn state = .stepLimit := by
  unfold outcomeIn
  rw [if_neg fun accepting => going (.inl accepting),
    if_neg fun rejecting => going (.inr rejecting)]

/-- In a halting state the loop ends. -/
theorem stripLoop_of_halting {strip : Strip} (halting : machine.Halting strip.state)
    (maxSteps : Int) (steps : Nat) (recorded : List Configuration) :
    machine.stripLoop maxSteps strip steps recorded =
      ⟨recorded, steps, machine.verdict strip.state⟩ := by
  rw [stripLoop, dif_neg fun going => going.1 halting, outcomeIn_of_halting halting]

/-- The loop adds to what was recorded what the simulation records after its first moment. -/
theorem stripLoop_of_shows {instant : Instant} {strip : Strip}
    (shows : machine.Shows instant strip) (maxSteps : Int) (steps : Nat)
    (recorded : List Configuration) :
    machine.stripLoop maxSteps strip steps recorded =
      let rest := machine.simulateFrom (maxSteps - steps).toNat instant
      ⟨recorded ++ rest.configurations.tail, steps + rest.steps, rest.outcome⟩ := by
  -- The induction is on the number of steps that are left, for all moments and records.
  generalize left : (maxSteps - steps).toNat = bound
  induction bound generalizing instant strip steps recorded with
  | zero =>
    have state := shows.state_eq
    by_cases halting : machine.Halting strip.state
    · rw [stripLoop_of_halting halting, simulateFrom_of_halting (state ▸ halting), state]
      simp
    · rw [stripLoop, dif_neg fun going => by omega, simulateFrom_zero (state ▸ halting),
        outcomeIn_of_not_halting halting]
      simp
  | succ bound ih =>
    have state := shows.state_eq
    by_cases halting : machine.Halting strip.state
    · rw [stripLoop_of_halting halting, simulateFrom_of_halting (state ▸ halting), state]
      simp
    · have step := shows.step?
      rw [stripLoop, dif_pos ⟨halting, by omega⟩]
      cases stepped : machine.stripStep? strip with
      | none =>
        rw [stepped] at step
        rw [simulateFrom_succ_of_none (state ▸ halting) step, outcomeIn_of_halting (.inr rfl)]
        simp
      | some next =>
        rw [stepped] at step
        obtain ⟨onward, moved, shown⟩ := step
        have rest := ih shown (steps + 1) (recorded ++ [next.configuration]) (by omega)
        simp only [rest, simulateFrom_succ_of_some (state ▸ halting) moved]
        rw [configurations_simulateFrom machine onward, shown.configuration_eq, List.tail_cons,
          List.tail_cons, List.append_assoc, List.singleton_append, Nat.add_right_comm,
          Nat.add_assoc]

variable (machine)

/-- **A tape in two halves is a plain list of cells.** -/
theorem simulate_eq_simulateStrip (input : String) (maxSteps : Int) :
    machine.simulate input maxSteps = machine.simulateStrip input maxSteps := by
  have shows := machine.shows_initial input
  unfold simulate simulateStrip
  rw [stripLoop_of_shows shows, ← shows.configuration_eq]
  simp only [Int.natCast_zero, Int.sub_zero, Nat.zero_add, List.singleton_append]
  rw [← configurations_simulateFrom]

end TuringMachine

end AutomataKit
